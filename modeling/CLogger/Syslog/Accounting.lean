import CLogger.Syslog.Effects

/-!
# Accounting of the syslog sink

For every sequence of calls with any outcomes of the clock, the socket and the formatter: every
submitted record is counted once as sent or as failed, every attempt to connect once as a success
or as a failure, no record is sent again after anything but an interrupted `send`, and every
descriptor is closed once, unless it is the one in use.

* `WriteReceiptOk`: what one call of `logger_syslog_write` may have done.
* `AccountInv`: the invariant between the counters, the receipts and the trace.
* `syslog_accounting`: the theorem about all sequences of calls.
-/

namespace CLogger

open TapeProgram

section Statement

/-- The outcome of an event that is a send. -/
def SyslogEvent.outcome? : SyslogEvent → Option SendOutcome
  | .send _ outcome => some outcome
  | _ => none

/-- The outcomes of the sends among the events. -/
def sendsOf (es : List SyslogEvent) : List SendOutcome := es.filterMap SyslogEvent.outcome?

/-- Whether an event is a `connect`. -/
def SyslogEvent.isConnect : SyslogEvent → Bool
  | .connect _ _ => true
  | _ => false

/-- Whether an event is a `connect` that succeeded. -/
def SyslogEvent.isLink : SyslogEvent → Bool
  | .connect _ ok => ok
  | _ => false

/-- Only an interrupted send is followed by another. -/
def Retried (outcomes : List SendOutcome) : Prop :=
  ∀ before o o' after, outcomes = before ++ o :: o' :: after → o = .error eintr

/-- What one call of `logger_syslog_write` may have done: at most one `connect`, at most four sends
of its own datagram, and a result that tells whether the datagram was taken. -/
structure WriteReceiptOk (r : SyslogReceipt) : Prop where
  oneConnect : r.events.countP SyslogEvent.isConnect ≤ 1
  fourSends : (sendsOf r.events).length ≤ 4
  ownPacket : ∀ packet outcome, SyslogEvent.send packet outcome ∈ r.events → packet = r.packet
  retried : Retried (sendsOf r.events)
  accepted : r.rc = 0 ↔ (sendsOf r.events).count .full = 1

/-- The call clears the sink. -/
def SyslogReceipt.resets (r : SyslogReceipt) : Bool :=
  match r.op with
  | .init _ config => config.isSome
  | .write _ _ => false

/-- The call is a write. -/
def SyslogReceipt.isWrite (r : SyslogReceipt) : Bool :=
  match r.op with
  | .init _ _ => false
  | .write _ _ => true

/-- The receipts since the sink was last cleared. -/
def sinceInit (receipts : List SyslogReceipt) : List SyslogReceipt :=
  receipts.foldl (fun past r => if r.resets then [r] else past ++ [r]) []

/-- The number of failed writes. -/
def failures (receipts : List SyslogReceipt) : ℕ :=
  receipts.countP fun r => r.isWrite && r.rc ≠ 0

/-- The number of connections. -/
def links (receipts : List SyslogReceipt) : ℕ :=
  (receipts.flatMap SyslogReceipt.events).countP SyslogEvent.isLink

/-- The state of the sink and of its descriptors after a sequence of calls. -/
structure SyslogAccounting (receipts : List SyslogReceipt) (w : SyslogWorld) : Prop where
  /-- Every submitted record was sent or failed. -/
  records : w.syslog.metrics.submittedRecords =
    w.syslog.metrics.sentRecords + w.syslog.metrics.failedRecords
  /-- Every attempt to connect succeeded or failed. -/
  connects : w.syslog.metrics.connectAttempts =
    UInt64.ofNat (links (sinceInit receipts)) + w.syslog.metrics.connectFailures
  connected : w.syslog.metrics.connected = true ↔ w.syslog.fd.isSome
  /-- The failed records are counted, and the records refused for backpressure or in a cooldown are
  among them. -/
  failed : w.syslog.metrics.failedRecords = UInt64.ofNat (failures (sinceInit receipts))
  backpressure : ∃ n ≤ failures (sinceInit receipts),
    w.syslog.metrics.backpressureRecords = UInt64.ofNat n
  cooldown : ∃ n ≤ failures (sinceInit receipts),
    w.syslog.metrics.cooldownRecords = UInt64.ofNat n
  writes : ∀ r ∈ receipts, r.isWrite → WriteReceiptOk r
  /-- What happened is what the calls did. -/
  trace : w.trace = receipts.flatMap SyslogReceipt.events
  /-- A descriptor is closed once, unless it is the one in use; then it has not been closed. -/
  closedOnce : ∀ fd, SyslogEvent.socket (some fd) ∈ w.trace →
    w.trace.count (.close fd) = if w.syslog.fd = some fd then 0 else 1
  /-- Only own descriptors are closed. -/
  closedOwn : ∀ fd, SyslogEvent.close fd ∈ w.trace → SyslogEvent.socket (some fd) ∈ w.trace

end Statement

section Receipts

theorem retried_nil : Retried [] := by
  intro before o o' after h
  simp at h

theorem retried_singleton (o : SendOutcome) : Retried [o] := by
  intro before o₁ o₂ after h
  have hlen := congrArg List.length h
  simp only [List.length_append, List.length_cons, List.length_nil] at hlen
  omega

/-- A result and the sends behind it: how many there were, that only interrupted ones were
repeated, and that the datagram was taken exactly when the result is 0. -/
structure SendsOk (packet : List UInt8) (n : ℕ) (es : List SyslogEvent) (rc : ℤ) : Prop where
  length : (sendsOf es).length ≤ n
  own : ∀ p outcome, SyslogEvent.send p outcome ∈ es → p = packet
  retried : Retried (sendsOf es)
  accepted : rc = 0 ↔ (sendsOf es).count .full = 1

theorem SendsTo.ok {packet : List UInt8} {n : ℕ} {es : List SyslogEvent} {e : ℤ}
    (h : SendsTo packet n es e) : SendsOk packet n es e := by
  induction h with
  | exhausted => exact ⟨le_rfl, nofun, retried_nil, by decide⟩
  | full =>
    refine ⟨by simp [sendsOf, SyslogEvent.outcome?], by simp, retried_singleton _, ?_⟩
    simp [sendsOf, SyslogEvent.outcome?]
  | short =>
    refine ⟨by simp [sendsOf, SyslogEvent.outcome?], by simp, retried_singleton _, ?_⟩
    simp [sendsOf, SyslogEvent.outcome?, eio]
  | error he _ =>
    refine ⟨by simp [sendsOf, SyslogEvent.outcome?], by simp, retried_singleton _, ?_⟩
    simp [sendsOf, SyslogEvent.outcome?, he]
  | retry _ ih =>
    refine ⟨Nat.succ_le_succ ih.length, ?_, ?_, ih.accepted.trans ?_⟩
    · intro p outcome hmem
      rcases List.mem_cons.mp hmem with heq | hmem
      · exact (SyslogEvent.send.inj heq).1
      · exact ih.own p outcome hmem
    · -- the interrupted send comes first, the rest is repeated as before
      intro before o o' after hsplit
      cases before with
      | nil => exact (List.cons.inj hsplit).1.symm
      | cons b before => exact ih.retried before o o' after (List.cons.inj hsplit).2
    · simp [sendsOf, SyslogEvent.outcome?]

/-- The sends of a record are its only sends, and it makes no connection. -/
theorem SendsTo.countP {packet : List UInt8} {n : ℕ} {es : List SyslogEvent} {e : ℤ}
    (h : SendsTo packet n es e) {p : SyslogEvent → Bool}
    (hp : ∀ outcome, p (.send packet outcome) = false) : es.countP p = 0 := by
  induction h with
  | exhausted => rfl
  | full => simp [hp]
  | short => simp [hp]
  | error _ _ => simp [hp]
  | retry _ ih => simp [hp, ih]

/-- Events that are not sends do not change what was sent. -/
theorem SendsOk.append {packet : List UInt8} {n : ℕ} {es : List SyslogEvent} {rc : ℤ}
    (h : SendsOk packet n es rc) (before after : List SyslogEvent)
    (hbefore : ∀ e ∈ before, e.outcome? = none)
    (hafter : ∀ e ∈ after, e.outcome? = none) : SendsOk packet n (before ++ es ++ after) rc := by
  have hsends : sendsOf (before ++ es ++ after) = sendsOf es := by
    rw [sendsOf, List.filterMap_append, List.filterMap_append,
      List.filterMap_eq_nil_iff.mpr hbefore, List.filterMap_eq_nil_iff.mpr hafter, List.append_nil]
    rfl
  refine ⟨hsends ▸ h.length, ?_, hsends ▸ h.retried, hsends ▸ h.accepted⟩
  intro p outcome hmem
  rcases List.mem_append.mp hmem with hmem | hmem
  · rcases List.mem_append.mp hmem with hmem | hmem
    · exact absurd (hbefore _ hmem) nofun
    · exact h.own p outcome hmem
  · exact absurd (hafter _ hmem) nofun

theorem SendsOk.of_none {packet : List UInt8} {n : ℕ} {es : List SyslogEvent} {e : ℤ} (he : e ≠ 0)
    (hes : ∀ x ∈ es, x.outcome? = none) : SendsOk packet n es (-e) := by
  have hempty : SendsOk packet n [] (-e) :=
    ⟨Nat.zero_le n, nofun, retried_nil, by simp [sendsOf, he]⟩
  simpa using hempty.append es [] hes nofun

theorem RecordTo.ok {packet : List UInt8} {fd : ℕ} {v v' : SyslogView} {es : List SyslogEvent}
    {rc : ℤ} (h : RecordTo packet fd v es v' rc) :
    SendsOk packet syslogSendAttempts es rc ∧ es.countP SyslogEvent.isConnect = 0 := by
  have hneg : ∀ {es : List SyslogEvent} {e : ℤ}, SendsOk packet syslogSendAttempts es e →
      SendsOk packet syslogSendAttempts es (-e) :=
    fun h => ⟨h.length, h.own, h.retried, neg_eq_zero.trans h.accepted⟩
  cases h with
  | sent hsends => exact ⟨hsends.ok, hsends.countP fun _ => rfl⟩
  | failed hsends _ => exact ⟨hneg hsends.ok, hsends.countP fun _ => rfl⟩
  | dropped hsends _ =>
    refine ⟨hneg ?_, ?_⟩
    · exact hsends.ok.append [] _ nofun (by simp [SyslogEvent.outcome?])
    · rw [List.countP_append, hsends.countP fun _ => rfl]
      rfl

theorem ConnectsTo.quiet {fd n : ℕ} {v v' : SyslogView} {es : List SyslogEvent} {rc : ℤ}
    (h : ConnectsTo fd v es n v' rc) :
    (∀ e ∈ es, e.outcome? = none) ∧ es.countP SyslogEvent.isConnect ≤ 1 := by
  cases h <;>
    exact ⟨by simp [SyslogEvent.outcome?], by simp [List.countP_cons, SyslogEvent.isConnect]⟩

/-- Every way of a write gives a good receipt. -/
theorem WriteTo.ok {packet : List UInt8} {n n' : ℕ} {v v' : SyslogView} {es : List SyslogEvent}
    {rc : ℤ} (h : WriteTo packet n v es n' v' rc) :
    SendsOk packet syslogSendAttempts es rc ∧ es.countP SyslogEvent.isConnect ≤ 1 := by
  cases h with
  | rejected he => exact ⟨.of_none he nofun, Nat.zero_le 1⟩
  | linked _ hrecord => exact ⟨hrecord.ok.1, hrecord.ok.2.le.trans (Nat.zero_le 1)⟩
  | noClock _ he =>
    exact ⟨.of_none he (by simp [SyslogEvent.outcome?]), by simp [SyslogEvent.isConnect]⟩
  | cooling _ he _ =>
    exact ⟨.of_none he (by simp [SyslogEvent.outcome?]), by simp [SyslogEvent.isConnect]⟩
  | refused _ _ he hconnects =>
    obtain ⟨hquiet, hcount⟩ := hconnects.quiet
    refine ⟨.of_none he ?_, ?_⟩
    · simpa [SyslogEvent.outcome?] using hquiet
    · simpa [SyslogEvent.isConnect] using hcount
  | @renewed now _ _ es _ _ _ _ _ _ hconnects _ hrecord =>
    obtain ⟨hquiet, hcount⟩ := hconnects.quiet
    refine ⟨?_, ?_⟩
    · have hbefore : ∀ e ∈ SyslogEvent.reading (some now) :: es, e.outcome? = none := by
        simpa [SyslogEvent.outcome?] using hquiet
      simpa using hrecord.ok.1.append _ [] hbefore nofun
    · simpa [List.countP_append, hrecord.ok.2, SyslogEvent.isConnect] using hcount

end Receipts

section Descriptors

/-- The descriptors behind a trace: `n` have been opened, and all but `fd` have been closed once. -/
structure Descriptors (trace : List SyslogEvent) (n : ℕ) (fd : Option ℕ) : Prop where
  opened : ∀ f, SyslogEvent.socket (some f) ∈ trace ↔ f < n
  owned : ∀ f, fd = some f → f < n
  closed : ∀ f, trace.count (.close f) = if f < n ∧ fd ≠ some f then 1 else 0

variable {trace es : List SyslogEvent} {n n' : ℕ} {fd : Option ℕ}

theorem Descriptors.neutral {e : SyslogEvent} (h : Descriptors trace n fd)
    (hsocket : ∀ f, e ≠ .socket (some f)) (hclose : ∀ f, e ≠ .close f) :
    Descriptors (trace ++ [e]) n fd := by
  refine ⟨fun f => ?_, h.owned, fun f => ?_⟩
  · rw [List.mem_append, List.mem_singleton, or_iff_left (hsocket f).symm]
    exact h.opened f
  · rw [List.count_append, List.count_singleton, if_neg (by simpa using hclose f)]
    exact h.closed f

/-- A new descriptor is owned. -/
theorem Descriptors.socket (h : Descriptors trace n none) :
    Descriptors (trace ++ [.socket (some n)]) (n + 1) (some n) := by
  refine ⟨fun f => ?_, fun f hf => ?_, fun f => ?_⟩
  · rw [List.mem_append, List.mem_singleton, h.opened f]
    simp only [SyslogEvent.socket.injEq, Option.some.injEq]
    omega
  · rw [← Option.some.inj hf]
    exact Nat.lt_succ_self n
  · rw [List.count_append, h.closed f]
    by_cases hf : f < n
    · simp [hf, Nat.lt_succ_of_lt hf, hf.ne']
    · by_cases hn : f = n
      · simp [hn]
      · have hlt : ¬ f < n + 1 := by omega
        simp [hf, hlt]

/-- The owned descriptor is closed, and nothing is owned. -/
theorem Descriptors.close {f : ℕ} (h : Descriptors trace n (some f)) :
    Descriptors (trace ++ [.close f]) n none := by
  refine ⟨fun g => ?_, nofun, fun g => ?_⟩
  · rw [List.mem_append, List.mem_singleton, or_iff_left nofun]
    exact h.opened g
  · rw [List.count_append, h.closed g]
    by_cases hg : g = f
    · subst hg
      simp [h.owned g rfl]
    · simp [Ne.symm hg]

theorem Descriptors.sends {packet : List UInt8} {k : ℕ} {e : ℤ} (h : Descriptors trace n fd)
    (hsends : SendsTo packet k es e) : Descriptors (trace ++ es) n fd := by
  induction hsends generalizing trace with
  | exhausted => rwa [List.append_nil]
  | full => exact h.neutral nofun nofun
  | short => exact h.neutral nofun nofun
  | error _ _ => exact h.neutral nofun nofun
  | retry _ ih =>
    rw [← List.singleton_append, ← List.append_assoc]
    exact ih (h.neutral nofun nofun)

theorem Descriptors.connects {v v' : SyslogView} {rc : ℤ} (h : Descriptors trace n none)
    (hto : ConnectsTo n v es n' v' rc) (hfd : v.fd = none) :
    Descriptors (trace ++ es) n' v'.fd := by
  have hattempt : Descriptors (trace ++ [.attempt]) n none := h.neutral nofun nofun
  cases hto with
  | noSocket _ =>
    have hsocket := hattempt.neutral (e := .socket none) nofun nofun
    rw [List.append_assoc] at hsocket
    simpa [hfd] using hsocket
  | refused _ =>
    have hclose := (hattempt.socket.neutral (e := .connect n false) nofun nofun).close
    simpa [hfd] using hclose
  | linked =>
    have hconnect := hattempt.socket.neutral (e := .connect n true) nofun nofun
    simpa using hconnect

theorem Descriptors.record {packet : List UInt8} {f : ℕ} {v v' : SyslogView} {rc : ℤ}
    (h : Descriptors trace n v.fd) (hfd : v.fd = some f) (hto : RecordTo packet f v es v' rc) :
    Descriptors (trace ++ es) n v'.fd := by
  cases hto with
  | sent hsends => exact h.sends hsends
  | failed hsends _ => exact h.sends hsends
  | @dropped es e reading hsends _ =>
    rw [hfd] at h
    have hdrop := (((h.sends hsends).neutral (e := .drop) nofun nofun).close).neutral
      (e := .reading reading) nofun nofun
    simpa [SyslogView.fail] using hdrop

theorem Descriptors.write {packet : List UInt8} {v v' : SyslogView} {rc : ℤ}
    (h : Descriptors trace n v.fd) (hto : WriteTo packet n v es n' v' rc) :
    Descriptors (trace ++ es) n' v'.fd := by
  cases hto with
  | rejected _ => rwa [List.append_nil]
  | linked hfd hrecord => exact Descriptors.record (v := v.submit) h hfd hrecord
  | noClock _ _ => exact h.neutral nofun nofun
  | cooling _ _ _ => exact h.neutral nofun nofun
  | @refused now e es v' _ hfd _ _ hconnects =>
    rw [hfd] at h
    have hread := h.neutral (e := .reading (some now)) nofun nofun
    have hdone := hread.connects hconnects hfd
    simpa [SyslogView.fail] using hdone
  | @renewed now f _ es es' v' _ _ hfd _ hconnects hfd' hrecord =>
    rw [hfd] at h
    have hread := h.neutral (e := .reading (some now)) nofun nofun
    have hdone := (hread.connects hconnects hfd).record hfd' hrecord
    simpa using hdone

theorem Descriptors.init {v' : SyslogView} {rc : ℤ} (h : Descriptors trace n none)
    (hto : InitTo n es n' v' rc) : Descriptors (trace ++ es) n' v'.fd := by
  cases hto with
  | rejected _ => rwa [List.append_nil]
  | noClock _ _ => exact h.neutral nofun nofun
  | @attempted _ now es _ _ _ _ _ hconnects _ =>
    have hread := h.neutral (e := .reading (some now)) nofun nofun
    have hdone := hread.connects hconnects rfl
    simpa using hdone

end Descriptors

section Counters

/-- What a call adds to the counters: `records` that it submits, `settled` ones that it counts as
sent or failed, the failed one among them, and the connections it makes. -/
structure Counted (v v' : SyslogView) (es : List SyslogEvent) (records settled : UInt64)
    (fails : Bool) : Prop where
  submitted : v'.submitted = v.submitted + records
  settled : v'.sent + v'.failed = v.sent + v.failed + settled
  failed : v'.failed = if fails then v.failed + 1 else v.failed
  pressured : v'.pressured = v.pressured ∨ fails ∧ v'.pressured = v.pressured + 1
  cooldown : v'.cooldown = v.cooldown ∨ fails ∧ v'.cooldown = v.cooldown + 1
  attempts : v'.attempts - v'.connectFailures =
    v.attempts - v.connectFailures + UInt64.ofNat (es.countP SyslogEvent.isLink)
  connected : v.connected = v.fd.isSome → v'.connected = v'.fd.isSome

variable {v v' v'' : SyslogView} {es es' : List SyslogEvent} {rc : ℤ} {packet : List UInt8}

/-- Steps of a call that settle nothing, and then the one that settles the record. -/
theorem Counted.trans {r r' d d' : UInt64} {f : Bool} (h : Counted v v' es r d false)
    (h' : Counted v' v'' es' r' d' f) : Counted v v'' (es ++ es') (r + r') (d + d') f where
  submitted := by rw [h'.submitted, h.submitted, UInt64.add_assoc]
  settled := by rw [h'.settled, h.settled, UInt64.add_assoc]
  failed := by
    have hfailed := h.failed
    simp only [Bool.false_eq_true, if_false] at hfailed
    rw [h'.failed, hfailed]
  pressured := by
    have hsame : v'.pressured = v.pressured := by simpa using h.pressured
    rw [← hsame]
    exact h'.pressured
  cooldown := by
    have hsame : v'.cooldown = v.cooldown := by simpa using h.cooldown
    rw [← hsame]
    exact h'.cooldown
  attempts := by
    rw [h'.attempts, h.attempts, List.countP_append, UInt64.ofNat_add, UInt64.add_assoc]
  connected hc := h'.connected (h.connected hc)

theorem ConnectsTo.counted {fd n : ℕ} (h : ConnectsTo fd v es n v' rc) :
    Counted v v' es 0 0 false := by
  cases h with
  | noSocket _ =>
    refine ⟨by simp, by simp, rfl, .inl rfl, .inl rfl, ?_, id⟩
    simp [SyslogEvent.isLink]
  | refused _ =>
    refine ⟨by simp, by simp, rfl, .inl rfl, .inl rfl, ?_, id⟩
    simp [SyslogEvent.isLink]
  | linked =>
    refine ⟨by simp, by simp, rfl, .inl rfl, .inl rfl, ?_, fun _ => rfl⟩
    simp [List.countP_cons, SyslogEvent.isLink]
    grind

/-- Counting a failed record. -/
theorem Counted.fail {e : ℤ} (he : e ≠ 0) (hcooldown : v'.cooldown = v.cooldown ∨
    v'.cooldown = v.cooldown + 1) (hsame : v'.submitted = v.submitted ∧ v'.sent = v.sent ∧
      v'.failed = v.failed ∧ v'.pressured = v.pressured)
    (hattempts : v'.attempts - v'.connectFailures = v.attempts - v.connectFailures +
      UInt64.ofNat (es.countP SyslogEvent.isLink))
    (hconnected : v.connected = v.fd.isSome → v'.connected = v'.fd.isSome) :
    Counted v (v'.fail e) es 0 1 (decide (-e ≠ 0)) := by
  obtain ⟨hsub, hsent, hfailed, hpressured⟩ := hsame
  have hneg : decide (-e ≠ 0) = true := by simpa using he
  rw [hneg]
  refine ⟨?_, ?_, ?_, ?_, ?_, hattempts, hconnected⟩
  · simp [SyslogView.fail, hsub]
  · simp only [SyslogView.fail, hsent, hfailed]
    grind
  · simp [SyslogView.fail, hfailed]
  · simp only [SyslogView.fail, hpressured]
    split <;> simp
  · simpa [SyslogView.fail] using hcooldown

theorem counted_fail {e : ℤ} (he : e ≠ 0) : Counted v (v.fail e) [] 0 1 (decide (-e ≠ 0)) :=
  Counted.fail he (.inl rfl) ⟨rfl, rfl, rfl, rfl⟩ (by simp) id

theorem RecordTo.counted {fd : ℕ} (h : RecordTo packet fd v es v' rc) :
    Counted v v' es 0 1 (decide (rc ≠ 0)) := by
  cases h with
  | sent hsends =>
    refine ⟨by simp, ?_, by simp, .inl rfl, .inl rfl, ?_, id⟩
    · simp only
      grind
    · simp [hsends.countP (p := SyslogEvent.isLink) fun _ => rfl]
  | failed hsends he =>
    refine Counted.fail he (.inl rfl) ⟨rfl, rfl, rfl, rfl⟩ ?_ id
    simp [hsends.countP (p := SyslogEvent.isLink) fun _ => rfl]
  | dropped hsends he =>
    refine Counted.fail he (.inl rfl) ⟨rfl, rfl, rfl, rfl⟩ ?_ fun _ => rfl
    simp [hsends.countP (p := SyslogEvent.isLink) fun _ => rfl, SyslogEvent.isLink]

theorem counted_submit : Counted v v.submit [] 1 0 false :=
  ⟨rfl, by simp [SyslogView.submit], rfl, .inl rfl, .inl rfl, by simp [SyslogView.submit], id⟩

theorem counted_reading {now : UInt64} :
    Counted v { v.rearm now with retryFrom := now } [.reading (some now)] 0 0 false :=
  ⟨by simp [SyslogView.rearm], by simp [SyslogView.rearm], rfl, .inl rfl, .inl rfl,
    by simp [SyslogView.rearm, SyslogEvent.isLink], id⟩

/-- Every way of a write settles its record once. -/
theorem WriteTo.counted {n n' : ℕ} (h : WriteTo packet n v es n' v' rc) :
    Counted v v' es 1 1 (decide (rc ≠ 0)) := by
  have hfail : ∀ {es : List SyslogEvent} {v' : SyslogView} {e : ℤ},
      Counted v.submit v' es 0 1 (decide (e ≠ 0)) → Counted v v' es 1 1 (decide (e ≠ 0)) := by
    intro es v' e hcounted
    exact counted_submit.trans hcounted
  cases h with
  | rejected he => exact hfail (counted_fail he)
  | linked _ hrecord => exact hfail hrecord.counted
  | noClock _ he =>
    exact hfail (Counted.fail he (.inl rfl) ⟨rfl, rfl, rfl, rfl⟩ (by simp [SyslogEvent.isLink]) id)
  | cooling _ he _ =>
    exact hfail (Counted.fail he (.inr rfl) ⟨rfl, rfl, rfl, rfl⟩
      (by simp [SyslogEvent.isLink, SyslogView.rearm]) id)
  | refused _ _ he hconnects =>
    have hall := (counted_reading.trans hconnects.counted).trans (counted_fail he)
    exact hfail (by simpa using hall)
  | renewed _ _ hconnects _ hrecord =>
    have hall := (counted_reading.trans hconnects.counted).trans hrecord.counted
    exact hfail (by simpa using hall)

end Counters

section Invariant

/-- The invariant between the receipts, the trace, the next descriptor and the sink. -/
structure AccountInv (receipts : List SyslogReceipt) (trace : List SyslogEvent) (n : ℕ)
    (v : SyslogView) : Prop where
  records : v.submitted = v.sent + v.failed
  attempts : v.attempts - v.connectFailures = UInt64.ofNat (links (sinceInit receipts))
  connected : v.connected = v.fd.isSome
  failed : v.failed = UInt64.ofNat (failures (sinceInit receipts))
  pressured : ∃ k ≤ failures (sinceInit receipts), v.pressured = UInt64.ofNat k
  cooldown : ∃ k ≤ failures (sinceInit receipts), v.cooldown = UInt64.ofNat k
  writes : ∀ r ∈ receipts, r.isWrite → WriteReceiptOk r
  descriptors : Descriptors trace n v.fd
  trace : trace = receipts.flatMap SyslogReceipt.events

variable {receipts : List SyslogReceipt} {trace es : List SyslogEvent} {n n' : ℕ}
  {v v' : SyslogView} {r : SyslogReceipt}

theorem sinceInit_append :
    sinceInit (receipts ++ [r]) = if r.resets then [r] else sinceInit receipts ++ [r] := by
  rw [sinceInit, List.foldl_append]
  rfl

theorem links_append {past : List SyslogReceipt} :
    links (past ++ [r]) = links past + r.events.countP SyslogEvent.isLink := by
  simp [links, List.flatMap_append, List.countP_append]

theorem failures_append {past : List SyslogReceipt} :
    failures (past ++ [r]) = failures past + if r.isWrite && r.rc ≠ 0 then 1 else 0 := by
  simp [failures, List.countP_append, List.countP_singleton]

theorem AccountInv.start (pid : ℕ) :
    AccountInv [] (syslogStart pid).trace (syslogStart pid).nextFd
    (syslogStart pid).syslog.view := by
  refine ⟨rfl, by simp [links, sinceInit, syslogStart, Syslog.view], rfl, rfl, ⟨0, le_rfl, rfl⟩,
    ⟨0, le_rfl, rfl⟩, fun _ hmem => absurd hmem List.not_mem_nil, ?_, rfl⟩
  exact ⟨fun f => by simp [syslogStart], by rintro f ⟨⟩, fun f => by simp [syslogStart]⟩

theorem sinceInit_keep (hresets : r.resets = false) :
    sinceInit (receipts ++ [r]) = sinceInit receipts ++ [r] := by
  rw [sinceInit_append, hresets]
  rfl

/-- The events of a new receipt are the new part of the trace. -/
theorem flatMap_events_append (h : trace = receipts.flatMap SyslogReceipt.events) :
    trace ++ r.events = (receipts ++ [r]).flatMap SyslogReceipt.events := by
  rw [List.flatMap_append, h]
  simp

/-- A receipt that is not one of a write adds nothing to what is known of the writes. -/
theorem writes_append (h : ∀ r ∈ receipts, r.isWrite → WriteReceiptOk r)
    (hr : r.isWrite → WriteReceiptOk r) : ∀ r' ∈ receipts ++ [r], r'.isWrite →
    WriteReceiptOk r' := by
  intro r' hmem
  rcases List.mem_append.mp hmem with hmem | hmem
  · exact h r' hmem
  · rw [List.mem_singleton.mp hmem]
    exact hr

/-- A call without a configuration does nothing. -/
theorem AccountInv.unconfigured (h : AccountInv receipts trace n v) (hresets : r.resets = false)
    (hwrite : r.isWrite = false) (hes : r.events = []) :
    AccountInv (receipts ++ [r]) (trace ++ r.events) n v := by
  have hlinks : links (sinceInit (receipts ++ [r])) = links (sinceInit receipts) := by
    rw [sinceInit_keep hresets, links_append, hes]
    rfl
  have hfailures : failures (sinceInit (receipts ++ [r])) = failures (sinceInit receipts) := by
    rw [sinceInit_keep hresets, failures_append, hwrite]
    rfl
  refine ⟨h.records, hlinks ▸ h.attempts, h.connected, hfailures ▸ h.failed,
    hfailures ▸ h.pressured, hfailures ▸ h.cooldown, writes_append h.writes ?_, ?_,
    flatMap_events_append h.trace⟩
  · rw [hwrite]
    exact nofun
  · rw [hes, List.append_nil]
    exact h.descriptors

/-- What a call that clears the sink counts. -/
theorem InitTo.counted {es : List SyslogEvent} {rc : ℤ} (h : InitTo n es n' v' rc) :
    Counted {} v' es 0 0 false := by
  have hreading : ∀ (interval : UInt32) (now : UInt64) (reading : Option UInt64),
      Counted {} { interval, retryFrom := now } [.reading reading] 0 0 false :=
    fun _ _ _ => ⟨rfl, rfl, rfl, .inl rfl, .inl rfl, by simp [SyslogEvent.isLink], id⟩
  cases h with
  | rejected _ => exact ⟨rfl, rfl, rfl, .inl rfl, .inl rfl, by simp, id⟩
  | noClock _ _ => exact hreading _ 0 none
  | attempted _ hconnects _ => exact (hreading _ _ _).trans hconnects.counted

/-- A call that clears the sink starts the counts anew. -/
theorem AccountInv.init {rc : ℤ} (h : AccountInv receipts trace n v) (hfd : v.fd = none)
    (hresets : r.resets = true) (hwrite : r.isWrite = false) (hto : InitTo n r.events n' v' rc) :
    AccountInv (receipts ++ [r]) (trace ++ r.events) n' v' := by
  have hcounted := hto.counted
  have hsince : sinceInit (receipts ++ [r]) = [r] := by
    rw [sinceInit_append, hresets]
    rfl
  have hlinks : links [r] = r.events.countP SyslogEvent.isLink := by simp [links]
  have hfailures : failures [r] = 0 := by simp [failures, hwrite]
  have hpressured : v'.pressured = 0 := by simpa using hcounted.pressured
  have hcooldown : v'.cooldown = 0 := by simpa using hcounted.cooldown
  have hdescriptors := h.descriptors
  rw [hfd] at hdescriptors
  refine ⟨?_, ?_, hcounted.connected rfl, ?_, ?_, ?_, writes_append h.writes ?_,
    hdescriptors.init hto, flatMap_events_append h.trace⟩
  · rw [hcounted.submitted, hcounted.settled]
    rfl
  · rw [hsince, hlinks, hcounted.attempts]
    exact UInt64.zero_add _
  · rw [hsince, hfailures]
    exact hcounted.failed
  · exact ⟨0, Nat.zero_le _, hpressured⟩
  · exact ⟨0, Nat.zero_le _, hcooldown⟩
  · rw [hwrite]
    exact nofun

/-- A counter of failed records of one kind stays below their number. -/
theorem counter_le {x x' : UInt64} {k : ℕ} {fails : Bool} (h : ∃ i ≤ k, x = UInt64.ofNat i)
    (hstep : x' = x ∨ fails ∧ x' = x + 1) :
    ∃ i ≤ k + (if fails then 1 else 0), x' = UInt64.ofNat i := by
  obtain ⟨i, hi, rfl⟩ := h
  rcases hstep with rfl | ⟨hfails, rfl⟩
  · exact ⟨i, hi.trans (Nat.le_add_right _ _), rfl⟩
  · refine ⟨i + 1, ?_, (UInt64.ofNat_add i 1).symm⟩
    rw [if_pos hfails]
    exact Nat.succ_le_succ hi

/-- A write counts its record. -/
theorem AccountInv.write (h : AccountInv receipts trace n v) (hresets : r.resets = false)
    (hwrite : r.isWrite = true) (hto : WriteTo r.packet n v r.events n' v' r.rc) :
    AccountInv (receipts ++ [r]) (trace ++ r.events) n' v' := by
  have hcounted := hto.counted
  obtain ⟨hsends, hconnect⟩ := hto.ok
  have hfailures : failures (sinceInit (receipts ++ [r])) =
      failures (sinceInit receipts) + if decide (r.rc ≠ 0) then 1 else 0 := by
    rw [sinceInit_keep hresets, failures_append, hwrite]
    rfl
  refine ⟨?_, ?_, hcounted.connected h.connected, ?_, ?_, ?_, writes_append h.writes fun _ => ?_,
    h.descriptors.write hto, flatMap_events_append h.trace⟩
  · rw [hcounted.submitted, hcounted.settled, h.records]
  · rw [sinceInit_keep hresets, links_append, UInt64.ofNat_add, hcounted.attempts, h.attempts]
  · rw [hfailures, hcounted.failed, h.failed]
    split
    · exact (UInt64.ofNat_add _ 1).symm
    · rfl
  · rw [hfailures]
    exact counter_le h.pressured hcounted.pressured
  · rw [hfailures]
    exact counter_le h.cooldown hcounted.cooldown
  · exact ⟨hconnect, hsends.length, hsends.own, hsends.retried, hsends.accepted⟩

/-- Every call of a sequence keeps the invariant. -/
theorem AccountInv.step {op : SyslogOp} {packet : List UInt8} {retryFrom : UInt64} {rc : ℤ}
    (h : AccountInv receipts trace n v) (hto : OpTo op packet n v es n' v' rc) :
    AccountInv (receipts ++ [⟨op, rc, packet, retryFrom, es⟩]) (trace ++ es) n' v' := by
  cases hto with
  | unconfigured hop =>
    subst hop
    exact h.unconfigured rfl rfl rfl
  | init hop hfd hinit =>
    subst hop
    exact h.init (r := ⟨_, rc, packet, retryFrom, es⟩) hfd rfl rfl hinit
  | write hop hwrite =>
    subst hop
    exact h.write (r := ⟨_, rc, packet, retryFrom, es⟩) rfl rfl hwrite

theorem AccountInv.accounting {w : SyslogWorld}
    (h : AccountInv receipts w.trace w.nextFd w.syslog.view) : SyslogAccounting receipts w where
  records := h.records
  connects := by
    rw [← h.attempts]
    exact (UInt64.sub_add_cancel _ _).symm
  connected := by
    have hconnected : w.syslog.metrics.connected = w.syslog.fd.isSome := h.connected
    rw [hconnected]
  failed := h.failed
  backpressure := h.pressured
  cooldown := h.cooldown
  writes := h.writes
  trace := h.trace
  closedOnce fd hopen := by
    have hlt := (h.descriptors.opened fd).mp hopen
    rw [h.descriptors.closed fd]
    by_cases hfd : w.syslog.fd = some fd
    · rw [if_neg fun hboth => hboth.2 hfd, if_pos hfd]
    · rw [if_pos ⟨hlt, hfd⟩, if_neg hfd]
  closedOwn fd hclose := by
    refine (h.descriptors.opened fd).mpr ?_
    by_contra hlt
    have hcount := h.descriptors.closed fd
    rw [if_neg fun hboth => hlt hboth.1] at hcount
    exact List.count_eq_zero.mp hcount hclose

end Invariant

/-- After every sequence of calls of the syslog sink with any outcomes, every record is accounted
for, no datagram was sent twice, and no descriptor is lost or closed twice. -/
theorem syslog_accounting (pid : ℕ) (ops : List SyslogOp) (tape rest : List Answer)
    (receipts : List SyslogReceipt) (w : SyslogWorld)
    (h : (runSyslogOps ops).run (syslogStart pid) tape = .done receipts w rest) :
    SyslogAccounting receipts w := by
  have hrule := runSyslogOps_rule (w := syslogStart pid) (I := AccountInv) ops
    (fun _ _ _ _ _ _ _ _ _ _ _ _ hinv _ hto => hinv.step hto) (AccountInv.start pid)
  have hrun := hrule.run tape
  rw [h] at hrun
  exact AccountInv.accounting hrun

/-- A configuration with all defaults. -/
def defaultSyslogConfig : SyslogConfig where
  path := none
  facility := 8
  reconnectIntervalMs := 0
  startup := 0

/-- Three records. -/
def threeRecords : List SyslogOp :=
  [.init none (some defaultSyslogConfig), .write .info (some [65]), .write .info (some [66]),
    .write .info (some [67])]

/-- The sink connects and sends the first record; the second one meets a broken association. -/
def brokenTape : List Answer :=
  [{}, {}, {}, {}, { count := 99 }, {}, { ok := false, errno := epipe }, {}, { time := ⟨5, 0⟩ }, {},
    { time := ⟨5, 0⟩ }]

/-- The third record is too early to connect again. -/
theorem syslog_accounting_cooldown :
    ∃ receipts w,
      (runSyslogOps threeRecords).run (syslogStart 7) brokenTape = .done receipts w [] ∧
      receipts.map SyslogReceipt.rc = [0, 0, -epipe, -epipe] ∧ SyslogAccounting receipts w :=
  ⟨_, _, rfl, by decide +kernel, syslog_accounting 7 threeRecords brokenTape [] _ _ rfl⟩

section Overflow

variable {w : SyslogWorld}

/-- A write without a line fails with `EINVAL`, which is no backpressure. -/
theorem run_write_none (tape : List Answer) : ∃ r w', (SyslogOp.write .info none).exec.run w tape =
    .done r w' tape ∧ w'.syslog.metrics.failedRecords = w.syslog.metrics.failedRecords + 1 ∧
    w'.syslog.metrics.backpressureRecords = w.syslog.metrics.backpressureRecords :=
  ⟨_, _, rfl, rfl, rfl⟩

/-- Any number of such writes. -/
theorem run_replicate_write_none (tape : List Answer) (n : ℕ) (ops : List SyslogOp) :
    ∃ rs w', (runSyslogOps (List.replicate n (.write .info none) ++ ops)).run w tape =
        ((runSyslogOps ops).run w' tape).andThen (fun rs' w'' rest => .done (rs ++ rs') w'' rest) ∧
      w'.syslog.metrics.failedRecords = w.syslog.metrics.failedRecords + UInt64.ofNat n ∧
      w'.syslog.metrics.backpressureRecords = w.syslog.metrics.backpressureRecords := by
  induction n generalizing w with
  | zero =>
    refine ⟨[], w, ?_, by simp, rfl⟩
    rw [List.replicate_zero, List.nil_append]
    cases (runSyslogOps ops).run w tape <;> rfl
  | succ n ih =>
    obtain ⟨r, w₁, hrun, hfailed, hpressured⟩ := run_write_none (w := w) tape
    obtain ⟨rs, w₂, hrest, hfailed₂, hpressured₂⟩ := ih (w := w₁)
    refine ⟨r.toList ++ rs, w₂, ?_, ?_, hpressured₂.trans hpressured⟩
    · rw [List.replicate_succ, List.cons_append, runSyslogOps, run_bind, hrun]
      show (runSyslogOps _ >>= _).run w₁ tape = _
      rw [run_bind, hrest, Outcome.andThen_assoc]
      simp only [List.append_assoc]
      rfl
    · rw [hfailed₂, hfailed, UInt64.ofNat_add, UInt64.add_assoc, UInt64.add_comm 1]
      rfl

/-- Many failed records, the last one for backpressure. -/
def overflowOps (n : ℕ) : List SyslogOp :=
  .init none (some defaultSyslogConfig) ::
    (List.replicate n (.write .info none) ++ [.write .info (some [])])

/-- The clock, the socket and the connection are fine, and the formatter has no memory. -/
def overflowTape : List Answer := [{}, {}, {}, { ok := false, errno := enomem }]

theorem run_overflow_start : ∃ r w', (SyslogOp.init none (some defaultSyslogConfig)).exec.run
      (syslogStart 7) overflowTape = .done r w' [{ ok := false, errno := enomem }] ∧
    w'.syslog.metrics.failedRecords = 0 ∧ w'.syslog.metrics.backpressureRecords = 0 :=
  ⟨_, _, rfl, rfl, rfl⟩

theorem run_overflow_last : ∃ r w', (runSyslogOps [.write .info (some [])]).run w
      [{ ok := false, errno := enomem }] = .done r w' [] ∧
    w'.syslog.metrics.failedRecords = w.syslog.metrics.failedRecords + 1 ∧
    w'.syslog.metrics.backpressureRecords = w.syslog.metrics.backpressureRecords + 1 :=
  ⟨_, _, rfl, rfl, rfl⟩

theorem run_overflow (n : ℕ) : ∃ receipts w,
    (runSyslogOps (overflowOps n)).run (syslogStart 7) overflowTape = .done receipts w [] ∧
      w.syslog.metrics.failedRecords = UInt64.ofNat n + 1 ∧
      w.syslog.metrics.backpressureRecords = 1 := by
  obtain ⟨r, w₁, hrun, hfailed, hpressured⟩ := run_overflow_start
  obtain ⟨rs, w₂, hrun₂, hfailed₂, hpressured₂⟩ :=
    run_replicate_write_none (w := w₁) [{ ok := false, errno := enomem }] n
      [.write .info (some [])]
  obtain ⟨r', w₃, hrun₃, hfailed₃, hpressured₃⟩ := run_overflow_last (w := w₂)
  refine ⟨r.toList ++ (rs ++ r'), w₃, ?_, ?_, ?_⟩
  · rw [overflowOps, runSyslogOps, run_bind, hrun]
    show (runSyslogOps _ >>= _).run w₁ _ = _
    rw [run_bind, hrun₂, hrun₃]
    rfl
  · rw [hfailed₃, hfailed₂, hfailed, UInt64.zero_add]
  · rw [hpressured₃, hpressured₂, hpressured]
    rfl

/-- The counter of failed records wraps before that of the records refused for backpressure. -/
theorem syslog_backpressure_exceeds_failed :
    ∃ receipts w, (runSyslogOps (overflowOps (2 ^ 64 - 1))).run (syslogStart 7) overflowTape =
        .done receipts w [] ∧
      w.syslog.metrics.failedRecords < w.syslog.metrics.backpressureRecords := by
  obtain ⟨receipts, w, hrun, hfailed, hpressured⟩ := run_overflow (2 ^ 64 - 1)
  refine ⟨receipts, w, hrun, ?_⟩
  rw [hfailed, hpressured]
  decide

end Overflow

end CLogger
