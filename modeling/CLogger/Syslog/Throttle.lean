import CLogger.Lib.EventTrace
import CLogger.Syslog.Accounting

/-!
# The reconnect throttle of the syslog sink

For every run of `logger_syslog_init` followed by calls of `logger_syslog_write`: as long as the
clock does not go back, two attempts to connect are based on readings that are at least the
reconnect interval apart, and an attempt after a lost connection waits that long from the first
reading after the loss.

* `ReconnectThrottle`: the statement about a trace.
* `Throttled`: what the start of the cooldown and the pending flag say about the trace so far.
* `syslog_reconnect_throttle`: the theorem about all runs.
-/

namespace CLogger

open TapeProgram EventTrace

section Statement

/-- The value of an event that is a successful clock reading. -/
def SyslogEvent.value? : SyslogEvent → Option ℕ
  | .reading (some now) => some now.toNat
  | _ => none

/-- The successful clock readings among the events, in milliseconds. -/
def readingsOf (es : List SyslogEvent) : List ℕ := es.filterMap SyslogEvent.value?

/-- Attempts to connect keep the interval, from each other and from the loss of a connection. An
attempt is based on the last reading before it. -/
structure ReconnectThrottle (interval : ℕ) (trace : List SyslogEvent) : Prop where
  attempts : ∀ before between after,
    trace = before ++ .attempt :: (between ++ .attempt :: after) →
    ∃ a b, (readingsOf before).getLast? = some a ∧
      (readingsOf (before ++ .attempt :: between)).getLast? = some b ∧ a + interval ≤ b
  /-- The reading taken at the loss is the first one after it, if it succeeded. -/
  drops : ∀ before between after,
    trace = before ++ .drop :: (between ++ .attempt :: after) →
    ∃ r b, (readingsOf between).head? = some r ∧ (readingsOf between).getLast? = some b ∧
      r + interval ≤ b

/-- The write takes a reading that lies before the start of the cooldown. -/
def SyslogReceipt.stale (r : SyslogReceipt) : Prop :=
  ∃ now, (readingsOf r.events).head? = some now ∧ now < r.retryFrom.toNat

end Statement

section Arithmetic

/-- The conversion to milliseconds is exact for every `timespec` that it accepts. -/
theorem monotonicMsValue_toNat {a : Answer} (hsec : a.time.sec < 2 ^ 63) {v : UInt64}
    (h : monotonicMsValue a = .ok v) :
    (v.toNat : ℤ) = a.time.sec * 1000 + a.time.nsec / 1000000 := by
  simp only [monotonicMsValue] at h
  split_ifs at h with hok hvalid hfits
  simp only [not_or, ge_iff_le, not_lt, not_le] at hvalid
  obtain ⟨hsec₀, hnsec₀, hnsec⟩ := hvalid
  have hsub : (UInt64.ofNat a.time.nsec.toNat / 1000000).toNat = a.time.nsec.toNat / 1000000 := by
    rw [UInt64.toNat_div, UInt64.toNat_ofNat_of_lt' (by rw [UInt64.size]; omega)]
    rfl
  have hsecs : (UInt64.ofNat a.time.sec.toNat).toNat = a.time.sec.toNat :=
    UInt64.toNat_ofNat_of_lt' (by rw [UInt64.size]; omega)
  generalize UInt64.ofNat a.time.nsec.toNat / 1000000 = sub at h hfits hsub
  have hsmall : sub.toNat < 1000 := by omega
  -- the guard in the source is what keeps the sum below `2 ^ 64`
  have hbound : a.time.sec.toNat ≤ (2 ^ 64 - 1 - sub.toNat) / 1000 := by
    have hle := UInt64.le_iff_toNat_le.mp (UInt64.not_lt.mp hfits)
    rw [hsecs, UInt64.toNat_div, UInt64.toNat_sub_of_le] at hle
    · exact hle
    · rw [UInt64.le_iff_toNat_le]
      exact Nat.le_of_lt_succ sub.toNat_lt
  rw [← Except.ok.inj h, UInt64.toNat_add, UInt64.toNat_mul, hsecs]
  have hmul : (1000 : UInt64).toNat = 1000 := rfl
  rw [hmul]
  omega

/-- The difference does not wrap. -/
theorem monotonicElapsed_iff {now since : UInt64} {interval : UInt32} :
    monotonicElapsed now since interval ↔ since.toNat + interval.toNat ≤ now.toNat := by
  rw [monotonicElapsed, Bool.and_eq_true, decide_eq_true_iff, decide_eq_true_iff,
    UInt64.le_iff_toNat_le, UInt64.le_iff_toNat_le, UInt32.toNat_toUInt64]
  constructor
  · rintro ⟨hle, hinterval⟩
    rw [UInt64.toNat_sub_of_le _ _ (UInt64.le_iff_toNat_le.mpr hle)] at hinterval
    omega
  · intro h
    have hle : since.toNat ≤ now.toNat := by omega
    refine ⟨hle, ?_⟩
    rw [UInt64.toNat_sub_of_le _ _ (UInt64.le_iff_toNat_le.mpr hle)]
    omega

end Arithmetic

section Traces

variable {trace before after es : List SyslogEvent} {e x : SyslogEvent}

@[simp]
theorem readingsOf_append (es es' : List SyslogEvent) :
    readingsOf (es ++ es') = readingsOf es ++ readingsOf es' :=
  List.filterMap_append

/-- A reading after an event is the last reading of the trace. -/
theorem getLast?_readingsOf {r : ℕ} (h : (readingsOf after).head? = some r) :
    (readingsOf (before ++ x :: after)).getLast? = (readingsOf after).getLast? := by
  have hne : readingsOf after ≠ [] := by
    intro hnil
    rw [hnil] at h
    exact nomatch h
  rw [readingsOf_append, ← List.singleton_append, readingsOf_append, ← List.append_assoc,
    List.getLast?_append_of_ne_nil _ hne]

end Traces

section Invariant

/-- What the start `since` of the cooldown and the pending flag say about the trace: every attempt
was based on a reading no later than `since`, and so was the first reading after a loss, unless
there is none yet and the flag is set. -/
structure Throttled (interval : ℕ) (trace : List SyslogEvent) (since : ℕ) (pending : Bool) :
    Prop where
  throttle : ReconnectThrottle interval trace
  late : ∀ now, (∀ r ∈ readingsOf trace, r ≤ now) → since ≤ now
  based : ∀ before after, trace = before ++ .attempt :: after →
    ∃ a, (readingsOf before).getLast? = some a ∧ a ≤ since
  lost : ∀ before after, trace = before ++ .drop :: after →
    ((readingsOf after).head? = none ∧ pending) ∨
      ∃ r, (readingsOf after).head? = some r ∧ r ≤ since

variable {interval since : ℕ} {trace : List SyslogEvent} {pending : Bool}

theorem throttled_nil : Throttled interval [] 0 false where
  throttle := ⟨by simp, by simp⟩
  late _ _ := Nat.zero_le _
  based := by simp
  lost := by simp

/-- An event that is no attempt leaves the distances between attempts as they are. -/
theorem ReconnectThrottle.snoc {e : SyslogEvent} (h : ReconnectThrottle interval trace)
    (he : e ≠ .attempt) : ReconnectThrottle interval (trace ++ [e]) where
  attempts before between after hsplit := by
    have hassoc : trace ++ [e] = (before ++ .attempt :: between) ++ .attempt :: after := by
      rw [hsplit]
      simp
    obtain ⟨after', rfl, htrace⟩ := snoc_eq_split_of_ne hassoc he
    exact h.attempts before between after' (by rw [htrace]; simp)
  drops before between after hsplit := by
    have hassoc : trace ++ [e] = (before ++ .drop :: between) ++ .attempt :: after := by
      rw [hsplit]
      simp
    obtain ⟨after', rfl, htrace⟩ := snoc_eq_split_of_ne hassoc he
    exact h.drops before between after' (by rw [htrace]; simp)

/-- An event that is no reading, attempt or loss changes nothing. -/
theorem Throttled.neutral {e : SyslogEvent} (h : Throttled interval trace since pending)
    (he : e.value? = none) (hattempt : e ≠ .attempt) (hdrop : e ≠ .drop) :
    Throttled interval (trace ++ [e]) since pending := by
  have hreadings : ∀ es, readingsOf (es ++ [e]) = readingsOf es := by
    intro es
    rw [readingsOf_append]
    simp [readingsOf, he]
  refine ⟨h.throttle.snoc hattempt, ?_, ?_, ?_⟩
  · rw [hreadings]
    exact h.late
  · intro before after hsplit
    obtain ⟨after', rfl, htrace⟩ := snoc_eq_split_of_ne hsplit hattempt
    exact h.based before after' htrace
  · intro before after hsplit
    obtain ⟨after', rfl, htrace⟩ := snoc_eq_split_of_ne hsplit hdrop
    rw [hreadings]
    exact h.lost before after' htrace

/-- A loss waits for a reading. -/
theorem Throttled.drop (h : Throttled interval trace since pending) :
    Throttled interval (trace ++ [.drop]) since true := by
  have hreadings : ∀ es, readingsOf (es ++ [SyslogEvent.drop]) = readingsOf es := by
    intro es
    rw [readingsOf_append]
    simp [readingsOf, SyslogEvent.value?]
  refine ⟨h.throttle.snoc nofun, ?_, ?_, ?_⟩
  · rw [hreadings]
    exact h.late
  · intro before after hsplit
    obtain ⟨after', rfl, htrace⟩ := snoc_eq_split_of_ne hsplit nofun
    exact h.based before after' htrace
  · intro before after hsplit
    rcases snoc_eq_split hsplit with ⟨rfl, -, -⟩ | ⟨after', rfl, htrace⟩
    · exact .inl ⟨rfl, rfl⟩
    · rw [hreadings]
      rcases h.lost before after' htrace with ⟨hnone, -⟩ | hsome
      · exact .inl ⟨hnone, rfl⟩
      · exact .inr hsome

/-- A reading from which the cooldown starts anew. -/
theorem Throttled.rearm {now : UInt64} (h : Throttled interval trace since pending)
    (hsorted : (readingsOf (trace ++ [.reading (some now)])).Pairwise (· ≤ ·)) (p : Bool) :
    Throttled interval (trace ++ [.reading (some now)]) now.toNat p := by
  have hreadings : ∀ es, readingsOf (es ++ [.reading (some now)]) = readingsOf es ++ [now.toNat] :=
    fun es => readingsOf_append es _
  rw [hreadings, List.pairwise_append] at hsorted
  have hsince : since ≤ now.toNat := by
    refine h.late _ fun r hr => ?_
    exact hsorted.2.2 r hr _ (List.mem_singleton_self _)
  refine ⟨h.throttle.snoc nofun, ?_, ?_, ?_⟩
  · intro later hlater
    -- a time that no reading exceeds is not before this one
    refine hlater _ ?_
    rw [hreadings]
    simp
  · intro before after hsplit
    obtain ⟨after', rfl, htrace⟩ := snoc_eq_split_of_ne hsplit nofun
    obtain ⟨a, hlast, ha⟩ := h.based before after' htrace
    exact ⟨a, hlast, ha.trans hsince⟩
  · intro before after hsplit
    obtain ⟨after', rfl, htrace⟩ := snoc_eq_split_of_ne hsplit nofun
    right
    rw [hreadings]
    rcases h.lost before after' htrace with ⟨hnone, -⟩ | ⟨r, hsome, hr⟩
    · rw [List.head?_eq_none_iff.mp hnone]
      -- the loss had no reading behind it, so this one is its first
      exact ⟨_, rfl, le_rfl⟩
    · refine ⟨r, ?_, hr.trans hsince⟩
      rw [List.head?_append, hsome]
      rfl

/-- A reading while nothing waits for one. -/
theorem Throttled.read {now : UInt64} (h : Throttled interval trace since false) :
    Throttled interval (trace ++ [.reading (some now)]) since false := by
  have hreadings : ∀ es, readingsOf (es ++ [.reading (some now)]) = readingsOf es ++ [now.toNat] :=
    fun es => readingsOf_append es _
  refine ⟨h.throttle.snoc nofun, ?_, ?_, ?_⟩
  · intro later hlater
    rw [hreadings] at hlater
    exact h.late later fun r hr => hlater r (List.mem_append_left _ hr)
  · intro before after hsplit
    obtain ⟨after', rfl, htrace⟩ := snoc_eq_split_of_ne hsplit nofun
    exact h.based before after' htrace
  · intro before after hsplit
    obtain ⟨after', rfl, htrace⟩ := snoc_eq_split_of_ne hsplit nofun
    -- nothing waits for a reading, so the loss already has its first one
    rcases h.lost before after' htrace with ⟨-, hfalse⟩ | ⟨r, hsome, hr⟩
    · exact nomatch hfalse
    · right
      refine ⟨r, ?_, hr⟩
      rw [hreadings, List.head?_append, hsome]
      rfl

/-- An attempt after the cooldown, or the first one. -/
theorem Throttled.attempt {now : ℕ} (h : Throttled interval trace since false)
    (hlast : (readingsOf trace).getLast? = some now) (hsince : since ≤ now)
    (hcool : since + interval ≤ now ∨ .attempt ∉ trace ∧ .drop ∉ trace) :
    Throttled interval (trace ++ [.attempt]) now false := by
  have hreadings : ∀ es, readingsOf (es ++ [SyslogEvent.attempt]) = readingsOf es := by
    intro es
    rw [readingsOf_append]
    simp [readingsOf, SyslogEvent.value?]
  have hlost : ∀ before after, trace = before ++ .drop :: after →
      ∃ r, (readingsOf after).head? = some r ∧ r ≤ since := by
    intro before after htrace
    rcases h.lost before after htrace with ⟨-, hfalse⟩ | hsome
    · exact nomatch hfalse
    · exact hsome
  -- the time of the new attempt is the last reading, which the cooldown bounds
  refine ⟨⟨?_, ?_⟩, ?_, ?_, ?_⟩
  · intro before between after hsplit
    have hassoc : trace ++ [.attempt] = (before ++ .attempt :: between) ++ .attempt :: after := by
      rw [hsplit]
      simp
    rcases snoc_eq_split hassoc with ⟨-, -, htrace⟩ | ⟨after', rfl, htrace⟩
    · obtain ⟨a, ha, hle⟩ := h.based before between htrace
      refine ⟨a, now, ha, htrace ▸ hlast, ?_⟩
      rcases hcool with hcool | ⟨hnone, -⟩
      · omega
      · exact absurd (htrace ▸ by simp) hnone
    · exact h.throttle.attempts before between after' (by rw [htrace]; simp)
  · intro before between after hsplit
    -- the last loss lies before a reading that the cooldown starts from
    have hassoc : trace ++ [.attempt] = (before ++ .drop :: between) ++ .attempt :: after := by
      rw [hsplit]
      simp
    rcases snoc_eq_split hassoc with ⟨-, -, htrace⟩ | ⟨after', rfl, htrace⟩
    · obtain ⟨r, hr, hle⟩ := hlost before between htrace
      rw [htrace, getLast?_readingsOf hr] at hlast
      refine ⟨r, now, hr, hlast, ?_⟩
      rcases hcool with hcool | ⟨-, hnone⟩
      · omega
      · exact absurd (htrace ▸ by simp) hnone
    · exact h.throttle.drops before between after' (by rw [htrace]; simp)
  · intro later hlater
    rw [hreadings] at hlater
    exact hlater now (List.mem_of_getLast? hlast)
  · intro before after hsplit
    -- the new attempt is its own base
    rcases snoc_eq_split hsplit with ⟨-, -, rfl⟩ | ⟨after', rfl, htrace⟩
    · exact ⟨now, hlast, le_rfl⟩
    · obtain ⟨a, ha, hle⟩ := h.based before after' htrace
      exact ⟨a, ha, hle.trans hsince⟩
  · intro before after hsplit
    obtain ⟨after', rfl, htrace⟩ := snoc_eq_split_of_ne hsplit nofun
    obtain ⟨r, hr, hle⟩ := hlost before after' htrace
    right
    rw [hreadings]
    exact ⟨r, hr, hle.trans hsince⟩

end Invariant

section Calls

variable {trace es : List SyslogEvent} {v v' : SyslogView} {packet : List UInt8} {n n' : ℕ} {rc : ℤ}

/-- The successful readings do not decrease. -/
def Ticking (trace : List SyslogEvent) : Prop := (readingsOf trace).Pairwise (· ≤ ·)

theorem Ticking.of_append (h : Ticking (trace ++ es)) : Ticking trace := by
  rw [Ticking, readingsOf_append] at h
  exact (List.pairwise_append.mp h).1

/-- What the fields of the sink say about the trace. -/
def ThrottledView (trace : List SyslogEvent) (v : SyslogView) : Prop :=
  Throttled v.interval.toNat trace v.retryFrom.toNat v.pending

theorem Throttled.sends {interval since k : ℕ} {pending : Bool} {e : ℤ}
    (h : Throttled interval trace since pending) (hsends : SendsTo packet k es e) :
    Throttled interval (trace ++ es) since pending := by
  induction hsends generalizing trace with
  | exhausted => rwa [List.append_nil]
  | full => exact h.neutral rfl nofun nofun
  | short => exact h.neutral rfl nofun nofun
  | error _ _ => exact h.neutral rfl nofun nofun
  | retry _ ih =>
    rw [← List.singleton_append, ← List.append_assoc]
    exact ih (h.neutral rfl nofun nofun)

/-- After an attempt only events of the socket follow. -/
theorem Throttled.connects {interval since fd : ℕ} {pending : Bool}
    (h : Throttled interval (trace ++ [.attempt]) since pending)
    (hto : ConnectsTo fd v es n v' rc) : Throttled interval (trace ++ es) since pending := by
  cases hto with
  | noSocket _ =>
    have hdone := h.neutral (e := .socket none) rfl nofun nofun
    simpa using hdone
  | refused _ =>
    have hdone := ((h.neutral (e := .socket (some fd)) rfl nofun nofun).neutral
      (e := .connect fd false) rfl nofun nofun).neutral (e := .close fd) rfl nofun nofun
    simpa using hdone
  | linked =>
    have hdone := (h.neutral (e := .socket (some fd)) rfl nofun nofun).neutral
      (e := .connect fd true) rfl nofun nofun
    simpa using hdone

/-- An attempt to connect leaves the cooldown as it is. -/
theorem ConnectsTo.same {fd : ℕ} (h : ConnectsTo fd v es n v' rc) :
    v'.interval = v.interval ∧ v'.retryFrom = v.retryFrom ∧ v'.pending = v.pending := by
  cases h <;> exact ⟨rfl, rfl, rfl⟩

theorem RecordTo.interval {fd : ℕ} (h : RecordTo packet fd v es v' rc) :
    v'.interval = v.interval := by
  cases h <;> rfl

theorem SendsTo.no_attempt {k : ℕ} {e : ℤ} (h : SendsTo packet k es e) : .attempt ∉ es := by
  induction h with
  | exhausted => exact List.not_mem_nil
  | full => simp
  | short => simp
  | error _ _ => simp
  | retry _ ih => simpa using ih

theorem RecordTo.no_attempt {fd : ℕ} (h : RecordTo packet fd v es v' rc) : .attempt ∉ es := by
  cases h with
  | sent hsends => exact hsends.no_attempt
  | failed hsends _ => exact hsends.no_attempt
  | dropped hsends _ => simpa using hsends.no_attempt

theorem ThrottledView.record {fd : ℕ} (h : ThrottledView trace v)
    (hto : RecordTo packet fd v es v' rc) (hticking : Ticking (trace ++ es)) :
    ThrottledView (trace ++ es) v' := by
  cases hto with
  | sent hsends => exact Throttled.sends h hsends
  | failed hsends _ => exact Throttled.sends h hsends
  | @dropped es e reading hsends _ =>
    have hclosed := (Throttled.sends h hsends).drop.neutral (e := .close fd) rfl nofun nofun
    have hsplit : trace ++ (es ++ [.drop, .close fd, .reading reading]) =
        trace ++ es ++ [.drop] ++ [.close fd] ++ [.reading reading] := by simp
    rw [hsplit] at hticking ⊢
    cases reading with
    | none =>
      have hdone := hclosed.neutral (e := .reading none) rfl nofun nofun
      rw [ThrottledView]
      simpa [SyslogView.fail] using hdone
    | some now => exact hclosed.rearm hticking _

/-- The reading at which a write without a descriptor looks at the cooldown. -/
theorem ThrottledView.rearm {now : UInt64} (h : ThrottledView trace v)
    (hticking : Ticking (trace ++ [.reading (some now)])) :
    Throttled v.interval.toNat (trace ++ [.reading (some now)])
    (v.rearm now).retryFrom.toNat false ∧ (v.rearm now).retryFrom.toNat ≤ now.toNat := by
  by_cases hstale : v.pending ∨ monotonicBefore now v.retryFrom
  · have hsince : (v.rearm now).retryFrom = now := if_pos hstale
    rw [hsince]
    exact ⟨Throttled.rearm h hticking false, le_rfl⟩
  · have hsince : (v.rearm now).retryFrom = v.retryFrom := if_neg hstale
    rw [not_or, Bool.not_eq_true] at hstale
    rw [ThrottledView, hstale.1] at h
    rw [hsince]
    refine ⟨h.read, ?_⟩
    have hbefore : ¬ now < v.retryFrom := by simpa [monotonicBefore] using hstale.2
    exact UInt64.le_iff_toNat_le.mp (UInt64.not_lt.mp hbefore)

/-- The attempt of a write without a descriptor. -/
theorem ThrottledView.renew {now : UInt64} (h : ThrottledView trace v)
    (hticking : Ticking (trace ++ [.reading (some now)]))
    (helapsed : monotonicElapsed now (v.rearm now).retryFrom v.interval)
    (hto : ConnectsTo n { v.submit.rearm now with retryFrom := now } es n' v' rc) :
    ThrottledView (trace ++ .reading (some now) :: es) v' := by
  obtain ⟨hread, hle⟩ := h.rearm hticking
  have hlast : (readingsOf (trace ++ [.reading (some now)])).getLast? = some now.toNat := by
    rw [readingsOf_append]
    exact List.getLast?_concat
  have hattempt := hread.attempt hlast hle (.inl (monotonicElapsed_iff.mp helapsed))
  have hdone := hattempt.connects hto
  obtain ⟨hinterval, hretry, hpending⟩ := hto.same
  rw [ThrottledView, hinterval, hretry, hpending]
  rwa [List.append_assoc, List.singleton_append] at hdone

theorem ThrottledView.write (h : ThrottledView trace v) (hto : WriteTo packet n v es n' v' rc)
    (hticking : Ticking (trace ++ es)) : ThrottledView (trace ++ es) v' := by
  cases hto with
  | rejected _ => rwa [List.append_nil]
  | linked _ hrecord => exact ThrottledView.record (v := v.submit) h hrecord hticking
  | noClock _ _ => exact Throttled.neutral h rfl nofun nofun
  | cooling _ _ _ => exact (h.rearm hticking).1
  | @refused now e es v' _ _ helapsed _ hconnects =>
    have hread : Ticking (trace ++ [.reading (some now)]) := by
      rw [← List.singleton_append, ← List.append_assoc] at hticking
      exact hticking.of_append
    have hrenewed := h.renew hread helapsed hconnects
    exact hrenewed
  | @renewed now f _ es es' v' _ _ _ helapsed hconnects _ hrecord =>
    have hsplit : trace ++ (.reading (some now) :: es ++ es') =
        trace ++ .reading (some now) :: es ++ es' := by simp
    rw [hsplit] at hticking ⊢
    have hread : Ticking (trace ++ [.reading (some now)]) := by
      have hconnected := hticking.of_append
      rw [← List.singleton_append, ← List.append_assoc] at hconnected
      exact hconnected.of_append
    exact (h.renew hread helapsed hconnects).record hrecord hticking

theorem ThrottledView.init (hto : InitTo n es n' v' rc) : ThrottledView es v' := by
  cases hto with
  | rejected _ => exact throttled_nil
  | noClock _ _ => exact throttled_nil.neutral (e := .reading none) rfl nofun nofun
  | @attempted interval now es _ _ _ _ _ hconnects _ =>
    have hread : Throttled interval.toNat [.reading (some now)] now.toNat false :=
      throttled_nil.rearm (List.pairwise_singleton _ _) false
    have hattempt := hread.attempt rfl le_rfl (.inr ⟨by simp, by simp⟩)
    have hdone := hattempt.connects hconnects
    obtain ⟨hinterval, hretry, hpending⟩ := hconnects.same
    rw [ThrottledView, hinterval, hretry, hpending]
    exact hdone

theorem WriteTo.interval (h : WriteTo packet n v es n' v' rc) : v'.interval = v.interval := by
  cases h with
  | rejected _ => rfl
  | linked _ hrecord => exact hrecord.interval
  | noClock _ _ => rfl
  | cooling _ _ _ => rfl
  | refused _ _ _ hconnects => exact hconnects.same.1
  | renewed _ _ hconnects _ hrecord => exact hrecord.interval.trans hconnects.same.1

/-- Only a successful configuration has an interval to wait for. -/
theorem InitTo.interval_pos (h : InitTo n es n' v' rc) (hrc : rc = 0) : 0 < v'.interval.toNat := by
  cases h with
  | rejected he => exact absurd hrc (neg_ne_zero.mpr he)
  | noClock hpos _ => exact UInt32.lt_iff_toNat_lt.mp hpos
  | attempted hpos hconnects _ =>
    rw [hconnects.same.1]
    exact UInt32.lt_iff_toNat_lt.mp hpos

/-- A write whose reading lies before the start of the cooldown does not connect. -/
theorem WriteTo.no_attempt (h : WriteTo packet n v es n' v' rc) (hpos : 0 < v.interval.toNat)
    {now : ℕ} (hhead : (readingsOf es).head? = some now) (hstale : now < v.retryFrom.toNat) :
    .attempt ∉ es := by
  -- the reading restarts the cooldown, which has then not elapsed
  have hcold : ∀ {now' : UInt64}, now'.toNat = now →
      ¬ monotonicElapsed now' (v.rearm now').retryFrom v.interval := by
    rintro now' hnow helapsed
    have hbefore : v.pending ∨ monotonicBefore now' v.retryFrom := by
      right
      rw [monotonicBefore, decide_eq_true_iff, UInt64.lt_iff_toNat_lt, hnow]
      exact hstale
    have hsince : (v.rearm now').retryFrom = now' := if_pos hbefore
    rw [hsince, monotonicElapsed_iff] at helapsed
    omega
  cases h with
  | rejected _ => exact List.not_mem_nil
  | linked _ hrecord => exact hrecord.no_attempt
  | noClock _ _ => simp
  | cooling _ _ _ => simp
  | refused _ helapsed _ _ => exact absurd helapsed (hcold (Option.some.inj hhead))
  | renewed _ helapsed _ _ _ => exact absurd helapsed (hcold (Option.some.inj hhead))

end Calls

section Runs

/-- The invariant of the calls that follow `logger_syslog_init`. -/
structure ThrottleInv (interval : UInt32) (receipts : List SyslogReceipt)
    (trace : List SyslogEvent) (v : SyslogView) : Prop where
  same : v.interval = interval
  throttled : Ticking trace → ThrottledView trace v
  stale : ∀ r ∈ receipts, r.isWrite → r.stale → 0 < interval.toNat → .attempt ∉ r.events
  accepted : ∀ r ∈ receipts, r.isWrite = false → r.rc = 0 → 0 < interval.toNat

variable {interval : UInt32} {receipts : List SyslogReceipt} {trace es : List SyslogEvent}
  {n n' : ℕ} {v v' : SyslogView} {packet : List UInt8} {rc : ℤ}

/-- Every write keeps the invariant. -/
theorem ThrottleInv.write {level : LoggerLevel} {line : Option (List UInt8)}
    (h : ThrottleInv interval receipts trace v) (hto : WriteTo packet n v es n' v' rc) :
    ThrottleInv interval (receipts ++ [⟨.write level line, rc, packet, v.retryFrom, es⟩])
      (trace ++ es) v' where
  same := hto.interval.trans h.same
  throttled hticking := (h.throttled hticking.of_append).write hto hticking
  stale r hr := by
    rcases List.mem_append.mp hr with hr | hr
    · exact h.stale r hr
    · obtain rfl := List.mem_singleton.mp hr
      rintro - ⟨now, hhead, hstale⟩ hpos
      exact hto.no_attempt (h.same ▸ hpos) hhead hstale
  accepted r hr hwrite := by
    rcases List.mem_append.mp hr with hr | hr
    · exact h.accepted r hr hwrite
    · obtain rfl := List.mem_singleton.mp hr
      exact nomatch hwrite

/-- The call of `logger_syslog_init` establishes it. -/
theorem InitTo.throttleInv {op : SyslogOp} {retryFrom : UInt64}
    (hop : SyslogReceipt.isWrite ⟨op, rc, packet, retryFrom, es⟩ = false)
    (hto : InitTo n es n' v' rc) :
    ThrottleInv v'.interval [⟨op, rc, packet, retryFrom, es⟩] es v' where
  same := rfl
  throttled _ := ThrottledView.init hto
  stale r hr hwrite := by
    rw [List.mem_singleton.mp hr, hop] at hwrite
    exact nomatch hwrite
  accepted r hr _ hrc := by
    rw [List.mem_singleton.mp hr] at hrc
    exact hto.interval_pos hrc

/-- The run of `logger_syslog_init` and of any number of writes. -/
def initAndWrites (ident : Option CString) (config : SyslogConfig)
    (records : List (LoggerLevel × Option (List UInt8))) : List SyslogOp :=
  .init ident (some config) :: records.map fun r => .write r.1 r.2

theorem initAndWrites_spec (pid : ℕ) (ident : Option CString) (config : SyslogConfig)
    (records : List (LoggerLevel × Option (List UInt8))) :
    wp (fun _ => True) (runSyslogOps (initAndWrites ident config records))
      (fun receipts w => ThrottleInv w.syslog.reconnectIntervalMs receipts w.trace w.syslog.view)
      (syslogStart pid) := by
  have hfirst := exec_effect (w := syslogStart pid) (.init ident (some config))
  refine wp_bind (wp_mono hfirst ?_)
  rintro r w₁ ⟨es, htrace, hr⟩
  -- the invariant after the first call
  obtain ⟨interval, hinv⟩ :
      ∃ interval, ThrottleInv interval r.toList w₁.trace w₁.syslog.view := by
    rw [htrace]
    rcases hr with ⟨rfl, rfl, -, hv⟩ | ⟨receipt, rfl, hop, rfl, -, hto⟩
    · refine ⟨0, ?_⟩
      rw [hv]
      exact ⟨rfl, fun _ => throttled_nil, nofun, nofun⟩
    · obtain ⟨op, rc, packet, retryFrom, events⟩ := receipt
      simp only at hop
      subst hop
      generalize (syslogStart pid).nextFd = n, w₁.nextFd = n', w₁.syslog.view = v' at hto
      cases hto with
      | unconfigured hop => exact nomatch hop
      | init _ _ hinit => exact ⟨_, hinit.throttleInv rfl⟩
      | write hop _ => exact nomatch hop
  have hrest := runSyslogOps_rule (w := w₁)
    (I := fun receipts trace _ v => ThrottleInv interval receipts trace v)
    (records.map fun r => .write r.1 r.2) ?_ hinv
  -- the interval is a field that no call but the first writes
  · refine wp_bind (wp_mono hrest ?_)
    intro receipts w₂ h₂
    have hinterval : w₂.syslog.reconnectIntervalMs = interval := h₂.same
    rw [← hinterval] at h₂
    exact wp_pure h₂
  · rintro receipts trace n v op packet _ es n' v' rc hop h rfl hto
    obtain ⟨record, -, rfl⟩ := List.mem_map.mp hop
    cases hto with
    | unconfigured hop => exact nomatch hop
    | init hop _ _ => exact nomatch hop
    | write _ hwrite => exact h.write hwrite

/-- Every run of `logger_syslog_init` and any number of writes keeps the reconnect interval while
the clock does not go back; a reading before the start of the cooldown never leads to an attempt,
whatever the clock does; and no arithmetic on the clock wraps. -/
theorem syslog_reconnect_throttle (pid : ℕ) (ident : Option CString) (config : SyslogConfig)
    (records : List (LoggerLevel × Option (List UInt8))) (tape rest : List Answer)
    (receipts : List SyslogReceipt) (w : SyslogWorld)
    (h : (runSyslogOps (initAndWrites ident config records)).run (syslogStart pid) tape =
      .done receipts w rest) :
    (Ticking w.trace → ReconnectThrottle w.syslog.reconnectIntervalMs.toNat w.trace) ∧
    (∀ r ∈ receipts, r.isWrite → r.stale → 0 < w.syslog.reconnectIntervalMs.toNat →
      .attempt ∉ r.events) ∧
    (∀ r ∈ receipts, r.isWrite = false → r.rc = 0 → 0 < w.syslog.reconnectIntervalMs.toNat) ∧
    (∀ a : Answer, a.time.sec < 2 ^ 63 → ∀ v, monotonicMsValue a = .ok v →
      (v.toNat : ℤ) = a.time.sec * 1000 + a.time.nsec / 1000000) ∧
    ∀ now since interval, monotonicElapsed now since interval ↔
      since.toNat + interval.toNat ≤ now.toNat := by
  have hrun := (initAndWrites_spec pid ident config records).run tape
  rw [h] at hrun
  have hinv : ThrottleInv w.syslog.reconnectIntervalMs receipts w.trace w.syslog.view := hrun
  refine ⟨fun hticking => (hinv.throttled hticking).throttle, hinv.stale, hinv.accepted, ?_, ?_⟩
  · exact fun a hsec v hv => monotonicMsValue_toNat hsec hv
  · exact fun now since interval => monotonicElapsed_iff

/-- The sink connects at 0, loses the connection at 5 s, is too early at 5.5 s and connects at 6
s. -/
def reconnectTape : List Answer :=
  [{}, {}, {}, {}, { ok := false, errno := epipe }, {}, { time := ⟨5, 0⟩ }, {},
    { time := ⟨5, 500000000⟩ }, {}, { time := ⟨6, 0⟩ }, {}, {}, { count := 99 }]

theorem syslog_reconnect_throttle_again :
    ∃ receipts w,
      (runSyslogOps (initAndWrites none defaultSyslogConfig
        [(.info, some [65]), (.info, some [66]), (.info, some [67])])).run (syslogStart 7)
          reconnectTape = .done receipts w [] ∧
      receipts.map SyslogReceipt.rc = [0, -epipe, -epipe, 0] ∧
      ReconnectThrottle w.syslog.reconnectIntervalMs.toNat w.trace :=
  ⟨_, _, rfl, by decide +kernel, (syslog_reconnect_throttle 7 none defaultSyslogConfig
    [(.info, some [65]), (.info, some [66]), (.info, some [67])] reconnectTape [] _ _ rfl).1
      (by rw [Ticking]; decide +kernel)⟩

end Runs

end CLogger
