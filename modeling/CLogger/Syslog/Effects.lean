import CLogger.Syslog.Model

/-!
# What a call of the syslog sink does

Each call is reduced to what it does to the part of the state that the accounting and the throttle
are about (`SyslogView`) and to the events it adds to the trace: `InitTo` and `WriteTo` list the
ways a call of `logger_syslog_init` and `logger_syslog_write` can go, one constructor for each exit.
`loggerSyslogInit_effect` and `loggerSyslogWrite_effect` say that there are no others.
-/

namespace CLogger

open TapeProgram

/-- The fields of the sink that the statements about runs mention. -/
structure SyslogView where
  fd : Option ℕ := none
  connected : Bool := false
  interval : UInt32 := 0
  retryFrom : UInt64 := 0
  pending : Bool := false
  submitted : UInt64 := 0
  sent : UInt64 := 0
  failed : UInt64 := 0
  pressured : UInt64 := 0
  cooldown : UInt64 := 0
  attempts : UInt64 := 0
  connectFailures : UInt64 := 0

/-- The view of a sink. -/
def Syslog.view (s : Syslog) : SyslogView where
  fd := s.fd
  connected := s.metrics.connected
  interval := s.reconnectIntervalMs
  retryFrom := s.retryFromMs
  pending := s.retryClockPending
  submitted := s.metrics.submittedRecords
  sent := s.metrics.sentRecords
  failed := s.metrics.failedRecords
  pressured := s.metrics.backpressureRecords
  cooldown := s.metrics.cooldownRecords
  attempts := s.metrics.connectAttempts
  connectFailures := s.metrics.connectFailures

/-- A record is counted as failed. -/
def SyslogView.fail (v : SyslogView) (error : ℤ) : SyslogView :=
  { v with
    failed := v.failed + 1
    pressured := if backpressure error then v.pressured + 1 else v.pressured }

/-- A record is counted as submitted. -/
def SyslogView.submit (v : SyslogView) : SyslogView := { v with submitted := v.submitted + 1 }

/-- A reading restarts the cooldown when the clock was missing or has gone back. -/
def SyslogView.rearm (v : SyslogView) (now : UInt64) : SyslogView :=
  { v with
    retryFrom := if v.pending ∨ monotonicBefore now v.retryFrom then now else v.retryFrom
    pending := false }

/-- The sends of one record, of which at most `n` are left: their events, and the error number. -/
inductive SendsTo (packet : List UInt8) : ℕ → List SyslogEvent → ℤ → Prop where
  | exhausted : SendsTo packet 0 [] eintr
  | full {n : ℕ} : SendsTo packet (n + 1) [.send packet .full] 0
  | short {n : ℕ} : SendsTo packet (n + 1) [.send packet .short] eio
  | error {n : ℕ} {e : ℤ} : e ≠ 0 → e ≠ eintr → SendsTo packet (n + 1) [.send packet (.error e)] e
  | retry {n : ℕ} {es : List SyslogEvent} {e : ℤ} : SendsTo packet n es e →
      SendsTo packet (n + 1) (.send packet (.error eintr) :: es) e

/-- One attempt to connect, of which `fd` would be the descriptor. -/
inductive ConnectsTo (fd : ℕ) (v : SyslogView) : List SyslogEvent → ℕ → SyslogView → ℤ → Prop where
  | noSocket {e : ℤ} : e ≠ 0 → ConnectsTo fd v [.attempt, .socket none] fd
      { v with attempts := v.attempts + 1, connectFailures := v.connectFailures + 1 } (-e)
  | refused {e : ℤ} : e ≠ 0 →
      ConnectsTo fd v [.attempt, .socket (some fd), .connect fd false, .close fd] (fd + 1)
        { v with attempts := v.attempts + 1, connectFailures := v.connectFailures + 1 } (-e)
  | linked : ConnectsTo fd v [.attempt, .socket (some fd), .connect fd true] (fd + 1)
      { v with attempts := v.attempts + 1, fd := some fd, connected := true } 0

/-- Sending a record over the descriptor `fd`. -/
inductive RecordTo (packet : List UInt8) (fd : ℕ) (v : SyslogView) :
    List SyslogEvent → SyslogView → ℤ → Prop where
  | sent {es : List SyslogEvent} : SendsTo packet syslogSendAttempts es 0 →
      RecordTo packet fd v es { v with sent := v.sent + 1 } 0
  | failed {es : List SyslogEvent} {e : ℤ} : SendsTo packet syslogSendAttempts es e → e ≠ 0 →
      RecordTo packet fd v es (v.fail e) (-e)
  | dropped {es : List SyslogEvent} {e : ℤ} {reading : Option UInt64} :
      SendsTo packet syslogSendAttempts es e → e ≠ 0 →
      RecordTo packet fd v (es ++ [.drop, .close fd, .reading reading])
        (SyslogView.fail { v with
          fd := none, connected := false, retryFrom := reading.getD v.retryFrom
          pending := v.pending || reading.isNone } e) (-e)

/-- A call of `logger_syslog_write`. -/
inductive WriteTo (packet : List UInt8) (nextFd : ℕ) (v : SyslogView) :
    List SyslogEvent → ℕ → SyslogView → ℤ → Prop where
  | rejected {e : ℤ} : e ≠ 0 → WriteTo packet nextFd v [] nextFd (v.submit.fail e) (-e)
  | linked {fd : ℕ} {es : List SyslogEvent} {v' : SyslogView} {rc : ℤ} : v.fd = some fd →
      RecordTo packet fd v.submit es v' rc → WriteTo packet nextFd v es nextFd v' rc
  | noClock {e : ℤ} : v.fd = none → e ≠ 0 →
      WriteTo packet nextFd v [.reading none] nextFd (v.submit.fail e) (-e)
  | cooling {now : UInt64} {e : ℤ} : v.fd = none → e ≠ 0 →
      ¬ monotonicElapsed now (v.rearm now).retryFrom v.interval →
      WriteTo packet nextFd v [.reading (some now)] nextFd
        (SyslogView.fail { v.submit.rearm now with cooldown := v.cooldown + 1 } e) (-e)
  | refused {now : UInt64} {e : ℤ} {es : List SyslogEvent} {v' : SyslogView} {nextFd' : ℕ} :
      v.fd = none → monotonicElapsed now (v.rearm now).retryFrom v.interval → e ≠ 0 →
      ConnectsTo nextFd { v.submit.rearm now with retryFrom := now } es nextFd' v' (-e) →
      WriteTo packet nextFd v (.reading (some now) :: es) nextFd' (v'.fail e) (-e)
  | renewed {now : UInt64} {fd nextFd' : ℕ} {es es' : List SyslogEvent} {v' v'' : SyslogView}
      {rc : ℤ} :
      v.fd = none → monotonicElapsed now (v.rearm now).retryFrom v.interval →
      ConnectsTo nextFd { v.submit.rearm now with retryFrom := now } es nextFd' v' 0 →
      v'.fd = some fd → RecordTo packet fd v' es' v'' rc →
      WriteTo packet nextFd v (.reading (some now) :: es ++ es') nextFd' v'' rc

/-- A call of `logger_syslog_init` with a configuration. -/
inductive InitTo (nextFd : ℕ) : List SyslogEvent → ℕ → SyslogView → ℤ → Prop where
  | rejected {interval : UInt32} {e : ℤ} : e ≠ 0 → InitTo nextFd [] nextFd { interval } (-e)
  | noClock {interval : UInt32} {e : ℤ} : 0 < interval → e ≠ 0 →
      InitTo nextFd [.reading none] nextFd { interval } (-e)
  | attempted {interval : UInt32} {now : UInt64} {es : List SyslogEvent} {nextFd' : ℕ}
      {v' : SyslogView} {rc rc' : ℤ} : 0 < interval →
      ConnectsTo nextFd { interval, retryFrom := now } es nextFd' v' rc →
      (rc = 0 → rc' = 0) → InitTo nextFd (.reading (some now) :: es) nextFd' v' rc'

section Effects

variable {w : SyslogWorld} {α : Type}

/-- Every run of `m` from `w` that returns `r` has added events `es` and leaves a view `v` and a
next descriptor `n` with `P es n v r`. -/
def Effect (m : SyslogProg α) (w : SyslogWorld)
    (P : List SyslogEvent → ℕ → SyslogView → α → Prop) : Prop :=
  wp (fun _ => True) m
    (fun r w' => ∃ es, w'.trace = w.trace ++ es ∧ P es w'.nextFd w'.syslog.view r) w

/-- A program that returns has no event. -/
theorem effect_pure {a : α} {P : List SyslogEvent → ℕ → SyslogView → α → Prop}
    (h : P [] w.nextFd w.syslog.view a) : Effect (pure a) w P :=
  wp_pure ⟨[], (List.append_nil _).symm, h⟩

/-- Effects may be weakened. -/
theorem effect_mono {m : SyslogProg α} {P Q : List SyslogEvent → ℕ → SyslogView → α → Prop}
    (h : Effect m w P) (hPQ : ∀ es n v r, P es n v r → Q es n v r) : Effect m w Q := by
  refine wp_mono h ?_
  rintro r w' ⟨es, htrace, hP⟩
  exact ⟨es, htrace, hPQ _ _ _ _ hP⟩

/-- The events of programs in sequence follow each other. -/
theorem effect_bind {β : Type} {m : SyslogProg α} {f : α → SyslogProg β}
    {P : List SyslogEvent → ℕ → SyslogView → α → Prop}
    {Q : List SyslogEvent → ℕ → SyslogView → β → Prop} (h : Effect m w P)
    (hf : ∀ es r w', P es w'.nextFd w'.syslog.view r →
      Effect (f r) w' fun es' n v b => Q (es ++ es') n v b) : Effect (m >>= f) w Q := by
  refine wp_bind (wp_mono h ?_)
  rintro r w₁ ⟨es, htrace, hP⟩
  refine wp_mono (hf es r w₁ hP) ?_
  rintro b w₂ ⟨es', htrace', hQ⟩
  exact ⟨es ++ es', by rw [htrace', htrace, List.append_assoc], hQ⟩

/-- An update of the sink is no event. -/
theorem effect_set {g : Syslog → Syslog} :
    Effect (setSyslog g) w fun es n v _ => es = [] ∧ n = w.nextFd ∧ v = (g w.syslog).view :=
  wp_modify ⟨[], (List.append_nil _).symm, rfl, rfl, rfl⟩

/-- A note is one event. -/
theorem effect_note {e : SyslogEvent} :
    Effect (noteSyslog e) w fun es n v _ => es = [e] ∧ n = w.nextFd ∧ v = w.syslog.view :=
  wp_modify ⟨[e], rfl, rfl, rfl, rfl⟩

/-- A look at the sink is no event. -/
theorem effect_get {f : Syslog → SyslogProg α}
    {P : List SyslogEvent → ℕ → SyslogView → α → Prop} (h : Effect (f w.syslog) w P) :
    Effect (getSyslog >>= f) w P :=
  wp_bind (wp_bind (wp_get (wp_pure h)))

/-- A call of the environment goes on with each of its answers. -/
theorem effect_call {f : Answer → SyslogProg α}
    {P : List SyslogEvent → ℕ → SyslogView → α → Prop} (h : ∀ a, Effect (f a) w P) :
    Effect (syslogCall >>= f) w P :=
  wp_bind (wp_ask trivial h)

/-- A test has the effect of its branch. -/
theorem effect_ite {c : Prop} [Decidable c] {m m' : SyslogProg α}
    {P : List SyslogEvent → ℕ → SyslogView → α → Prop} (h : c → Effect m w P)
    (h' : ¬ c → Effect m' w P) : Effect (if c then m else m') w P :=
  wp_ite h h'

/-- A clock that fails has an error. -/
theorem monotonicMsValue_error {a : Answer} {e : ℤ} (h : monotonicMsValue a = .error e) :
    e ≠ 0 := by
  simp only [monotonicMsValue] at h
  split_ifs at h
  · rw [← Except.error.inj h]
    exact a.errno_ne_zero
  · rw [← Except.error.inj h]
    decide
  · rw [← Except.error.inj h]
    decide

/-- A look at the clock leaves its reading, or the failure to read. -/
theorem monotonicMs_effect :
    Effect monotonicMs w fun es n v r =>
      es = [.reading r.toOption] ∧ n = w.nextFd ∧ v = w.syslog.view ∧ ∀ e, r = .error e → e ≠ 0 :=
  wp_ask trivial fun _ => ⟨[_], rfl, rfl, rfl, rfl, fun _ => monotonicMsValue_error⟩

/-- A failed record is counted once, and reported with an error. -/
theorem recordFailure_effect (error : ℤ) :
    Effect (recordFailure error) w fun es n v rc =>
      es = [] ∧ n = w.nextFd ∧ ∃ e, e ≠ 0 ∧ rc = -e ∧ v = w.syslog.view.fail e ∧
        (error ≠ 0 → e = error) := by
  have hne : (if error = 0 then eio else error) ≠ 0 := by
    split
    · decide
    · assumption
  refine effect_bind effect_set ?_
  rintro es ⟨⟩ w₁ ⟨rfl, hn, hv⟩
  exact effect_pure ⟨rfl, hn, _, hne, rfl, hv, fun h => if_neg h⟩

/-- A close leaves one event. -/
theorem syslogCloseFd_effect (fd : ℕ) :
    Effect (syslogCloseFd fd) w fun es n v _ =>
      es = [.close fd] ∧ n = w.nextFd ∧ v = w.syslog.view := by
  refine wp_bind (wp_ask trivial fun a => wp_modify ⟨[.close fd], rfl, rfl, rfl, ?_⟩)
  show Syslog.view { w.syslog with metrics := if a.ok then _ else _ } = w.syslog.view
  split <;> rfl

/-- Closing the sink closes its descriptor and forgets it. -/
theorem loggerSyslogClose_effect {fd : ℕ} (hfd : w.syslog.fd = some fd) :
    Effect loggerSyslogClose w fun es n v _ => es = [.close fd] ∧ n = w.nextFd ∧
      v = { w.syslog.view with fd := none, connected := false } := by
  refine effect_get ?_
  rw [hfd]
  refine effect_bind effect_set ?_
  rintro es ⟨⟩ w₁ ⟨rfl, hn, hv⟩
  refine effect_mono (syslogCloseFd_effect fd) ?_
  rintro es n v - ⟨rfl, rfl, rfl⟩
  exact ⟨rfl, hn, hv⟩

/-- A failed connection is counted, and has no event of its own. -/
theorem connectFailed_effect {error : ℤ} {deferable : Bool} :
    Effect (connectFailed error deferable) w fun es n v r =>
      es = [] ∧ n = w.nextFd ∧ r = (-error, deferable) ∧
        v = { w.syslog.view with connectFailures := w.syslog.view.connectFailures + 1 } := by
  refine effect_bind effect_set ?_
  rintro es ⟨⟩ w₁ ⟨rfl, hn, hv⟩
  exact effect_pure ⟨rfl, hn, rfl, hv⟩

/-- A socket is the next descriptor, or there is none. -/
theorem syslogSocket_effect :
    Effect syslogSocket w fun es n v r => v = w.syslog.view ∧
      ((∃ e, e ≠ 0 ∧ r = .error e ∧ es = [.socket none] ∧ n = w.nextFd) ∨
        r = .ok w.nextFd ∧ es = [.socket (some w.nextFd)] ∧ n = w.nextFd + 1) := by
  refine wp_ask trivial fun a => ?_
  cases a.ok with
  | false => exact ⟨[_], rfl, rfl, .inl ⟨_, a.errno_ne_zero, rfl, rfl, rfl⟩⟩
  | true => exact ⟨[_], rfl, rfl, .inr ⟨rfl, rfl, rfl⟩⟩

/-- A connect leaves one event with its outcome. -/
theorem syslogConnect_effect {fd : ℕ} :
    Effect (syslogConnect fd) w fun es n v a =>
      es = [.connect fd a.ok] ∧ n = w.nextFd ∧ v = w.syslog.view :=
  wp_ask trivial fun _ => ⟨[_], rfl, rfl, rfl, rfl⟩

/-- An attempt to connect ends in one of the listed ways. -/
theorem connectOnce_effect :
    Effect connectOnce w fun es n v r => ConnectsTo w.nextFd w.syslog.view es n v r.1 := by
  refine effect_bind effect_note ?_
  rintro es ⟨⟩ w₁ ⟨rfl, hn₁, hv₁⟩
  refine effect_bind effect_set ?_
  rintro es ⟨⟩ w₂ ⟨rfl, hn₂, hv₂⟩
  have hview : w₂.syslog.view = { w.syslog.view with attempts := w.syslog.view.attempts + 1 } := by
    rw [← hv₁]
    exact hv₂
  rw [← hn₂.trans hn₁]
  refine effect_bind syslogSocket_effect ?_
  rintro es r w₃ ⟨hv₃, ⟨e, he, rfl, rfl, hn₃⟩ | ⟨rfl, rfl, hn₃⟩⟩
  -- without a socket nothing was opened
  · refine effect_mono connectFailed_effect ?_
    rintro es n v r ⟨rfl, rfl, rfl, rfl⟩
    rw [hn₃, hv₃, hview]
    exact .noSocket he
  refine effect_bind syslogConnect_effect ?_
  rintro es connect w₄ ⟨rfl, hn₄, hv₄⟩
  cases connect.ok with
  | false =>
    -- the socket of a refused connection is closed again
    refine effect_bind (syslogCloseFd_effect _) ?_
    rintro es ⟨⟩ w₅ ⟨rfl, hn₅, hv₅⟩
    refine effect_mono connectFailed_effect ?_
    rintro es n v r ⟨rfl, rfl, rfl, rfl⟩
    rw [hn₅, hn₄, hn₃, hv₅, hv₄, hv₃, hview]
    exact .refused connect.errno_ne_zero
  | true =>
    refine effect_bind effect_set ?_
    rintro es ⟨⟩ w₅ ⟨rfl, hn₅, hv₅⟩
    refine effect_pure ?_
    have hlinked : w₅.syslog.view = { w.syslog.view with
        attempts := w.syslog.view.attempts + 1, fd := some w₂.nextFd, connected := true } := by
      rw [hv₅]
      show ({ w₄.syslog.view with fd := some w₂.nextFd, connected := true } : SyslogView) = _
      rw [hv₄, hv₃, hview]
    rw [hn₅, hn₄, hn₃, hlinked]
    exact .linked

/-- A send leaves one event with its outcome. -/
theorem syslogSend_effect {packet : List UInt8} :
    Effect (syslogSend packet) w fun es n v outcome =>
      es = [.send packet outcome] ∧ n = w.nextFd ∧ v = w.syslog.view ∧
        ∀ e, outcome = .error e → e ≠ 0 := by
  refine wp_ask trivial fun a => ⟨[_], rfl, rfl, rfl, rfl, fun e he => ?_⟩
  simp only at he
  split_ifs at he
  rw [← SendOutcome.error.inj he]
  exact a.errno_ne_zero

/-- The attempts to send one packet end with a success, an error or too many interrupts. -/
theorem sendAttempts_effect (packet : List UInt8) (left : ℕ) :
    Effect (sendAttempts packet left) w fun es n v error => n = w.nextFd ∧
      SendsTo packet left es error ∧
        v = if error = 0 then { w.syslog.view with sent := w.syslog.view.sent + 1 }
          else w.syslog.view := by
  -- the induction is on the attempts that are left
  induction left generalizing w with
  | zero => exact effect_pure ⟨rfl, .exhausted, rfl⟩
  | succ left ih =>
    refine effect_bind effect_set ?_
    rintro es ⟨⟩ w₁ ⟨rfl, hn₁, hv₁⟩
    refine effect_bind syslogSend_effect ?_
    rintro es outcome w₂ ⟨rfl, hn₂, hv₂, herror⟩
    have hn := hn₂.trans hn₁
    have hv : w₂.syslog.view = w.syslog.view := hv₂.trans hv₁
    cases outcome with
    | full =>
      refine effect_bind effect_set ?_
      rintro es ⟨⟩ w₃ ⟨rfl, hn₃, hv₃⟩
      refine effect_pure ⟨hn₃.trans hn, .full, ?_⟩
      rw [if_pos rfl, ← hv]
      exact hv₃
    | short => exact effect_pure ⟨hn, .short, hv⟩
    -- an interrupted send is tried again, any other error ends the attempts
    | error e =>
      have he := herror e rfl
      simp only [if_neg he]
      refine effect_ite (fun hne => effect_pure ⟨hn, .error he hne, ?_⟩) fun hintr => ?_
      · rw [if_neg he]
        exact hv
      · obtain rfl : e = eintr := not_not.mp hintr
        refine effect_bind effect_set ?_
        rintro es ⟨⟩ w₃ ⟨rfl, hn₃, hv₃⟩
        have hview : w₃.syslog.view = w.syslog.view := hv₃.trans hv
        refine effect_mono ih ?_
        rintro es n v error ⟨rfl, hsends, hv'⟩
        exact ⟨hn₃.trans hn, .retry hsends, hview ▸ hv'⟩

/-- The cool-down starts at the reading of the clock, or stays to be started. -/
theorem startCooldown_effect :
    Effect startCooldown w fun es n v _ => n = w.nextFd ∧ ∃ reading, es = [.reading reading] ∧
      v = { w.syslog.view with
        retryFrom := reading.getD w.syslog.view.retryFrom
        pending := w.syslog.view.pending || reading.isNone } := by
  refine effect_bind monotonicMs_effect ?_
  rintro es (e | now) w₁ ⟨rfl, hn₁, hv₁, -⟩
  · refine effect_mono effect_set ?_
    rintro es n v - ⟨rfl, hn, hv⟩
    refine ⟨hn.trans hn₁, none, rfl, ?_⟩
    rw [hv, ← hv₁]
    simp [Syslog.view]
  · refine effect_mono effect_set ?_
    rintro es n v - ⟨rfl, hn, hv⟩
    refine ⟨hn.trans hn₁, some now, rfl, ?_⟩
    rw [hv, ← hv₁]
    simp [Syslog.view]

/-- Sending a packet over a connection ends in one of the listed ways. -/
theorem sendRecord_effect {packet : List UInt8} {fd : ℕ} (hfd : w.syslog.fd = some fd) :
    Effect (sendRecord packet) w fun es n v rc =>
      n = w.nextFd ∧ RecordTo packet fd w.syslog.view es v rc := by
  refine effect_bind (sendAttempts_effect packet syslogSendAttempts) ?_
  rintro es error w₁ ⟨hn₁, hsends, hv₁⟩
  refine effect_ite (fun hzero => ?_) fun hne => ?_
  · subst hzero
    rw [if_pos rfl] at hv₁
    refine effect_pure ⟨hn₁, ?_⟩
    rw [hv₁, List.append_nil]
    exact .sent hsends
  rw [if_neg hne] at hv₁
  refine effect_ite (fun _ => ?_) fun _ => ?_
  · refine effect_mono (recordFailure_effect error) ?_
    rintro es' n v rc ⟨rfl, hn, e, -, rfl, rfl, he⟩
    obtain rfl := he hne
    refine ⟨hn.trans hn₁, ?_⟩
    rw [hv₁, List.append_nil]
    exact .failed hsends hne
  -- a broken association: the descriptor is closed and the cooldown starts
  have hfd₁ : w₁.syslog.fd = some fd := by
    have hview : w₁.syslog.view.fd = w.syslog.view.fd := congrArg SyslogView.fd hv₁
    exact hview.trans hfd
  refine effect_bind effect_note ?_
  rintro es₂ ⟨⟩ w₂ ⟨rfl, hn₂, hv₂⟩
  have hfd₂ : w₂.syslog.fd = some fd := (congrArg SyslogView.fd hv₂).trans hfd₁
  refine effect_bind (loggerSyslogClose_effect hfd₂) ?_
  rintro es₃ ⟨⟩ w₃ ⟨rfl, hn₃, hv₃⟩
  refine effect_bind effect_set ?_
  rintro es₄ ⟨⟩ w₄ ⟨rfl, hn₄, hv₄⟩
  have hview₄ : w₄.syslog.view = { w.syslog.view with fd := none, connected := false } := by
    rw [hv₄]
    show w₃.syslog.view = _
    rw [hv₃, hv₂, hv₁]
  refine effect_bind startCooldown_effect ?_
  rintro es₅ ⟨⟩ w₅ ⟨hn₅, reading, rfl, hv₅⟩
  refine effect_mono (recordFailure_effect error) ?_
  rintro es₆ n v rc ⟨rfl, hn, e, -, rfl, rfl, he⟩
  obtain rfl := he hne
  refine ⟨by rw [hn, hn₅, hn₄, hn₃, hn₂, hn₁], ?_⟩
  rw [hv₅, hview₄]
  exact .dropped hsends hne

/-- What the view sees of a start of the cool-down that is made up for. -/
theorem view_rearm (s : Syslog) (now : UInt64) :
    (if s.retryClockPending ∨ monotonicBefore now s.retryFromMs then
        { s with retryFromMs := now, retryClockPending := false }
      else s).view = s.view.rearm now := by
  by_cases hstale : s.retryClockPending ∨ monotonicBefore now s.retryFromMs
  · simp [SyslogView.rearm, Syslog.view, hstale]
  · rw [not_or, Bool.not_eq_true, Bool.not_eq_true] at hstale
    simp [SyslogView.rearm, Syslog.view, hstale.1, hstale.2]

/-- What `logger_syslog_write` does without a descriptor, once the record is counted. It starts with
a reading of the clock. -/
theorem reconnectAndSend_effect {packet : List UInt8} {v : SyslogView} (hfd : v.fd = none)
    (hv : w.syslog.view = v.submit) :
    Effect (reconnectAndSend packet) w fun es n v' rc =>
      WriteTo packet w.nextFd v es n v' rc ∧ es ≠ [] := by
  refine effect_bind monotonicMs_effect ?_
  rintro es (e | now) w₁ ⟨rfl, hn₁, hv₁, herror⟩
  -- without a clock the record is dropped before anything is tried
  · refine effect_mono (recordFailure_effect e) ?_
    rintro es n v' rc ⟨rfl, hn, e', he', rfl, rfl, -⟩
    rw [hn, hn₁, hv₁, hv]
    exact ⟨.noClock hfd he', List.cons_ne_nil _ _⟩
  refine effect_bind effect_set ?_
  rintro es ⟨⟩ w₂ ⟨rfl, hn₂, hv₂⟩
  -- the reading starts a cooldown that waited for one
  have hview : w₂.syslog.view = v.submit.rearm now := by
    rw [hv₂, ← hv, ← hv₁]
    exact view_rearm w₁.syslog now
  have hretry : w₂.syslog.retryFromMs = (v.rearm now).retryFrom :=
    congrArg SyslogView.retryFrom hview
  have hinterval : w₂.syslog.reconnectIntervalMs = v.interval :=
    congrArg SyslogView.interval hview
  refine effect_get ?_
  rw [hretry, hinterval]
  refine effect_ite (fun hcold => ?_) fun helapsed => ?_
  · -- still in the cooldown
    refine effect_bind effect_set ?_
    rintro es ⟨⟩ w₃ ⟨rfl, hn₃, hv₃⟩
    refine effect_mono (recordFailure_effect _) ?_
    rintro es n v' rc ⟨rfl, hn, e', he', rfl, rfl, -⟩
    have hview₃ : w₃.syslog.view = { v.submit.rearm now with cooldown := v.cooldown + 1 } := by
      rw [hv₃]
      show ({ w₂.syslog.view with cooldown := w₂.syslog.view.cooldown + 1 } : SyslogView) = _
      rw [hview]
      rfl
    rw [hn, hn₃, hn₂, hn₁, hview₃]
    exact ⟨.cooling hfd he' (by simpa using hcold), List.cons_ne_nil _ _⟩
  -- the cooldown is over: the next one starts at this reading
  refine effect_bind effect_set ?_
  rintro es ⟨⟩ w₃ ⟨rfl, hn₃, hv₃⟩
  have hview₃ : w₃.syslog.view = { v.submit.rearm now with retryFrom := now } := by
    rw [hv₃, ← hview]
    rfl
  refine effect_bind connectOnce_effect ?_
  rintro es connected w₄ hconnects
  rw [hview₃, hn₃, hn₂, hn₁] at hconnects
  have hpassed : monotonicElapsed now (v.rearm now).retryFrom v.interval = true := by
    simpa using helapsed
  refine effect_ite (fun hne => ?_) fun hzero => ?_
  · refine effect_mono (recordFailure_effect _) ?_
    -- no connection: the record is lost with the error of the attempt
    rintro es' n v' rc ⟨rfl, hn, e', he', rfl, rfl, heq⟩
    have hrc : connected.1 = -e' := by
      rw [heq (by omega), neg_neg]
    rw [hrc] at hconnects
    rw [hn, List.append_nil]
    exact ⟨.refused hfd hpassed he' hconnects, List.cons_ne_nil _ _⟩
  · have hrc : connected.1 = 0 := not_not.mp hzero
    rw [hrc] at hconnects
    -- a connection that worked has a descriptor, and the record goes out through it
    obtain ⟨fd, hfd₄⟩ : ∃ fd, w₄.syslog.view.fd = some fd := by
      generalize w₄.syslog.view = v₄ at hconnects
      generalize w₄.nextFd = n₄ at hconnects
      generalize hz : (0 : ℤ) = z at hconnects
      cases hconnects with
      | noSocket he => omega
      | refused he => omega
      | linked => exact ⟨_, rfl⟩
    refine effect_mono (sendRecord_effect hfd₄) ?_
    rintro es' n v' rc ⟨rfl, hrecord⟩
    have hwrite := WriteTo.renewed hfd hpassed hconnects hfd₄ hrecord
    exact ⟨hwrite, List.cons_ne_nil _ _⟩

/-- Every call of `logger_syslog_write` goes one of the ways of `WriteTo`. -/
theorem loggerSyslogWrite_effect (level : LoggerLevel) (line : Option (List UInt8)) :
    Effect (loggerSyslogWrite level line) w fun es n v rc =>
      WriteTo (w.syslog.packet level (line.getD [])) w.nextFd w.syslog.view es n v rc := by
  refine wp_bind (wp_modify ?_)
  have hreject : ∀ error : ℤ, Effect (recordFailure error)
      { w with syslog := { w.syslog with metrics :=
        { w.syslog.metrics with submittedRecords := w.syslog.metrics.submittedRecords + 1 } } }
      fun es n v rc =>
        WriteTo (w.syslog.packet level (line.getD [])) w.nextFd w.syslog.view es n v rc := by
    intro error
    refine effect_mono (recordFailure_effect error) ?_
    rintro es n v rc ⟨rfl, rfl, e, he, rfl, rfl, -⟩
    exact .rejected he
  cases line with
  | none => exact hreject einval
  | some line =>
    refine effect_ite (fun _ => hreject einval) fun _ => ?_
    refine effect_ite (fun _ => hreject emsgsize) fun _ => ?_
    refine effect_get (effect_call fun a => ?_)
    refine effect_ite (fun _ => hreject _) fun _ => ?_
    refine effect_ite (fun _ => hreject eoverflow) fun _ => ?_
    refine effect_ite (fun _ => hreject emsgsize) fun _ => ?_
    refine effect_ite (fun hnone => ?_) fun hsome => ?_
    · have hfd : w.syslog.view.fd = none := Option.isNone_iff_eq_none.mp hnone
      exact effect_mono (reconnectAndSend_effect hfd rfl) fun _ _ _ _ h => h.1
    · obtain ⟨fd, hfd⟩ := Option.ne_none_iff_exists'.mp (mt Option.isNone_iff_eq_none.mpr hsome)
      refine effect_mono (sendRecord_effect hfd) ?_
      rintro es n v rc ⟨rfl, hrecord⟩
      exact .linked hfd hrecord

/-- The copy of the path is no event. -/
theorem copyPath_effect (path : Option CString) :
    Effect (copyPath path) w fun es n v _ => es = [] ∧ n = w.nextFd ∧ v = w.syslog.view := by
  have hpure : ∀ rc : ℤ, Effect (pure rc : SyslogProg ℤ) w fun es n v _ =>
      es = [] ∧ n = w.nextFd ∧ v = w.syslog.view := fun rc => effect_pure ⟨rfl, rfl, rfl⟩
  have hset : ∀ p : CString, Effect (do setSyslog fun s => { s with path := p }; return (0 : ℤ)) w
      fun es n v _ => es = [] ∧ n = w.nextFd ∧ v = w.syslog.view := by
    intro p
    refine effect_bind effect_set ?_
    rintro es ⟨⟩ w₁ ⟨rfl, hn, hv⟩
    exact effect_pure ⟨rfl, hn, hv⟩
  refine effect_ite (fun _ => hpure _) fun _ => effect_ite (fun _ => hpure _) fun _ => ?_
  refine effect_ite (fun _ => hset _) fun _ => effect_call fun a => ?_
  refine effect_ite (fun _ => hpure _) fun _ => ?_
  exact effect_ite (fun _ => hpure _) fun _ => hset _

/-- Every call of `logger_syslog_init` with a configuration goes one of the ways of `InitTo`. -/
theorem loggerSyslogInit_effect (ident : Option CString) (config : SyslogConfig) :
    Effect (loggerSyslogInit ident (some config)) w fun es n v rc =>
      InitTo w.nextFd es n v rc := by
  refine effect_bind effect_set ?_
  rintro es ⟨⟩ w₁ ⟨rfl, hn₁, hv₁⟩
  -- a rejection leaves an empty backend that knows at most its interval
  have hreject : ∀ (w' : SyslogWorld) (interval : UInt32) (e : ℤ), e ≠ 0 → w'.nextFd = w.nextFd →
      w'.syslog.view = { interval } → Effect (pure (-e) : SyslogProg ℤ) w'
        fun es n v rc => InitTo w.nextFd es n v rc := by
    intro w' interval e he hn hv
    refine effect_pure ?_
    rw [hn, hv]
    exact .rejected he
  refine effect_ite (fun _ => hreject w₁ 0 einval (by decide) hn₁ hv₁) fun hvalid => ?_
  refine effect_bind effect_set ?_
  rintro es ⟨⟩ w₂ ⟨rfl, hn₂, hv₂⟩
  generalize hinterval : (if config.reconnectIntervalMs = 0 then (1000 : UInt32)
    else config.reconnectIntervalMs) = interval at hv₂
  -- an interval of 0 stands for the default, so it is positive
  have hpos : 0 < interval := by
    rw [← hinterval]
    split
    · decide
    · exact UInt32.pos_iff_ne_zero.mpr (by assumption)
  have hview₂ : w₂.syslog.view = { interval } := by
    rw [hv₂]
    show ({ w₁.syslog.view with interval } : SyslogView) = _
    rw [hv₁]
    rfl
  have hnext₂ := hn₂.trans hn₁
  refine effect_ite (fun _ => hreject w₂ interval enametoolong (by decide) hnext₂ hview₂)
    fun _ => ?_
  refine effect_ite (fun _ => hreject w₂ interval einval (by decide) hnext₂ hview₂) fun _ => ?_
  refine effect_bind effect_set ?_
  rintro es ⟨⟩ w₃ ⟨rfl, hn₃, hv₃⟩
  refine effect_bind (copyPath_effect config.path) ?_
  rintro es rc w₄ ⟨rfl, hn₄, hv₄⟩
  have hview₄ : w₄.syslog.view = { interval } := by
    rw [hv₄, hv₃]
    exact hview₂
  have hnext₄ : w₄.nextFd = w.nextFd := by rw [hn₄, hn₃, hnext₂]
  refine effect_ite (fun hrc => ?_) fun _ => ?_
  · have hreject₄ := hreject w₄ interval (-rc) (by omega) hnext₄ hview₄
    rw [neg_neg] at hreject₄
    exact hreject₄
  refine effect_bind monotonicMs_effect ?_
  rintro es (e | now) w₅ ⟨rfl, hn₅, hv₅, herror⟩
  -- without a clock there is no attempt, but the backend is configured
  · refine effect_pure ?_
    rw [hn₅, hnext₄, hv₅, hview₄]
    exact .noClock hpos (herror e rfl)
  refine effect_bind effect_set ?_
  rintro es ⟨⟩ w₆ ⟨rfl, hn₆, hv₆⟩
  have hview₆ : w₆.syslog.view = { interval, retryFrom := now } := by
    rw [hv₆]
    show ({ w₅.syslog.view with retryFrom := now } : SyslogView) = _
    rw [hv₅, hview₄]
  refine effect_bind connectOnce_effect ?_
  rintro es connected w₇ hconnects
  rw [hn₆, hn₅, hnext₄, hview₆] at hconnects
  -- a first connection that may be retried is no failure when the startup mode says so
  have hdone : ∀ rc : ℤ, (connected.1 = 0 → rc = 0) → Effect (pure rc : SyslogProg ℤ) w₇
      fun es' n v rc => InitTo w.nextFd ([.reading (some now)] ++ (es ++ es')) n v rc := by
    intro rc hrc
    refine effect_pure ?_
    rw [List.append_nil]
    exact .attempted hpos hconnects hrc
  refine effect_ite (fun _ => hdone 0 fun _ => rfl) fun hne => ?_
  exact effect_ite (fun _ => hdone 0 fun _ => rfl) fun _ => hdone _ id

/-- A call, by its receipt. -/
inductive OpTo (op : SyslogOp) (packet : List UInt8) (nextFd : ℕ) (v : SyslogView) :
    List SyslogEvent → ℕ → SyslogView → ℤ → Prop where
  | unconfigured {ident : Option CString} : op = .init ident none →
      OpTo op packet nextFd v [] nextFd v (-einval)
  | init {ident : Option CString} {config : SyslogConfig} {es : List SyslogEvent} {nextFd' : ℕ}
      {v' : SyslogView} {rc : ℤ} : op = .init ident (some config) → v.fd = none →
      InitTo nextFd es nextFd' v' rc → OpTo op packet nextFd v es nextFd' v' rc
  | write {level : LoggerLevel} {line : Option (List UInt8)} {es : List SyslogEvent} {nextFd' : ℕ}
      {v' : SyslogView} {rc : ℤ} : op = .write level line →
      WriteTo packet nextFd v es nextFd' v' rc → OpTo op packet nextFd v es nextFd' v' rc

/-- What one call of a sequence does: nothing, when it is not made, and otherwise one of the ways
of `OpTo`. -/
theorem exec_effect (op : SyslogOp) :
    Effect op.exec w fun es n v r =>
      (r = none ∧ es = [] ∧ n = w.nextFd ∧ v = w.syslog.view) ∨
      ∃ receipt, r = some receipt ∧ receipt.op = op ∧ receipt.events = es ∧
        receipt.retryFrom = w.syslog.view.retryFrom ∧
        OpTo op receipt.packet w.nextFd w.syslog.view es n v receipt.rc := by
  refine wp_bind (wp_get ?_)
  cases op with
  | init ident config =>
    refine wp_ite (fun _ => ?_) fun hfd => ?_
    · exact wp_pure ⟨[], (List.append_nil _).symm, .inl ⟨rfl, rfl, rfl, rfl⟩⟩
    have hnone : w.syslog.fd = none := by simpa using hfd
    cases config with
    | none =>
      refine wp_bind (wp_pure (wp_bind (wp_get (wp_pure ⟨[], (List.append_nil _).symm, .inr ?_⟩))))
      exact ⟨_, rfl, rfl, by simp, rfl, .unconfigured rfl⟩
    | some config =>
      refine wp_bind (wp_mono (loggerSyslogInit_effect ident config) ?_)
      rintro rc w' ⟨es, htrace, hinit⟩
      refine wp_bind (wp_get (wp_pure ⟨es, htrace, .inr ⟨_, rfl, rfl, ?_, rfl, ?_⟩⟩))
      · simp [htrace]
      · exact .init rfl hnone hinit
  | write level line =>
    refine wp_bind (wp_mono (loggerSyslogWrite_effect level line) ?_)
    rintro rc w' ⟨es, htrace, hwrite⟩
    refine wp_bind (wp_get (wp_pure ⟨es, htrace, .inr ⟨_, rfl, rfl, ?_, rfl, ?_⟩⟩))
    · simp [htrace]
    · exact .write rfl hwrite

/-- Run rule: what holds at the start and is kept by every call, whatever it does, holds after
every sequence of calls. The predicate is about the receipts so far, the trace, and the view. -/
theorem runSyslogOps_rule
    {I : List SyslogReceipt → List SyslogEvent → ℕ → SyslogView → Prop} (ops : List SyslogOp)
    (hstep : ∀ receipts trace n v op packet retryFrom es n' v' rc, op ∈ ops →
      I receipts trace n v → retryFrom = v.retryFrom → OpTo op packet n v es n' v' rc →
      I (receipts ++ [⟨op, rc, packet, retryFrom, es⟩]) (trace ++ es) n' v')
    {receipts : List SyslogReceipt} (h : I receipts w.trace w.nextFd w.syslog.view) :
    wp (fun _ => True) (runSyslogOps ops)
      (fun receipts' w' => I (receipts ++ receipts') w'.trace w'.nextFd w'.syslog.view) w := by
  induction ops generalizing w receipts with
  | nil => exact wp_pure (by rwa [List.append_nil])
  | cons op ops ih =>
    refine wp_bind (wp_mono (exec_effect op) ?_)
    have hrest : ∀ receipts trace n v op packet retryFrom es n' v' rc, op ∈ ops →
        I receipts trace n v → retryFrom = v.retryFrom → OpTo op packet n v es n' v' rc →
        I (receipts ++ [⟨op, rc, packet, retryFrom, es⟩]) (trace ++ es) n' v' :=
      fun receipts trace n v op packet retryFrom es n' v' rc hop =>
        hstep receipts trace n v op packet retryFrom es n' v' rc (List.mem_cons_of_mem _ hop)
    rintro r w₁ ⟨es, htrace, ⟨rfl, rfl, hn, hv⟩ | ⟨receipt, rfl, hop, hes, hretry, hto⟩⟩
    · refine wp_bind (wp_mono (ih hrest (w := w₁) ?_) fun rs w₂ h₂ => wp_pure h₂)
      rw [htrace, List.append_nil, hn, hv]
      exact h
    · have hnext := hstep receipts _ _ _ op receipt.packet receipt.retryFrom es _ _ receipt.rc
        List.mem_cons_self h hretry hto
      rw [← htrace] at hnext
      refine wp_bind (wp_mono (ih hrest hnext) fun rs w₂ h₂ => wp_pure ?_)
      obtain ⟨op', rc, packet, retryFrom, events⟩ := receipt
      simp only at hop hes
      subst hop hes
      simpa using h₂

end Effects

end CLogger
