import CLogger.Syslog.Accounting
import CLogger.Syslog.Framing

/-!
# The result of a datagram

What the caller of `logger_syslog_write` may conclude from its result: it is 0 or a negated error
number, and 0 only when the socket has taken the whole datagram of the record.

* `SyslogWritten`, and `syslogWritten_of_returns`: every write of a sink that holds no negative
  error.
-/

namespace CLogger

open TapeProgram

section Sign

variable {w : SyslogWorld}

/-- The error of the last lost connection is an error number, or 0. -/
def SyslogSane (w : SyslogWorld) : Prop := 0 ≤ w.syslog.connectionError

/-- A function of a sane sink leaves it sane, and returns a result in `P`. -/
abbrev StaysSane {α : Type} (m : SyslogProg α) (P : α → Prop) : Prop :=
  ∀ w, SyslogSane w → wp (fun _ => True) m (fun r w' => SyslogSane w' ∧ P r) w

/-- What keeps the state of the sink keeps it sane. -/
theorem staysSane_of_keeps {α : Type} {m : SyslogProg α} {P : α → Prop}
    (h : Keeps sinkFrame P m) : StaysSane m P := by
  intro w hw
  refine wp_of_keeps h (fun _ _ => trivial) (fun _ _ => trivial) fun r w' hr hframe => ⟨?_, hr⟩
  have herror : w'.syslog.connectionError = w.syslog.connectionError := congrArg Prod.snd hframe
  rw [SyslogSane, herror]
  exact hw

/-- Programs in sequence keep the sink sane. -/
theorem StaysSane.bind {α β : Type} {m : SyslogProg α} {f : α → SyslogProg β} {P : α → Prop}
    {P' : β → Prop} (h : StaysSane m P) (hf : ∀ a, P a → StaysSane (f a) P') :
    StaysSane (m >>= f) P' :=
  fun w hw => wp_bind (wp_mono (h w hw) fun a w' ha => hf a ha.2 w' ha.1)

/-- So does a test. -/
theorem StaysSane.ite {α : Type} {m m' : SyslogProg α} {P : α → Prop} {p : Prop} [Decidable p]
    (h : p → StaysSane m P) (h' : ¬ p → StaysSane m' P) : StaysSane (if p then m else m') P :=
  fun w hw => wp_ite (fun hp => h hp w hw) fun hp => h' hp w hw

/-- An update that does not make the remembered error negative keeps it sane. -/
theorem setSyslog_staysSane {g : Syslog → Syslog}
    (h : ∀ s, 0 ≤ s.connectionError → 0 ≤ (g s).connectionError) :
    StaysSane (setSyslog g) fun _ => True :=
  fun w hw => wp_modify ⟨h w.syslog hw, trivial⟩

/-- A negated error number. -/
theorem recordFailure_staysSane {error : ℤ} (herror : 0 ≤ error) :
    StaysSane (recordFailure error) (· ≤ 0) :=
  staysSane_of_keeps ((recordFailure_keeps error).mono fun _ h => h herror)

/-- A failed connection remembers its error and returns a negative one. -/
theorem connectFailed_staysSane {error : ℤ} (herror : 0 ≤ error) (deferable : Bool) :
    StaysSane (connectFailed error deferable) fun r => r.1 ≤ 0 := by
  refine StaysSane.bind (setSyslog_staysSane fun _ _ => herror) fun _ _ w hw => wp_pure ⟨hw, ?_⟩
  exact neg_nonpos.mpr herror

/-- An attempt to connect returns 0 or a negative error. -/
theorem connectOnce_staysSane : StaysSane connectOnce fun r => r.1 ≤ 0 := by
  refine StaysSane.bind (staysSane_of_keeps (noteSyslog_keeps _)) fun _ _ => ?_
  refine StaysSane.bind (setSyslog_staysSane fun _ h => h) fun _ _ => ?_
  refine StaysSane.bind (staysSane_of_keeps syslogSocket_keeps) fun r hr => ?_
  cases r with
  | error e => exact connectFailed_staysSane (hr e rfl).le false
  | ok fd =>
    refine StaysSane.bind (P := fun _ => True) (fun w hw => wp_ask trivial fun _ => ⟨hw, trivial⟩)
      fun connect _ => StaysSane.ite (fun _ => ?_) fun _ => ?_
    · refine StaysSane.bind (staysSane_of_keeps (syslogCloseFd_keeps fd)) fun _ _ => ?_
      exact connectFailed_staysSane connect.errno_pos.le _
    · refine StaysSane.bind (setSyslog_staysSane fun _ _ => le_rfl) fun _ _ w hw => ?_
      exact wp_pure ⟨hw, le_rfl⟩

/-- Sending a packet returns 0 or a negative error. -/
theorem sendRecord_staysSane (packet : List UInt8) : StaysSane (sendRecord packet) (· ≤ 0) := by
  refine StaysSane.bind (staysSane_of_keeps (sendAttempts_keeps packet _)) fun error herror => ?_
  refine StaysSane.ite (fun _ w hw => wp_pure ⟨hw, le_rfl⟩) fun _ => ?_
  refine StaysSane.ite (fun _ => recordFailure_staysSane herror) fun _ => ?_
  refine StaysSane.bind (staysSane_of_keeps (noteSyslog_keeps _)) fun _ _ => ?_
  refine StaysSane.bind (staysSane_of_keeps loggerSyslogClose_keeps) fun _ _ => ?_
  refine StaysSane.bind (setSyslog_staysSane fun _ _ => herror) fun _ _ => ?_
  refine StaysSane.bind (staysSane_of_keeps startCooldown_keeps) fun _ _ => ?_
  exact recordFailure_staysSane herror

/-- So does sending it after a new connection. -/
theorem reconnectAndSend_staysSane (packet : List UInt8) :
    StaysSane (reconnectAndSend packet) (· ≤ 0) := by
  refine StaysSane.bind (staysSane_of_keeps monotonicMs_keeps) fun r hr => ?_
  cases r with
  | error e => exact recordFailure_staysSane (hr e rfl).le
  | ok now =>
    refine StaysSane.bind (setSyslog_staysSane fun s hs => ?_) fun _ _ => ?_
    · split
      · exact hs
      · exact hs
    -- the error that the cooldown repeats is the one the sink holds
    refine StaysSane.bind (P := fun s => 0 ≤ s.connectionError)
      (fun w hw => wp_bind (wp_get (wp_pure ⟨hw, hw⟩))) fun s hs => StaysSane.ite (fun _ => ?_) ?_
    · refine StaysSane.bind (setSyslog_staysSane fun _ h => h) fun _ _ => ?_
      refine recordFailure_staysSane ?_
      split
      · decide
      · exact hs
    · intro _
      refine StaysSane.bind (setSyslog_staysSane fun _ h => h) fun _ _ => ?_
      refine StaysSane.bind connectOnce_staysSane fun connected hconnected => ?_
      refine StaysSane.ite (fun _ => ?_) fun _ => sendRecord_staysSane packet
      exact recordFailure_staysSane (neg_nonneg.mpr hconnected)

/-- `logger_syslog_write` returns 0 or a negative error. -/
theorem loggerSyslogWrite_staysSane (level : LoggerLevel) (line : Option (List UInt8)) :
    StaysSane (loggerSyslogWrite level line) (· ≤ 0) := by
  refine StaysSane.bind (setSyslog_staysSane fun _ h => h) fun _ _ => ?_
  cases line with
  | none => exact recordFailure_staysSane (by decide)
  | some line =>
    refine StaysSane.ite (fun _ => recordFailure_staysSane (by decide)) fun _ => ?_
    refine StaysSane.ite (fun _ => recordFailure_staysSane (by decide)) fun _ => ?_
    refine StaysSane.bind (staysSane_of_keeps getSyslog_keeps) fun s _ => ?_
    refine StaysSane.bind (staysSane_of_keeps syslogCall_keeps) fun a _ => ?_
    refine StaysSane.ite (fun _ => recordFailure_staysSane ?_) fun _ => ?_
    · rw [if_neg a.errno_ne_zero]
      exact a.errno_pos.le
    refine StaysSane.ite (fun _ => recordFailure_staysSane (by decide)) fun _ => ?_
    refine StaysSane.ite (fun _ => recordFailure_staysSane (by decide)) fun _ => ?_
    exact StaysSane.ite (fun _ => reconnectAndSend_staysSane _) fun _ => sendRecord_staysSane _

end Sign

/-- What a write that began in `w₀` and returned `rc` in `w` has done. -/
structure SyslogWritten (w₀ : SyslogWorld) (level : LoggerLevel) (line : List UInt8) (rc : ℤ)
    (w : SyslogWorld) : Prop where
  nonpos : rc ≤ 0
  sane : SyslogSane w
  identity : w.syslog.identity = w₀.syslog.identity
  grown : w₀.trace <+: w.trace
  /-- The result is 0 only when the socket has taken the datagram of the record in full. -/
  complete : rc = 0 →
    .send (w₀.syslog.packet level line) .full ∈ w.trace.drop w₀.trace.length

/-- A datagram depends on the identity of the sink. -/
theorem packet_of_identity {s s' : Syslog} (h : s'.identity = s.identity) (level : LoggerLevel)
    (line : List UInt8) : s'.packet level line = s.packet level line := by
  simp only [Syslog.identity, Prod.mk.injEq] at h
  simp only [Syslog.packet, Syslog.header, h.1, h.2.1, h.2.2]

/-- What a write of a sane sink returns. -/
theorem syslogWritten_of_returns {w w' : SyslogWorld} {level : LoggerLevel} {line : List UInt8}
    {rc : ℤ} (h : Returns (loggerSyslogWrite level (some line)) w rc w') (hw : SyslogSane w) :
    SyslogWritten w level line rc w' := by
  obtain ⟨hsane, hnonpos⟩ := h.spec (loggerSyslogWrite_staysSane level (some line) w hw)
  obtain ⟨es, htrace, hwrite⟩ := h _ (loggerSyslogWrite_effect level (some line))
  have hkeeps : wp (fun _ => True) (loggerSyslogWrite level (some line))
      (fun _ w' => sinkIdentity w' = sinkIdentity w) w :=
    wp_of_keeps (loggerSyslogWrite_keeps level (some line)) (fun _ _ => trivial)
      (fun _ _ => trivial) fun _ _ _ hsame => hsame
  refine ⟨hnonpos, hsane, h.spec hkeeps, htrace ▸ List.prefix_append _ _, fun hrc => ?_⟩
  rw [htrace, List.drop_left]
  -- the one full send of the call is of its own datagram
  have hfull : 0 < (sendsOf es).count .full := by
    rw [hwrite.ok.1.accepted.mp hrc]
    exact one_pos
  obtain ⟨event, hevent, houtcome⟩ := List.mem_filterMap.mp (List.count_pos_iff.mp hfull)
  cases event with
  | send packet outcome =>
    obtain rfl := Option.some.inj houtcome
    have hown : packet = w.syslog.packet level line := hwrite.ok.1.own packet .full hevent
    exact hown ▸ hevent
  | _ => exact absurd houtcome (by rintro ⟨⟩)

end CLogger
