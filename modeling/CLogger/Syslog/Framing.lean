import CLogger.Syslog.Accounting

/-!
# The framing of syslog records

A record goes out as `<PRI>ident[pid]: body`. The identifier and the body may contain most of the
characters that frame them; what makes a packet readable all the same is what `logger_syslog_init`
refuses in an identifier, and that the numbers are digits.

* `decodeSyslog`: a reader of packets.
* `decodeSyslog_packet`: it recovers what the packet was made of.
* `SyslogServes`: a sink that `logger_syslog_init` accepted, after any writes.
* `syslog_framing`: the packets of such a sink.
-/

namespace CLogger

open TapeProgram

section Decoder

/-- What comes before the first `stop`, and what comes after it. -/
def splitAtByte (stop : UInt8) (s : List UInt8) : Option (List UInt8 × List UInt8) :=
  match s.dropWhile (· != stop) with
  | [] => none
  | _ :: rest => some (s.takeWhile (· != stop), rest)

/-- A decimal number up to `stop`, and what comes after it. -/
def readNumber (stop : UInt8) (s : List UInt8) : Option (ℕ × List UInt8) :=
  (splitAtByte stop s).bind fun parts =>
    if parts.1 ≠ [] ∧ parts.1.all (fun c => 48 ≤ c && c ≤ 57) then
      some (Decimal.value parts.1, parts.2)
    else none

/-- A record as a reader of the socket sees it. -/
structure SyslogRecord where
  facility : ℕ
  severity : ℕ
  ident : CString
  pid : ℕ
  body : List UInt8
  deriving DecidableEq, Repr

/-- A reader of `<PRI>ident[pid]: body`. The priority is the facility with the severity in its last
three bits. -/
def decodeSyslog (s : List UInt8) : Option SyslogRecord :=
  if s.head? ≠ some 60 then none
  else
    (readNumber 62 s.tail).bind fun pri =>
      (splitAtByte 91 pri.2).bind fun ident =>
        (readNumber 93 ident.2).bind fun pid =>
          if pid.2.take 2 ≠ [58, 32] then none
          else some ⟨pri.1 / 8 * 8, pri.1 % 8, ident.1, pid.1, pid.2.drop 2⟩

theorem splitAtByte_append {stop : UInt8} {a b : List UInt8} (h : stop ∉ a) :
    splitAtByte stop (a ++ stop :: b) = some (a, b) := by
  have hall : ∀ c ∈ a, (c != stop) = true := by
    intro c hc
    rw [bne_iff_ne]
    exact fun heq => h (heq ▸ hc)
  rw [splitAtByte, List.dropWhile_append_of_pos hall, List.takeWhile_append_of_pos hall]
  simp

/-- A printed number is read back, whatever byte that is no digit ends it. -/
theorem readNumber_atLeast {stop : UInt8} (hstop : stop < 48 ∨ 57 < stop) (n : ℕ)
    (rest : List UInt8) :
    readNumber stop (Decimal.atLeast 1 n ++ stop :: rest) = some (n, rest) := by
  have hdigits : ∀ c ∈ Decimal.atLeast 1 n, 48 ≤ c ∧ c ≤ 57 :=
    fun c hc => Decimal.digit_of_mem_field hc
  have hnotin : stop ∉ Decimal.atLeast 1 n := by
    intro hmem
    obtain ⟨hlow, hhigh⟩ := hdigits stop hmem
    rcases hstop with h | h
    · exact absurd hlow (UInt8.not_le.mpr h)
    · exact absurd hhigh (UInt8.not_le.mpr h)
  have hne : Decimal.atLeast 1 n ≠ [] := by
    intro hnil
    have hlength := Decimal.length_atLeast 1 n
    rw [hnil, List.length_nil] at hlength
    omega
  have hvalue : Decimal.value (Decimal.atLeast 1 n) = n := by
    apply Decimal.value_field
    rw [← Nat.length_toDigits_le_iff (by decide) (by omega)]
    exact le_max_right _ _
  have hall : (Decimal.atLeast 1 n).all (fun c => 48 ≤ c && c ≤ 57) = true := by
    simpa using hdigits
  rw [readNumber, splitAtByte_append hnotin, Option.bind_some, if_pos ⟨hne, hall⟩, hvalue]

end Decoder

section Packets

/-- The identifier that the sink uses for an argument of `logger_syslog_init`. -/
def identText (ident : Option CString) : CString :=
  if ident.getD [] = [] then appText else ident.getD []

/-- What `logger_syslog_init` checks of the facility and of the identifier that it uses. -/
structure FramingAccepted (facility : ℕ) (ident : CString) : Prop where
  facility_mod : facility % 8 = 0
  facility_le : facility ≤ 23 * 8
  ident_length : ident.length < syslogIdentSize
  ident_bytes : ident.all identByteOk = true

theorem LoggerLevel.priority_lt (level : LoggerLevel) : level.priority < 8 := by
  cases level with
  | beyond _ => exact Nat.zero_lt_succ 7
  | _ => decide

/-- The two parts of a priority. -/
theorem facility_or_severity {facility severity : ℕ} (hmod : facility % 8 = 0)
    (hlt : severity < 8) :
    (facility ||| severity) / 8 * 8 = facility ∧ (facility ||| severity) % 8 = severity := by
  obtain ⟨k, rfl⟩ : ∃ k, facility = 2 ^ 3 * k := ⟨facility / 8, by omega⟩
  rw [← Nat.two_pow_add_eq_or_of_lt (i := 3) hlt]
  omega

/-- An accepted identifier has no `[`. -/
theorem FramingAccepted.bracket_notMem {facility : ℕ} {ident : CString}
    (h : FramingAccepted facility ident) : (91 : UInt8) ∉ ident := by
  intro hmem
  have hok := List.all_eq_true.mp h.ident_bytes 91 hmem
  exact absurd hok (by decide)

/-- A packet is read back as what it was made of. -/
theorem decodeSyslog_packet {s : Syslog} (h : FramingAccepted s.facility s.ident)
    (level : LoggerLevel) (line : List UInt8) :
    decodeSyslog (s.packet level line) =
      some ⟨s.facility, level.priority, s.ident, s.pid, chomp line⟩ := by
  obtain ⟨hfacility, hseverity⟩ := facility_or_severity h.facility_mod level.priority_lt
  -- the packet, with each separator in front of what follows it
  have hpacket : s.packet level line =
      60 :: (Decimal.atLeast 1 (s.facility ||| level.priority) ++ 62 :: (s.ident ++
        91 :: (Decimal.atLeast 1 s.pid ++ 93 :: (58 :: 32 :: chomp line)))) := by
    simp [Syslog.packet, Syslog.header]
  rw [hpacket, decodeSyslog, if_neg (by simp), List.tail_cons,
    readNumber_atLeast (.inr (by decide)), Option.bind_some, splitAtByte_append h.bracket_notMem,
    Option.bind_some, readNumber_atLeast (.inr (by decide)), Option.bind_some, if_neg (by simp),
    hfacility, hseverity]
  rfl

/-- Packets are equal only if everything in them is. -/
theorem packet_injective {s s' : Syslog} (h : FramingAccepted s.facility s.ident)
    (h' : FramingAccepted s'.facility s'.ident) {level level' : LoggerLevel}
    {line line' : List UInt8} (heq : s.packet level line = s'.packet level' line') :
    s.facility = s'.facility ∧ level.priority = level'.priority ∧ s.ident = s'.ident ∧
      s.pid = s'.pid ∧ chomp line = chomp line' := by
  have hdecode := decodeSyslog_packet h level line
  rw [heq, decodeSyslog_packet h' level' line'] at hdecode
  simpa [eq_comm] using hdecode

/-- The body is the line without the one newline that it may end with. -/
theorem chomp_spec (line : List UInt8) :
    (line.getLast? = some 10 → line = chomp line ++ [10]) ∧
      (line.getLast? ≠ some 10 → chomp line = line) := by
  unfold chomp
  constructor
  · intro hlast
    rw [if_pos hlast]
    exact (List.dropLast_append_getLast? 10 hlast).symm
  · intro hlast
    rw [if_neg hlast]

end Packets

section Identity

/-- The part of the state that `Syslog.identity` reads. -/
def sinkIdentity (w : SyslogWorld) : CString × ℕ × ℕ := w.syslog.identity

/-- With it, the error of the last lost connection. -/
def sinkFrame (w : SyslogWorld) : (CString × ℕ × ℕ) × ℤ :=
  (w.syslog.identity, w.syslog.connectionError)

theorem keeps_identity {α : Type} {P : α → Prop} {m : SyslogProg α} (h : Keeps sinkFrame P m) :
    Keeps sinkIdentity P m := h.comp Prod.fst

theorem setSyslog_keeps {τ : Type} {π : SyslogWorld → τ} {g : Syslog → Syslog}
    (h : ∀ w : SyslogWorld, π { w with syslog := g w.syslog } = π w) :
    Keeps π (fun _ => True) (setSyslog g) := Keeps.modify h

theorem getSyslog_keeps : Keeps sinkFrame (fun _ => True) getSyslog :=
  Keeps.bind (Keeps.get (P := fun _ => True) fun _ => trivial) fun _ _ => Keeps.pure trivial

theorem noteSyslog_keeps (e : SyslogEvent) : Keeps sinkFrame (fun _ => True) (noteSyslog e) :=
  Keeps.modify fun _ => rfl

theorem syslogCall_keeps : Keeps sinkFrame (fun _ => True) syslogCall :=
  Keeps.ask (fun _ _ => rfl) fun _ _ => trivial

theorem monotonicMs_keeps : Keeps sinkFrame ErrorNumber monotonicMs := by
  refine Keeps.ask (fun _ _ => rfl) fun _ a e he => ?_
  simp only [monotonicMsValue] at he
  split_ifs at he
  · rw [← Except.error.inj he]
    exact a.errno_pos
  · rw [← Except.error.inj he]
    exact eio_pos
  · rw [← Except.error.inj he]
    decide

/-- An error number gives a negated one. -/
theorem recordFailure_keeps (error : ℤ) :
    Keeps sinkFrame (fun rc => 0 ≤ error → rc ≤ 0) (recordFailure error) := by
  refine Keeps.bind (setSyslog_keeps fun _ => rfl) fun _ _ => Keeps.pure fun herror => ?_
  have hpos := eio_pos
  split <;> omega

theorem syslogCloseFd_keeps (fd : ℕ) : Keeps sinkFrame (fun _ => True) (syslogCloseFd fd) :=
  Keeps.bind (P := fun _ => True) (Keeps.ask (fun _ _ => rfl) fun _ _ => trivial) fun _ _ =>
    setSyslog_keeps fun _ => rfl

theorem loggerSyslogClose_keeps : Keeps sinkFrame (fun _ => True) loggerSyslogClose := by
  refine Keeps.bind getSyslog_keeps fun s _ => ?_
  cases s.fd with
  | none => exact Keeps.pure trivial
  | some fd => exact Keeps.bind (setSyslog_keeps fun _ => rfl) fun _ _ => syslogCloseFd_keeps fd

theorem syslogSocket_keeps : Keeps sinkFrame ErrorNumber syslogSocket := by
  refine Keeps.ask (fun w a => ?_) fun w a => ?_
  · cases a.ok <;> rfl
  · cases a.ok
    · exact .error a.errno_pos
    · exact .ok _

theorem sendAttempts_keeps (packet : List UInt8) (left : ℕ) :
    Keeps sinkFrame (fun error => 0 ≤ error) (sendAttempts packet left) := by
  induction left with
  | zero => exact Keeps.pure (by decide)
  | succ left ih =>
    refine Keeps.bind (setSyslog_keeps fun _ => rfl) fun _ _ => ?_
    refine Keeps.bind (P := fun outcome => ∀ e, outcome = .error e → 0 < e)
      (Keeps.ask (fun _ _ => rfl) fun _ a e he => ?_) fun outcome houtcome => ?_
    · split_ifs at he
      rw [← SendOutcome.error.inj he]
      exact a.errno_pos
    cases outcome with
    | full => exact Keeps.bind (setSyslog_keeps fun _ => rfl) fun _ _ => Keeps.pure le_rfl
    | short => exact Keeps.pure (by decide)
    | error e =>
      have he := houtcome e rfl
      refine Keeps.ite (fun _ => Keeps.pure ?_) fun _ => ?_
      · rw [if_neg he.ne']
        exact he.le
      · exact Keeps.bind (setSyslog_keeps fun _ => rfl) fun _ _ => ih

theorem startCooldown_keeps : Keeps sinkFrame (fun _ => True) startCooldown := by
  refine Keeps.bind monotonicMs_keeps fun r _ => ?_
  cases r with
  | error e => exact setSyslog_keeps fun _ => rfl
  | ok now => exact setSyslog_keeps fun _ => rfl

theorem connectFailed_keeps (error : ℤ) (deferable : Bool) :
    Keeps sinkIdentity (fun _ => True) (connectFailed error deferable) :=
  Keeps.bind (setSyslog_keeps fun _ => rfl) fun _ _ => Keeps.pure trivial

theorem connectOnce_keeps : Keeps sinkIdentity (fun _ => True) connectOnce := by
  refine Keeps.bind (keeps_identity (noteSyslog_keeps _)) fun _ _ => ?_
  refine Keeps.bind (setSyslog_keeps fun _ => rfl) fun _ _ => ?_
  refine Keeps.bind (keeps_identity syslogSocket_keeps) fun r _ => ?_
  cases r with
  | error e => exact connectFailed_keeps e false
  | ok fd =>
    refine Keeps.bind (P := fun _ => True) (Keeps.ask (fun _ _ => rfl) fun _ _ => trivial)
      fun connect _ => ?_
    refine Keeps.ite (fun _ => ?_) fun _ => ?_
    · exact Keeps.bind (keeps_identity (syslogCloseFd_keeps fd)) fun _ _ => connectFailed_keeps _ _
    · exact Keeps.bind (setSyslog_keeps fun _ => rfl) fun _ _ => Keeps.pure trivial

/-- A failure leaves the identity alone. -/
theorem recordFailure_identity (error : ℤ) :
    Keeps sinkIdentity (fun _ => True) (recordFailure error) :=
  (keeps_identity (recordFailure_keeps error)).mono fun _ _ => trivial

theorem sendRecord_keeps (packet : List UInt8) :
    Keeps sinkIdentity (fun _ => True) (sendRecord packet) := by
  refine Keeps.bind (keeps_identity (sendAttempts_keeps packet _)) fun error _ => ?_
  refine Keeps.ite (fun _ => Keeps.pure trivial) fun _ => ?_
  refine Keeps.ite (fun _ => recordFailure_identity error) fun _ => ?_
  refine Keeps.bind (keeps_identity (noteSyslog_keeps _)) fun _ _ => ?_
  refine Keeps.bind (keeps_identity loggerSyslogClose_keeps) fun _ _ => ?_
  refine Keeps.bind (setSyslog_keeps fun _ => rfl) fun _ _ => ?_
  exact Keeps.bind (keeps_identity startCooldown_keeps) fun _ _ => recordFailure_identity error

theorem reconnectAndSend_keeps (packet : List UInt8) :
    Keeps sinkIdentity (fun _ => True) (reconnectAndSend packet) := by
  refine Keeps.bind (keeps_identity monotonicMs_keeps) fun r _ => ?_
  cases r with
  | error e => exact recordFailure_identity e
  | ok now =>
    refine Keeps.bind (setSyslog_keeps fun w => ?_) fun _ _ => ?_
    · split <;> rfl
    refine Keeps.bind (keeps_identity getSyslog_keeps) fun s _ => ?_
    refine Keeps.ite (fun _ => ?_) fun _ => ?_
    · exact Keeps.bind (setSyslog_keeps fun _ => rfl) fun _ _ => recordFailure_identity _
    refine Keeps.bind (setSyslog_keeps fun _ => rfl) fun _ _ => ?_
    refine Keeps.bind connectOnce_keeps fun connected _ => ?_
    exact Keeps.ite (fun _ => recordFailure_identity _) fun _ => sendRecord_keeps packet

/-- A write does not change what packets are made of besides the record. -/
theorem loggerSyslogWrite_keeps (level : LoggerLevel) (line : Option (List UInt8)) :
    Keeps sinkIdentity (fun _ => True) (loggerSyslogWrite level line) := by
  refine Keeps.bind (setSyslog_keeps fun _ => rfl) fun _ _ => ?_
  cases line with
  | none => exact recordFailure_identity einval
  | some line =>
    refine Keeps.ite (fun _ => recordFailure_identity einval) fun _ => ?_
    refine Keeps.ite (fun _ => recordFailure_identity emsgsize) fun _ => ?_
    refine Keeps.bind (keeps_identity getSyslog_keeps) fun s _ => ?_
    refine Keeps.bind (keeps_identity syslogCall_keeps) fun a _ => ?_
    refine Keeps.ite (fun _ => recordFailure_identity _) fun _ => ?_
    refine Keeps.ite (fun _ => recordFailure_identity eoverflow) fun _ => ?_
    refine Keeps.ite (fun _ => recordFailure_identity emsgsize) fun _ => ?_
    exact Keeps.ite (fun _ => reconnectAndSend_keeps _) fun _ => sendRecord_keeps _

theorem copyPath_keeps (path : Option CString) :
    Keeps sinkIdentity (fun _ => True) (copyPath path) := by
  have hset : ∀ p : CString, Keeps sinkIdentity (fun _ => True)
      (do setSyslog fun s => { s with path := p }; return (0 : ℤ)) :=
    fun p => Keeps.bind (setSyslog_keeps fun _ => rfl) fun _ _ => Keeps.pure trivial
  refine Keeps.ite (fun _ => Keeps.pure trivial) fun _ => ?_
  refine Keeps.ite (fun _ => Keeps.pure trivial) fun _ => ?_
  refine Keeps.ite (fun _ => hset _) fun _ => ?_
  refine Keeps.bind (keeps_identity syslogCall_keeps) fun a _ => ?_
  refine Keeps.ite (fun _ => Keeps.pure trivial) fun _ => ?_
  exact Keeps.ite (fun _ => Keeps.pure trivial) fun _ => hset _

end Identity

section Serving

/-- An accepting `logger_syslog_init` has checked the facility and the identifier, and the sink has
them. -/
theorem loggerSyslogInit_accepts (ident : Option CString) (config : SyslogConfig)
    (w : SyslogWorld) :
    wp (fun _ => True) (loggerSyslogInit ident (some config)) (fun rc w' => rc = 0 →
      FramingAccepted config.facility (identText ident) ∧
        w'.syslog.identity = (identText ident, config.facility, w.syslog.pid)) w := by
  have hreject : ∀ (e : ℤ) (P : Prop) (w' : SyslogWorld), e ≠ 0 →
      wp (fun _ => True) (pure e : SyslogProg ℤ) (fun rc _ => rc = 0 → P) w' :=
    fun e P w' he => wp_pure fun h => absurd h he
  refine wp_bind (wp_modify ?_)
  refine wp_ite (fun _ => wp_pure fun h => absurd h (by decide)) fun hvalid => ?_
  refine wp_bind (wp_modify ?_)
  refine wp_ite (fun _ => wp_pure fun h => absurd h (by decide)) fun hlength => ?_
  refine wp_ite (fun _ => wp_pure fun h => absurd h (by decide)) fun hbytes => ?_
  refine wp_bind (wp_modify ?_)
  have haccepted : FramingAccepted config.facility (identText ident) := by
    refine ⟨?_, ?_, ?_, ?_⟩
    · by_contra h
      exact hvalid (.inl h)
    · by_contra h
      exact hvalid (.inr (.inl (by omega)))
    · exact not_le.mp hlength
    · unfold identText appText
      simpa using hbytes
  -- what is left connects the sink, and does not touch its identity
  refine wp_of_keeps (π := sinkIdentity) (P := fun _ => True) ?_ (fun _ _ => trivial)
    (fun _ _ => trivial) fun rc w' _ hkeeps _ => ⟨haccepted, hkeeps⟩
  refine Keeps.bind (copyPath_keeps config.path) fun rc _ => ?_
  refine Keeps.ite (fun _ => Keeps.pure trivial) fun _ => ?_
  refine Keeps.bind (keeps_identity monotonicMs_keeps) fun r _ => ?_
  cases r with
  | error e => exact Keeps.pure trivial
  | ok now =>
    refine Keeps.bind (setSyslog_keeps fun _ => rfl) fun _ _ => ?_
    refine Keeps.bind connectOnce_keeps fun connected _ => ?_
    refine Keeps.ite (fun _ => Keeps.pure trivial) fun _ => ?_
    exact Keeps.ite (fun _ => Keeps.pure trivial) fun _ => Keeps.pure trivial

/-- A sink of the process `pid` that `logger_syslog_init` accepted with this identifier and
configuration, after any number of writes with any outcomes. -/
inductive SyslogServes (ident : Option CString) (config : SyslogConfig) (pid : ℕ) :
    SyslogWorld → Prop where
  | init {w w' : SyslogWorld} {tape rest : List Answer} : w.syslog.pid = pid →
      (loggerSyslogInit ident (some config)).run w tape = .done 0 w' rest →
      SyslogServes ident config pid w'
  | write {w w' : SyslogWorld} {level : LoggerLevel} {line : Option (List UInt8)}
      {tape rest : List Answer} {rc : ℤ} : SyslogServes ident config pid w →
      (loggerSyslogWrite level line).run w tape = .done rc w' rest →
      SyslogServes ident config pid w'

variable {ident : Option CString} {config : SyslogConfig} {pid : ℕ} {w w' : SyslogWorld}

/-- Writes leave the sink as it was accepted. -/
theorem SyslogServes.identity (h : SyslogServes ident config pid w) :
    FramingAccepted config.facility (identText ident) ∧
      w.syslog.identity = (identText ident, config.facility, pid) := by
  induction h with
  | @init w w' tape rest hpid hrun =>
    have hsound := (loggerSyslogInit_accepts ident config w).run tape
    rw [hrun] at hsound
    rw [← hpid]
    exact hsound rfl
  | @write w w' level line tape rest rc _ hrun ih =>
    have hkeeps : wp (fun _ => True) (loggerSyslogWrite level line)
        (fun _ w'' => w''.syslog.identity = w.syslog.identity) w :=
      wp_of_keeps (loggerSyslogWrite_keeps level line) (fun _ _ => trivial) (fun _ _ => trivial)
        fun _ _ _ h => h
    have hsound := hkeeps.run tape
    rw [hrun] at hsound
    exact ⟨ih.1, hsound.trans ih.2⟩

theorem SyslogServes.fields (h : SyslogServes ident config pid w) :
    w.syslog.ident = identText ident ∧ w.syslog.facility = config.facility ∧
    w.syslog.pid = pid := by
  have hidentity := h.identity.2
  simp only [Syslog.identity, Prod.mk.injEq] at hidentity
  exact hidentity

theorem SyslogServes.accepted (h : SyslogServes ident config pid w) :
    FramingAccepted w.syslog.facility w.syslog.ident := by
  obtain ⟨hident, hfacility, -⟩ := h.fields
  rw [hident, hfacility]
  exact h.identity.1

end Serving

section Writes

variable {w : SyslogWorld} {level : LoggerLevel} {line : List UInt8}

/-- The state of a sink that has counted a record as submitted. -/
def submitted (w : SyslogWorld) : SyslogWorld :=
  { w with syslog := { w.syslog with
      metrics := { w.syslog.metrics with
        submittedRecords := w.syslog.metrics.submittedRecords + 1 } } }

/-- Every datagram that a write sends is the packet of its record, which fits. -/
theorem loggerSyslogWrite_sends (hlevel : level.toNat < LoggerLevel.off.toNat) :
    Effect (loggerSyslogWrite level (some line)) w fun es _ _ _ => ∀ p outcome,
      SyslogEvent.send p outcome ∈ es →
        p = w.syslog.packet level line ∧ p.length ≤ syslogPacketMax := by
  have hreject : ∀ error : ℤ, Effect (recordFailure error) (submitted w) fun es _ _ _ =>
      ∀ p outcome, SyslogEvent.send p outcome ∈ es →
        p = w.syslog.packet level line ∧ p.length ≤ syslogPacketMax := by
    intro error
    refine effect_mono (recordFailure_effect error) ?_
    rintro es n v rc ⟨rfl, -⟩ p outcome hmem
    exact absurd hmem List.not_mem_nil
  refine wp_bind (wp_modify ?_)
  show Effect (if LoggerLevel.off.toNat ≤ level.toNat then _ else _) (submitted w) fun es _ _ _ =>
    ∀ p outcome,
    SyslogEvent.send p outcome ∈ es → p = w.syslog.packet level line ∧ p.length ≤ syslogPacketMax
  refine effect_ite (fun hoff => absurd hoff hlevel.not_ge) fun _ => ?_
  refine effect_ite (fun _ => hreject emsgsize) fun _ => ?_
  refine effect_get (effect_call fun a => ?_)
  refine effect_ite (fun _ => hreject _) fun _ => ?_
  refine effect_ite (fun _ => hreject eoverflow) fun hheader => ?_
  refine effect_ite (fun _ => hreject emsgsize) fun hbody => ?_
  -- the two checks leave room for header and body together
  have hfits : (w.syslog.packet level line).length ≤ syslogPacketMax := by
    have hheader : ¬(w.syslog.header level).length ≥ syslogPacketMax := hheader
    have hbody : ¬(chomp line).length > syslogPacketMax - (w.syslog.header level).length := hbody
    rw [Syslog.packet, List.length_append]
    omega
  have hown : ∀ {es : List SyslogEvent} {n : ℕ} {rc : ℤ},
      SendsOk (w.syslog.packet level line) n es rc → ∀ p outcome,
        SyslogEvent.send p outcome ∈ es →
          p = w.syslog.packet level line ∧ p.length ≤ syslogPacketMax := by
    intro es n rc hsends p outcome hmem
    obtain rfl := hsends.own p outcome hmem
    exact ⟨rfl, hfits⟩
  -- a packet is sent at once, or after a new connection
  refine effect_ite (fun hnone => ?_) fun hsome => ?_
  · have hfd : w.syslog.view.fd = none := Option.isNone_iff_eq_none.mp hnone
    refine effect_mono (reconnectAndSend_effect hfd rfl) ?_
    rintro es n v rc ⟨hwrite, -⟩
    exact hown hwrite.ok.1
  · obtain ⟨fd, hfd⟩ := Option.ne_none_iff_exists'.mp (mt Option.isNone_iff_eq_none.mpr hsome)
    refine effect_mono (sendRecord_effect hfd) ?_
    rintro es n v rc ⟨-, hrecord⟩
    exact hown hrecord.ok.1

/-- A write whose header is formatted, from there on. -/
theorem run_loggerSyslogWrite (hlevel : level.toNat < LoggerLevel.off.toNat)
    (hlength : ¬line.length > syslogPacketMax)
    {a : Answer} (ha : a.ok = true) (tape : List Answer) :
    (loggerSyslogWrite level (some line)).run w (a :: tape) =
      Prog.run
        (if (w.syslog.header level).length ≥ syslogPacketMax then recordFailure eoverflow
        else if (chomp line).length > syslogPacketMax - (w.syslog.header level).length then
          recordFailure emsgsize
        else if w.syslog.fd.isNone then reconnectAndSend (w.syslog.packet level line)
        else sendRecord (w.syslog.packet level line)) (submitted w) tape := by
  have hformatted : ¬(!a.ok) = true := by simpa using ha
  unfold loggerSyslogWrite
  rw [run_bind]
  show Prog.run (if LoggerLevel.off.toNat ≤ level.toNat then _ else _) (submitted w) (a :: tape) = _
  rw [if_neg hlevel.not_ge, if_neg hlength]
  show Prog.run (if (!a.ok) = true then _ else _) (submitted w) tape = _
  rw [if_neg hformatted]
  rfl

/-- A record that is sent is sent at least once. -/
theorem SendsTo.ne_nil {packet : List UInt8} {n : ℕ} {es : List SyslogEvent} {e : ℤ}
    (h : SendsTo packet n es e) (hn : 0 < n) : es ≠ [] := by
  cases h with
  | exhausted => omega
  | full => exact List.cons_ne_nil _ _
  | short => exact List.cons_ne_nil _ _
  | error _ _ => exact List.cons_ne_nil _ _
  | retry _ => exact List.cons_ne_nil _ _

theorem RecordTo.ne_nil {packet : List UInt8} {fd : ℕ} {v v' : SyslogView}
    {es : List SyslogEvent} {rc : ℤ} (h : RecordTo packet fd v es v' rc) : es ≠ [] := by
  cases h with
  | sent hsends => exact hsends.ne_nil (by decide)
  | failed hsends _ => exact hsends.ne_nil (by decide)
  | dropped _ _ => simp

/-- A write whose header is formatted is refused for its size, before it does anything, exactly
when header and body are longer than a packet. -/
theorem loggerSyslogWrite_refused_iff (hlevel : level.toNat < LoggerLevel.off.toNat)
    (hheader : (w.syslog.header level).length < syslogPacketMax) {a : Answer} (ha : a.ok = true)
    {tape rest : List Answer} {rc : ℤ} {w' : SyslogWorld}
    (hrun : (loggerSyslogWrite level (some line)).run w (a :: tape) = .done rc w' rest) :
    (rc = -emsgsize ∧ w'.trace = w.trace) ↔
      syslogPacketMax < (w.syslog.header level).length + (chomp line).length := by
  have hpositive : 0 < (w.syslog.header level).length :=
    List.length_pos_iff.mpr (List.cons_ne_nil _ _)
  have hchomp : line.length ≤ (chomp line).length + 1 := by
    unfold chomp
    split
    · rw [List.length_dropLast]
      omega
    · omega
  have hrefused : ∀ tape rest, (recordFailure emsgsize).run (submitted w) tape =
      .done rc w' rest → rc = -emsgsize ∧ w'.trace = w.trace := by
    intro tape rest hrun
    have hrec : (recordFailure emsgsize).run (submitted w) tape =
        .done (-emsgsize) _ tape := rfl
    rw [hrec] at hrun
    injection hrun with hrc hw _
    exact ⟨hrc.symm, by rw [← hw]; rfl⟩
  by_cases hlength : line.length > syslogPacketMax
  -- the check of the whole line is only an early form of the check of header and body
  · -- too long before it is even formatted, and so with its header
    have hlong : syslogPacketMax < (w.syslog.header level).length + (chomp line).length := by omega
    refine ⟨fun _ => hlong, fun _ => hrefused (a :: tape) rest ?_⟩
    rw [← hrun]
    unfold loggerSyslogWrite
    rw [run_bind]
    show _ = Prog.run (if LoggerLevel.off.toNat ≤ level.toNat then _ else _) (submitted w)
      (a :: tape)
    rw [if_neg hlevel.not_ge, if_pos hlength]
  rw [run_loggerSyslogWrite hlevel hlength ha, if_neg (not_le.mpr hheader)] at hrun
  by_cases hbody : (chomp line).length > syslogPacketMax - (w.syslog.header level).length
  · rw [if_pos hbody] at hrun
    exact ⟨fun _ => by omega, fun _ => hrefused tape rest hrun⟩
  · rw [if_neg hbody] at hrun
    refine ⟨fun h => ?_, fun h => by omega⟩
    -- the record fits: the clock is read or the packet is sent
    have hmoves : Effect (if w.syslog.fd.isNone then reconnectAndSend (w.syslog.packet level line)
        else sendRecord (w.syslog.packet level line)) (submitted w) fun es _ _ _ => es ≠ [] := by
      refine effect_ite (fun hnone => ?_) fun hsome => ?_
      · have hfd : w.syslog.view.fd = none := Option.isNone_iff_eq_none.mp hnone
        exact effect_mono (reconnectAndSend_effect hfd rfl) fun _ _ _ _ h => h.2
      · obtain ⟨fd, hfd⟩ := Option.ne_none_iff_exists'.mp (mt Option.isNone_iff_eq_none.mpr hsome)
        exact effect_mono (sendRecord_effect hfd) fun _ _ _ _ h => h.2.ne_nil
    have hsound := hmoves.run tape
    rw [hrun] at hsound
    obtain ⟨es, htrace, hne⟩ := hsound
    have hsame : (submitted w).trace ++ es = w.trace := htrace.symm.trans h.2
    exact absurd (List.append_right_eq_self.mp hsame) hne

end Writes

section Statement

/-- What a packet of the sink `s` says, and that no other record of any sink has it. -/
structure PacketReadable (s : Syslog) (level : LoggerLevel) (line : List UInt8)
    (ident : CString) (facility pid : ℕ) : Prop where
  decodes : ∃ body, decodeSyslog (s.packet level line) =
      some ⟨facility, level.priority, ident, pid, body⟩ ∧
    (line.getLast? = some 10 → line = body ++ [10]) ∧ (line.getLast? ≠ some 10 → body = line)
  unique : ∀ {ident' : Option CString} {config' : SyslogConfig} {pid' : ℕ} {w' : SyslogWorld}
    {level' : LoggerLevel} {line' : List UInt8}, SyslogServes ident' config' pid' w' →
      w'.syslog.packet level' line' = s.packet level line →
      config'.facility ||| level'.priority = facility ||| level.priority ∧
        identText ident' = ident ∧ pid' = pid ∧ chomp line' = chomp line

/-- What a write of a record over the sink `s` did: `es` are its events. -/
structure WriteFramed (s : Syslog) (level : LoggerLevel) (line : List UInt8)
    (tape : List Answer) (rc : ℤ) (es : List SyslogEvent) : Prop where
  /-- Every datagram is the packet of the record, and at most 8192 bytes long. -/
  sends : ∀ p outcome, SyslogEvent.send p outcome ∈ es →
    p = s.packet level line ∧ p.length ≤ 8192
  /-- When the formatter answers with a header, the record is refused with `EMSGSIZE`, before
  anything is done, if and only if header and body do not fit. -/
  refused : ∀ a, tape.head? = some a → a.ok = true → (s.header level).length < 8192 →
    ((rc = -emsgsize ∧ es = []) ↔ 8192 < (s.header level).length + (chomp line).length)

end Statement

/-- The framing of syslog records. For a sink that `logger_syslog_init` accepted, whatever was
written before: every datagram of a write is the packet of its record, of at most 8192 bytes; the
packet is read back as facility, severity, identifier, process number and the line without a final
newline; packets of any two records are equal only if these are; and a record that does not fit is
refused, never shortened. -/
theorem syslog_framing {ident : Option CString} {config : SyslogConfig} {pid : ℕ}
    {w w' : SyslogWorld} (hserves : SyslogServes ident config pid w) {level : LoggerLevel}
    (hlevel : level.toNat < LoggerLevel.off.toNat) (line : List UInt8)
    {tape rest : List Answer} {rc : ℤ}
    (hrun : (loggerSyslogWrite level (some line)).run w tape = .done rc w' rest) :
    PacketReadable w.syslog level line (identText ident) config.facility pid ∧
      ∃ es, w'.trace = w.trace ++ es ∧ WriteFramed w.syslog level line tape rc es := by
  obtain ⟨hident, hfacility, hpid⟩ := hserves.fields
  refine ⟨⟨⟨chomp line, ?_, chomp_spec line⟩, ?_⟩, ?_⟩
  · rw [decodeSyslog_packet hserves.accepted, hident, hfacility, hpid]
  · intro ident' config' pid' w₂ level' line' hserves' heq
    obtain ⟨hident', hfacility', hpid'⟩ := hserves'.fields
    obtain ⟨hf, hs, hi, hp, hb⟩ := packet_injective hserves'.accepted hserves.accepted heq
    rw [← hident', ← hfacility', ← hpid', ← hident, ← hfacility, ← hpid, hf, hs]
    exact ⟨rfl, hi, hp, hb⟩
  · have heffect : Effect (loggerSyslogWrite level (some line)) w _ :=
      loggerSyslogWrite_sends hlevel
    have hsound := heffect.run tape
    rw [hrun] at hsound
    obtain ⟨es, htrace, hsends⟩ := hsound
    refine ⟨es, htrace, hsends, ?_⟩
    intro a ha hok hheader
    obtain ⟨tape, rfl⟩ : ∃ tape', tape = a :: tape' := List.head?_eq_some_iff.mp ha
    have hiff := loggerSyslogWrite_refused_iff hlevel hheader hok hrun
    rw [htrace, List.append_right_eq_self] at hiff
    exact hiff

/-- A sink of process 7 with all defaults, just accepted. -/
def acceptedSink : SyslogWorld :=
  ((loggerSyslogInit none (some defaultSyslogConfig)).run (syslogStart 7) [{}, {}, {}]).state

theorem acceptedSink_serves : SyslogServes none defaultSyslogConfig 7 acceptedSink := by
  have hrun : (loggerSyslogInit none (some defaultSyslogConfig)).run (syslogStart 7) [{}, {}, {}] =
      .done 0 acceptedSink [] := rfl
  exact SyslogServes.init rfl hrun

/-- The line `A` with its newline is sent whole. -/
theorem syslog_framing_line :
    ∃ (w : SyslogWorld) (rc : ℤ),
      PacketReadable acceptedSink.syslog .info [65, 10] (identText none) 8 7 ∧
      ∃ es, w.trace = acceptedSink.trace ++ es ∧
        WriteFramed acceptedSink.syslog .info [65, 10] [{}, { count := 99 }] rc es :=
  ⟨_, _, syslog_framing acceptedSink_serves
    (show LoggerLevel.info.toNat < LoggerLevel.off.toNat by decide) [65, 10]
    (show _ = Outcome.done _ _ [] from rfl)⟩

end CLogger
