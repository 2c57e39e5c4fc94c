import CLogger.Format.Model

/-!
# The line of a record

What the line of a record says, from the configuration and the record alone: its pieces in their
order, the condition under which each of them is shown and the text it shows. `format_line` makes
the same pieces with its nested tests (`lineFields_eq_linePieces`), so that its callers can speak of
the line without speaking of its code.

## Main definitions

* `LinePiece.Shown`: the detail level, the include flags and the context strings select a piece;
* `fullLine`: the whole line, with the date and the zone it is given.
-/

namespace CLogger

/-- The pieces of a line, in the order in which they stand in it. -/
inductive LinePiece where
  | header | pid | tid | module | request | session | trace | source | text
  deriving DecidableEq, Repr

namespace LinePiece

/-- Every piece, in the order of the line. -/
def all : List LinePiece := [header, pid, tid, module, request, session, trace, source, text]

/-- The least detail level that shows a piece. -/
def detail : LinePiece → LoggerDetail
  | header | text => .minimal
  | module => .normal
  | pid | tid => .verbose
  | request | session | trace | source => .debug

/-- What a piece needs besides its level: an include flag of the configuration, or a context string
of the record that is not empty. -/
def Wanted (l : LineConfig) (m : LoggerMessage) : LinePiece → Bool
  | pid => l.includePid
  | tid => l.includeTid
  | source => l.includeSource
  | request => cstr m.requestId 64 ≠ []
  | session => cstr m.sessionId 64 ≠ []
  | trace => cstr m.traceId 64 ≠ []
  | header | module | text => true

/-- The piece is part of the line. -/
def Shown (l : LineConfig) (m : LoggerMessage) (p : LinePiece) : Prop :=
  p.detail.toNat ≤ l.detail.toNat ∧ p.Wanted l m = true

/-- Whether a piece is part of the line is decidable. -/
instance (l : LineConfig) (m : LoggerMessage) (p : LinePiece) : Decidable (p.Shown l m) :=
  inferInstanceAs (Decidable (_ ∧ _))

end LinePiece

/-- The column of the level: its name in five characters, or `UNKNOWN` for a value that is not a
level. -/
def levelColumn (level : LoggerLevel) : List UInt8 :=
  ascii ((["TRACE", "DEBUG", "INFO ", "WARN ", "ERROR", "FATAL", "OFF  "][level.toNat]?).getD
    "UNKNOWN")

/-- The fraction of the second: six digits, the microseconds. Nanoseconds that are none are printed
as `%06ld` prints any number. -/
def microseconds (nsec : ℤ) : List UInt8 :=
  if 0 ≤ nsec ∧ nsec < 1000000000 then Decimal.field 6 (nsec.toNat / 1000)
  else printPadded 6 (nsec.tdiv 1000)

/-- The time of a line: date, fraction and zone. -/
def timeColumn (time : CString × CString) (nsec : ℤ) : List UInt8 :=
  time.1 ++ [46] ++ microseconds nsec ++ time.2

/-- The text of a piece. -/
def LinePiece.bytes (time : CString × CString) (m : LoggerMessage) : LinePiece → List UInt8
  | header => timeColumn time m.ts.nsec ++ [32] ++ levelColumn m.level
  | pid => ascii " pid=" ++ printSigned m.pid
  | tid => ascii " tid=" ++ printSigned m.tid
  | module => ascii " [" ++ m.moduleText ++ ascii "]"
  | request => ascii " request=" ++ cstr m.requestId 64
  | session => ascii " session=" ++ cstr m.sessionId 64
  | trace => ascii " trace=" ++ cstr m.traceId 64
  | source => ascii " " ++ m.fileText ++ ascii ":" ++ printSigned m.line ++ ascii " " ++
      m.functionText ++ ascii "()"
  | text => ascii " " ++ cstr m.text loggerMessageMax

/-- The texts of those among some pieces that are shown. -/
def shownTexts (l : LineConfig) (time : CString × CString) (m : LoggerMessage)
    (ps : List LinePiece) : List (List UInt8) :=
  ps.flatMap fun p => if p.Shown l m then [p.bytes time m] else []

/-- The pieces of the line of a record. -/
def linePieces (l : LineConfig) (time : CString × CString) (m : LoggerMessage) :
    List (List UInt8) := shownTexts l time m LinePiece.all

/-- The whole line of a record, without its line feed. -/
def fullLine (l : LineConfig) (time : CString × CString) (m : LoggerMessage) : List UInt8 :=
  (linePieces l time m).flatten

/-- What stands behind the level in the line of a record. It does not depend on the time. -/
def lineTail (l : LineConfig) (m : LoggerMessage) : List UInt8 :=
  (shownTexts l ([], []) m LinePiece.all.tail).flatten

variable (l : LineConfig) (m : LoggerMessage)

/-- The column of the level is the name of the level, padded. -/
theorem printLeft_loggerLevelName (level : LoggerLevel) :
    printLeft 5 (loggerLevelName level) = levelColumn level := by
  cases level with
  | beyond excess =>
    have hbeyond : ["TRACE", "DEBUG", "INFO ", "WARN ", "ERROR", "FATAL", "OFF  "][7 + excess]? =
        none := List.getElem?_eq_none (Nat.le_add_right 7 excess)
    rw [levelColumn, LoggerLevel.toNat, hbeyond]
    rfl
  | _ => rfl

/-- The fraction of the second is what `%06ld` prints of the microseconds. -/
theorem printPadded_microseconds (nsec : ℤ) :
    printPadded 6 (nsec.tdiv 1000) = microseconds nsec := by
  rw [microseconds]
  split
  · rename_i hrange
    have hdiv : nsec.tdiv 1000 = ((nsec.toNat / 1000 : ℕ) : ℤ) := by
      rw [Int.tdiv_eq_ediv_of_nonneg hrange.1]
      omega
    have hlt : nsec.toNat / 1000 < 10 ^ 6 := by omega
    rw [hdiv, printPadded, if_neg (by omega), Int.natAbs_natCast,
      Decimal.atLeast_eq_field (by decide) hlt]
  · rfl

/-- A context string is empty exactly when its first byte is the terminator. -/
theorem cstr_ne_nil_iff (b : Buf) {cap : ℕ} (hcap : 0 < cap) : cstr b cap ≠ [] ↔ b 0 ≠ 0 := by
  obtain ⟨n, rfl⟩ : ∃ n, cap = n + 1 := ⟨cap - 1, by omega⟩
  rw [cstr, strnlen_succ]
  by_cases hzero : b 0 = 0 <;> simp [hzero]

/-- The code of `format_line` makes the pieces of the line, in their order. -/
theorem lineFields_eq_linePieces (time : TimestampCache) :
    lineFields l time m = linePieces l (time.date, time.zone) m := by
  have hheader : time.date ++ [46] ++ printPadded 6 (m.ts.nsec.tdiv 1000) ++ time.zone ++ [32] ++
      printLeft 5 (loggerLevelName m.level) =
      LinePiece.header.bytes (time.date, time.zone) m := by
    rw [printPadded_microseconds, printLeft_loggerLevelName]
    rfl
  have hmodule : (m.module.deref m.moduleStorage 128).getD appText = m.moduleText := rfl
  have hsource : loggerBasename (m.file.deref m.fileStorage 256) = m.fileText := by
    rw [LoggerMessage.fileText]
    cases m.file.deref m.fileStorage 256 <;> rfl
  have hfunction : (m.func.deref m.functionStorage 128).getD unknownText = m.functionText := rfl
  obtain ⟨level, includePid, includeTid, includeSource⟩ := l
  rw [lineFields, contextFields, hheader, hmodule, hsource, hfunction, linePieces, shownTexts]
  cases level <;>
    simp [LinePiece.all, LinePiece.Shown, LinePiece.detail, LinePiece.Wanted, LoggerDetail.toNat,
      cstr_ne_nil_iff, LinePiece.bytes]

/-- The whole line is what the code of `format_line` makes. -/
theorem flatten_lineFields (time : TimestampCache) :
    (lineFields l time m).flatten = fullLine l (time.date, time.zone) m :=
  congrArg List.flatten (lineFields_eq_linePieces l m time)

/-- Only the first piece of a line depends on the time. -/
theorem shownTexts_tail (time time' : CString × CString) :
    shownTexts l time m LinePiece.all.tail = shownTexts l time' m LinePiece.all.tail := by
  refine List.flatMap_congr fun p hp => ?_
  have hbytes : p.bytes time m = p.bytes time' m := by
    cases p with
    | header => exact absurd hp (by decide)
    | _ => rfl
  rw [hbytes]

/-- A line starts with its time, and what follows does not depend on the time. -/
theorem fullLine_eq (time : CString × CString) : fullLine l time m =
    time.1 ++ [46] ++ microseconds m.ts.nsec ++ time.2 ++ [32] ++ levelColumn m.level ++
      lineTail l m := by
  have hshown : LinePiece.header.Shown l m := ⟨Nat.zero_le _, rfl⟩
  rw [fullLine, linePieces, lineTail, ← shownTexts_tail l m time]
  show (shownTexts l time m (LinePiece.header :: LinePiece.all.tail)).flatten = _
  rw [shownTexts, List.flatMap_cons, if_pos hshown]
  rfl

end CLogger
