import CLogger.Errno
import CLogger.Lib.Decimal
import CLogger.Record

/-!
# Formatting a record

The part of `logger.c` that turns a log call into a record (`capture_mask_from_config`,
`prepare_record_metadata`, the text of `vlog_body`) and `logger_format.c`, which turns a record into
a line: the bounded `append`, the thread-local timestamp cache, the strict checks and the truncation
mark. The conversion of a second to local time is a parameter, and so is the answer of each
`vsnprintf` that `append` runs.
-/

namespace CLogger

/-- The bytes of an ASCII text. -/
def ascii (s : String) : CString := s.toList.map fun c => UInt8.ofNat c.toNat

/-- `logger_detail_t`. -/
inductive LoggerDetail where
  | minimal | normal | verbose | debug
  deriving DecidableEq, Repr

/-- The numeric value of a detail level. -/
def LoggerDetail.toNat : LoggerDetail → ℕ
  | .minimal => 0 | .normal => 1 | .verbose => 2 | .debug => 3

/-- The fields of a logger that decide what its lines show. They are set from the configuration at
construction and do not change. -/
structure LineConfig where
  detail : LoggerDetail
  includePid : Bool
  includeTid : Bool
  includeSource : Bool
  deriving DecidableEq, Repr

/-- The bits `LOGGER_CAPTURE_*`: those of a record's metadata, and the two of the process. -/
structure CaptureMask where
  record : MetadataMask
  pid : Bool
  tid : Bool
  deriving DecidableEq, Repr

/-- `capture_mask_from_config`. -/
def captureMaskFromConfig (cfg : LineConfig) : CaptureMask :=
  let normal : Bool := LoggerDetail.normal.toNat ≤ cfg.detail.toNat
  let verbose : Bool := LoggerDetail.verbose.toNat ≤ cfg.detail.toNat
  let debug : Bool := LoggerDetail.debug.toNat ≤ cfg.detail.toNat
  { record := ⟨normal, debug, debug && cfg.includeSource⟩
    pid := verbose && cfg.includePid
    tid := verbose && cfg.includeTid }

/-- A string of the caller: its bytes up to the terminator. -/
structure TerminatedString where
  bytes : CString
  no_nul : 0 ∉ bytes

/-- The pointer a caller passes: NULL or one of its strings. -/
def SourceRef.ofCaller : Option TerminatedString → SourceRef
  | none => .null
  | some s => .borrowed s.bytes

/-- The calling thread's context, `g_ctx`. -/
structure LoggerContext where
  requestId : Option TerminatedString
  sessionId : Option TerminatedString
  traceId : Option TerminatedString

/-- `copy_ctx`. -/
def copyCtx (d : Buf) (n : ℕ) : Option TerminatedString → Buf
  | none => d.put 0 0
  | some s =>
    let length := strnlen s.bytes.buf (n - 1)
    (memcpy d s.bytes.buf length).put length 0

/-- `capture_context`. -/
def captureContext (c : LoggerContext) (m : LoggerMessage) : LoggerMessage :=
  { m with
    requestId := copyCtx m.requestId 64 c.requestId
    sessionId := copyCtx m.sessionId 64 c.sessionId
    traceId := copyCtx m.traceId 64 c.traceId }

/-- A call of a logging function, with what it finds: the process and thread numbers, the context
of the thread, the time of the clock and the bytes its format expands to. -/
structure VlogCall where
  level : LoggerLevel
  module : Option TerminatedString
  file : Option TerminatedString
  line : ℤ
  function : Option TerminatedString
  pid : ℤ
  tid : ℤ
  context : LoggerContext
  ts : Timespec
  formatted : List UInt8

/-- `prepare_record_metadata`. -/
def prepareRecordMetadata (mask : CaptureMask) (c : VlogCall) (m : LoggerMessage) : LoggerMessage :=
  -- the mask says what is captured; the rest of the record stays zero
  let m := { m with metadataMask := mask.record }
  let m := if mask.record.module then { m with module := .ofCaller c.module } else m
  let m := if mask.pid then { m with pid := c.pid } else m
  let m := if mask.tid then { m with tid := c.tid } else m
  let m := if mask.record.source then
    { m with file := .ofCaller c.file, line := c.line, func := .ofCaller c.function } else m
  if mask.record.context then captureContext c.context m else m

/-- Bytes written into an array from a position on. -/
def Buf.overlay (dst : Buf) (pos : ℕ) (bytes : List UInt8) : Buf :=
  fun i => if pos ≤ i ∧ i < pos + bytes.length then bytes.getD (i - pos) 0 else dst i

/-- What `vsnprintf` leaves at a position of an array when the expansion is `bytes` and `size`
bytes are available: as many bytes as fit before the terminator. -/
def vsnprintf (dst : Buf) (pos size : ℕ) (bytes : List UInt8) : Buf :=
  if size = 0 then dst else dst.overlay pos (bytes.take (size - 1) ++ [0])

/-- The marker of `logger_text_mark_truncated`, terminated. -/
def truncationMarker : List UInt8 := ascii " [truncated]" ++ [0]

/-- `logger_text_mark_truncated`. -/
def loggerTextMarkTruncated (text : Buf) (capacity : ℕ) : Buf :=
  if truncationMarker.length ≤ capacity then
    text.overlay (capacity - truncationMarker.length) truncationMarker
  else if 2 ≤ capacity then (text.put (capacity - 2) 126).put (capacity - 1) 0
  else text

/-- The record of a logging call before its text: metadata and time, in a zeroed message. -/
def vlogMetadata (mask : CaptureMask) (c : VlogCall) : LoggerMessage :=
  { prepareRecordMetadata mask c { LoggerMessage.zero with level := c.level } with ts := c.ts }

/-- The record `vlog_body` builds under a capture mask, once the clock has been read and the text
has been formatted. A longer text is cut and marked. -/
def vlogRecord (mask : CaptureMask) (c : VlogCall) : LoggerMessage :=
  let m := vlogMetadata mask c
  let text := vsnprintf m.text 0 loggerMessageMax c.formatted
  let stored := if c.formatted.length < loggerMessageMax then c.formatted.length
    -- the stored length is that of the cut text, while `vsnprintf` returns the whole
    else loggerMessageMax - 1
  { m with
    text := if loggerMessageMax ≤ c.formatted.length then
      loggerTextMarkTruncated text loggerMessageMax else text
    textLen := stored % 65536 }

/-- `logger_level_name`. -/
def loggerLevelName : LoggerLevel → CString
  | .trace => ascii "TRACE" | .debug => ascii "DEBUG" | .info => ascii "INFO"
  | .warn => ascii "WARN" | .error => ascii "ERROR" | .fatal => ascii "FATAL"
  | .off => ascii "OFF"
  | .beyond _ => ascii "UNKNOWN"

/-- `logger_basename`. -/
def loggerBasename : Option CString → CString
  | none => unknownText
  | some path => afterLastSlash path

/-- `%d` and `%ld`. -/
def printSigned (z : ℤ) : CString :=
  if z < 0 then 45 :: Decimal.atLeast 1 z.natAbs else Decimal.atLeast 1 z.natAbs

/-- `%0wld`: the sign counts as one of the `w` characters. -/
def printPadded (w : ℕ) (z : ℤ) : CString :=
  if z < 0 then 45 :: Decimal.atLeast (w - 1) z.natAbs else Decimal.atLeast w z.natAbs

/-- `%-ws`. -/
def printLeft (w : ℕ) (s : CString) : CString := s ++ List.replicate (w - s.length) 32

/-- `struct timestamp_cache`, each array as the string it holds. -/
structure TimestampCache where
  sec : ℤ
  valid : Bool
  date : CString
  zone : CString
  deriving DecidableEq, Repr

/-- The cache of a thread that has not formatted yet. -/
def TimestampCache.zero : TimestampCache := ⟨0, false, [], []⟩

/-- The conversions of a second: `localtime_r`, and the two `strftime` calls of `format_line`. -/
structure TimeLib (τ : Type) where
  localtimeR : ℤ → Option τ
  strftimeDate : τ → Option CString
  strftimeZone : τ → Option CString

/-- The conversion `format_line` makes of a second; `none` when one of its calls fails. It takes a
`strftime` that returns the length 0 for a failed one, so a text that is empty counts as none. -/
def TimeLib.convert {τ : Type} (lib : TimeLib τ) (sec : ℤ) : Option (CString × CString) := do
  let tm ← lib.localtimeR sec
  let date ← (lib.strftimeDate tm).filter (· ≠ [])
  -- a zone of length 0 is a failure, like an empty date
  let zone ← (lib.strftimeZone tm).filter (· ≠ [])
  return (date, zone)

/-- The refresh of the cache in `format_line`. -/
def TimestampCache.refresh {τ : Type} (lib : TimeLib τ) (cache : TimestampCache) (sec : ℤ) :
    TimestampCache :=
  if !cache.valid || cache.sec != sec then
    match lib.convert sec with
    -- a failed conversion prints a text of its own and stays invalid
    | none => { cache with valid := false, date := ascii "time-unavailable", zone := [] }
    | some (date, zone) => ⟨sec, true, date, zone⟩
  else cache

/-- The digit at a position of a string, as an `unsigned int`. -/
def digitAt (s : CString) (i : ℕ) : ℕ := (s.getD i 0).toNat - 48

/-- The two-digit number at a position of a string. -/
def twoDigits (s : CString) (i : ℕ) : ℕ := digitAt s i * 10 + digitAt s (i + 1)

/-- A byte is a decimal digit. -/
def isDigit (c : UInt8) : Bool := 48 ≤ c && c ≤ 57

/-- The delimiter `canonical_time` expects at a position of the date, `0` for a digit. -/
def dateDelimiter (i : ℕ) : UInt8 :=
  if i = 4 ∨ i = 7 then 45 else if i = 10 then 84 else if i = 13 ∨ i = 16 then 58 else 0

/-- `canonical_time`. -/
def canonicalTime (cache : TimestampCache) : Bool :=
  let d := cache.date
  let z := cache.zone
  let year := digitAt d 0 * 1000 + digitAt d 1 * 100 + digitAt d 2 * 10 + digitAt d 3
  let month := twoDigits d 5
  let day := twoDigits d 8
  let leap : Bool := year % 4 = 0 ∧ (year % 100 ≠ 0 ∨ year % 400 = 0)
  cache.valid && d.length == 19 && z.length == 5 &&
  ((List.range 19).all fun i =>
    if dateDelimiter i ≠ 0 then d.getD i 0 == dateDelimiter i else isDigit (d.getD i 0)) &&
  (z.getD 0 0 == 43 || z.getD 0 0 == 45) &&
  ((List.range 4).all fun i => isDigit (z.getD (i + 1) 0)) &&
  -- the ranges: second 60 is a leap second
  !(year == 0 || month == 0 || decide (12 < month) || day == 0 || decide (23 < twoDigits d 11) ||
    decide (59 < twoDigits d 14) || decide (60 < twoDigits d 17) || decide (23 < twoDigits z 1) ||
    decide (59 < twoDigits z 3)) &&
  decide (day ≤ [31, 28, 31, 30, 31, 30, 31, 31, 30, 31, 30, 31].getD (month - 1) 0 +
    if month = 2 ∧ leap then 1 else 0)

/-- A `vsnprintf` of `append` that returned a negative value: `errno`, and the bytes it left in the
room it was given. -/
structure VsnprintfFailure where
  errno : ℤ
  left : Buf

/-- The answers of the `vsnprintf` calls of one formatting: `none`, or no more entries, is
success. -/
abbrev VsnprintfAnswers := List (Option VsnprintfFailure)

/-- `struct line_buffer`. -/
structure LineBuffer where
  out : Buf
  cap : ℕ
  used : ℕ
  strict : Bool
  truncated : Bool

/-- The label `overflow` of `append`. -/
def LineBuffer.overflow (line : LineBuffer) : ℤ × LineBuffer :=
  if line.strict then (-eoverflow, line) else (0, { line with truncated := true })

/-- `append`, the expansion of the format being `bytes`. A call that finds the line full runs no
`vsnprintf`. -/
def append (line : LineBuffer) (bytes : List UInt8) (answers : VsnprintfAnswers) :
    (ℤ × LineBuffer) × VsnprintfAnswers :=
  let room := line.cap - line.used
  -- one byte is kept for the terminator
  if line.cap - 1 ≤ line.used then (line.overflow, answers)
  else match answers with
    | some failure :: rest =>
      let line := { line with
        out := fun i => if line.used ≤ i ∧ i < line.cap then failure.left i else line.out i }
      let rc := -(if failure.errno ≠ 0 then failure.errno else eilseq)
      -- `EOVERFLOW` of `vsnprintf` is treated as a line that is full
      if rc ≠ -eoverflow then ((rc, line), rest) else (line.overflow, rest)
    -- answers that have run out stand for conversions that work
    | _ =>
      let line := { line with out := vsnprintf line.out line.used room bytes }
      if room ≤ bytes.length then
        ({ line with used := line.used + (room - 1) }.overflow, answers.tail)
      else ((0, { line with used := line.used + bytes.length }), answers.tail)

/-- Consecutive calls of `append`, each followed by `if (rc) return rc`. -/
def appendAll (line : LineBuffer) : List (List UInt8) → VsnprintfAnswers → ℤ × LineBuffer
  | [], _ => (0, line)
  | bytes :: rest, answers =>
    let result := append line bytes answers
    if result.1.1 ≠ 0 then result.1 else appendAll result.1.2 rest result.2

/-- The context fields of a line, each shown when it is not empty. -/
def contextFields (m : LoggerMessage) : List (List UInt8) :=
  (if m.requestId 0 ≠ 0 then [ascii " request=" ++ cstr m.requestId 64] else []) ++
  (if m.sessionId 0 ≠ 0 then [ascii " session=" ++ cstr m.sessionId 64] else []) ++
  (if m.traceId 0 ≠ 0 then [ascii " trace=" ++ cstr m.traceId 64] else [])

/-- The expansions of the `append` calls of `format_line`, in source order. -/
def lineFields (l : LineConfig) (time : TimestampCache) (m : LoggerMessage) : List (List UInt8) :=
  [time.date ++ [46] ++ printPadded 6 (m.ts.nsec.tdiv 1000) ++ time.zone ++ [32] ++
    printLeft 5 (loggerLevelName m.level)] ++
  (if LoggerDetail.verbose.toNat ≤ l.detail.toNat then
    (if l.includePid then [ascii " pid=" ++ printSigned m.pid] else []) ++
    (if l.includeTid then [ascii " tid=" ++ printSigned m.tid] else [])
  else []) ++
  (if LoggerDetail.normal.toNat ≤ l.detail.toNat then
    [ascii " [" ++ (m.module.deref m.moduleStorage 128).getD appText ++ ascii "]"]
  else []) ++
  (if LoggerDetail.debug.toNat ≤ l.detail.toNat then
    contextFields m ++
    (if l.includeSource then
      [ascii " " ++ loggerBasename (m.file.deref m.fileStorage 256) ++ ascii ":" ++
        printSigned m.line ++ ascii " " ++ (m.func.deref m.functionStorage 128).getD unknownText ++
        ascii "()"]
    else [])
  else []) ++
  [ascii " " ++ cstr m.text loggerMessageMax]

/-- What a formatting leaves: the returned code, the caller's array, `*length`, and the cache. -/
structure FormatResult where
  rc : ℤ
  out : Option Buf
  length : ℕ
  cache : TimestampCache

/-- The end of `format_line` once every field has been appended: the mark, the line feed and the
terminator. -/
def finishLine (line : LineBuffer) (cap : ℕ) : Buf × ℕ :=
  -- the mark stands before the byte of the line feed
  let out := if line.truncated then loggerTextMarkTruncated line.out (cap - 1) else line.out
  ((out.put line.used 10).put (line.used + 1) 0, line.used + 1)

/-- `format_line`; `*length` is zero when it is called. -/
def formatLine {τ : Type} (lib : TimeLib τ) (l : Option LineConfig) (m : Option LoggerMessage)
    (out : Option Buf) (cap : ℕ) (strict : Bool) (answers : VsnprintfAnswers)
    (cache : TimestampCache) : FormatResult :=
  if cap = 0 then ⟨if strict then -eoverflow else 0, out, 0, cache⟩
  else match out, l, m with
    | some out, some l, some m =>
      let out := out.put 0 0
      if cap = 1 then ⟨if strict then -eoverflow else 0, some out, 0, cache⟩
      -- only the strict entry point looks at the nanoseconds
      else if strict && (decide (m.ts.nsec < 0) || decide (1000000000 ≤ m.ts.nsec)) then
        ⟨-einval, some out, 0, cache⟩
      else
        let cache := cache.refresh lib m.ts.sec
        if strict && !canonicalTime cache then ⟨-eoverflow, some out, 0, cache⟩
        else
          let result := appendAll ⟨out, cap - 1, 0, strict, false⟩ (lineFields l cache m) answers
          if result.1 ≠ 0 then ⟨result.1, some result.2.out, 0, cache⟩
          else
            let finished := finishLine result.2 cap
            ⟨0, some finished.1, finished.2, cache⟩
    | out, _, _ => ⟨-einval, out, 0, cache⟩

/-- The end of both entry points: a failed formatting leaves an empty string. -/
def FormatResult.emptied (r : FormatResult) (cap : ℕ) : FormatResult :=
  if r.rc ≠ 0 ∧ cap ≠ 0 then { r with out := r.out.map fun b => b.put 0 0 } else r

/-- `logger_format_line`: it returns the length; `rc` is what it stores, negated, in `errno`. -/
def loggerFormatLine {τ : Type} (lib : TimeLib τ) (l : Option LineConfig)
    (m : Option LoggerMessage) (out : Option Buf) (cap : ℕ) (answers : VsnprintfAnswers)
    (cache : TimestampCache) : FormatResult :=
  (formatLine lib l m out cap false answers cache).emptied cap

/-- `logger_format_line_checked`, its `length` pointer not being NULL. -/
def loggerFormatLineChecked {τ : Type} (lib : TimeLib τ) (l : Option LineConfig)
    (m : Option LoggerMessage) (out : Option Buf) (cap : ℕ) (answers : VsnprintfAnswers)
    (cache : TimestampCache) : FormatResult :=
  (formatLine lib l m out cap true answers cache).emptied cap

/-- What a thread can do to its timestamp cache. -/
inductive FormatOp where
  /-- `format_line`, from either entry point. -/
  | line (l : Option LineConfig) (m : Option LoggerMessage) (out : Option Buf) (cap : ℕ)
      (strict : Bool) (answers : VsnprintfAnswers)
  /-- `logger_format_reset_child`. -/
  | resetChild

/-- The cache a formatting operation leaves. -/
def FormatOp.run {τ : Type} (lib : TimeLib τ) (cache : TimestampCache) : FormatOp → TimestampCache
  | .line l m out cap strict answers => (formatLine lib l m out cap strict answers cache).cache
  | .resetChild => { cache with valid := false }

/-- The cache of a thread after the formatting operations it has run. -/
def cacheAfter {τ : Type} (lib : TimeLib τ) (ops : List FormatOp) : TimestampCache :=
  ops.foldl (FormatOp.run lib) .zero

end CLogger
