import Mathlib.Data.List.Basic
import Mathlib.Data.List.TakeWhile
import Mathlib.Data.UInt
import Mathlib.Tactic.Common

/-!
# Log records

The record types of `logger_record.h` and `logger_queue.h` and the two copies between them:
`queueRecordPack`, from the caller's message into a queue slot, and `queueRecordUnpack`, from the
slot into the worker's batch entry. Neither copy is atomic, so each is given as the list of its
field writes, in source order; running the whole list is the C function.

A `char` array is its content `Buf`. The arrays are reused, so bytes that a copy does not write
stay what they were. What a reader can see of a record, up to the terminators and lengths it
obeys, is `RecordContent`; `content_unpack_pack` says that packing a message and unpacking the
slot gives the content of that message, whatever the slot and the batch entry held before.
-/

namespace CLogger

/-- The values of `logger_level_t`: its enumerators, and the integers above the last of them, which
the enumeration can hold too. -/
inductive LoggerLevel where
  | trace | debug | info | warn | error | fatal | off
  | beyond (excess : ℕ)
  deriving DecidableEq, Repr

/-- The numeric value of a level. -/
def LoggerLevel.toNat : LoggerLevel → ℕ
  | .trace => 0 | .debug => 1 | .info => 2 | .warn => 3 | .error => 4 | .fatal => 5 | .off => 6
  | .beyond excess => 7 + excess

/-- `struct timespec`. -/
structure Timespec where
  /-- Seconds, `tv_sec`. -/
  sec : ℤ
  /-- Nanoseconds, `tv_nsec`. -/
  nsec : ℤ
  deriving DecidableEq, Repr

/-- The content of a `char` array; the array's size bounds the indices that are used. -/
abbrev Buf := ℕ → UInt8

/-- The array of an object that has been zeroed. -/
def Buf.zero : Buf := fun _ => 0

/-- `memcpy(dst, src, n)`. -/
def memcpy (dst src : Buf) (n : ℕ) : Buf := fun i => if i < n then src i else dst i

/-- The assignment `buf[i] = v`. -/
def Buf.put (b : Buf) (i : ℕ) (v : UInt8) : Buf := fun j => if j = i then v else b j

/-- `strnlen(b, n)`: the index of the first NUL below `n`, or `n`. -/
def strnlen (b : Buf) : ℕ → ℕ
  | 0 => 0
  | n + 1 => if b 0 = 0 then 0 else strnlen (fun i => b (i + 1)) n + 1

/-- The string a reader finds in an array of size `cap`. -/
def cstr (b : Buf) (cap : ℕ) : List UInt8 := (List.range (strnlen b cap)).map b

/-- A `const char *` to a terminated string: the bytes before the terminator. -/
abbrev CString := List UInt8

/-- The characters of a terminated string, the terminator and what follows being zero. -/
def CString.buf (s : CString) : Buf := fun i => s.getD i 0

/-- A source pointer of a record: NULL, a string of the caller, or the record's own array. -/
inductive SourceRef where
  | null
  | borrowed (s : CString)
  | storage
  deriving DecidableEq, Repr

/-- The string behind a source pointer, `storage` being the record's own array of size `cap`. -/
def SourceRef.deref (ref : SourceRef) (storage : Buf) (cap : ℕ) : Option CString :=
  match ref with
  | .null => none
  | .borrowed s => some s
  | .storage => some (cstr storage cap)

/-- Which metadata of a record has been captured, the bits `LOGGER_RECORD_META_*`. -/
structure MetadataMask where
  module : Bool
  context : Bool
  source : Bool
  deriving DecidableEq, Repr

/-- `LOGGER_MESSAGE_MAX`. -/
def loggerMessageMax : ℕ := 4096

/-- `LOGGER_QUEUE_INLINE_TEXT`. -/
def loggerQueueInlineText : ℕ := 512

/-- `struct logger_message`. -/
structure LoggerMessage where
  level : LoggerLevel
  ts : Timespec
  pid : ℤ
  tid : ℤ
  file : SourceRef
  func : SourceRef
  module : SourceRef
  line : ℤ
  metadataMask : MetadataMask
  requestId : Buf
  sessionId : Buf
  traceId : Buf
  textLen : ℕ
  text : Buf
  moduleStorage : Buf
  fileStorage : Buf
  functionStorage : Buf

/-- `struct logger_queue_record`. An inline text has no spill index (`LOGGER_QUEUE_SPILL_NONE`). -/
structure QueueRecord where
  level : LoggerLevel
  ts : Timespec
  pid : ℤ
  tid : ℤ
  line : ℤ
  requestId : Buf
  sessionId : Buf
  traceId : Buf
  moduleStorage : Buf
  fileStorage : Buf
  functionStorage : Buf
  spillIndex : Option ℕ
  textLen : ℕ
  moduleLen : ℕ
  fileLen : ℕ
  functionLen : ℕ
  inlineText : Buf

/-- A zeroed message, as the batch entries are allocated. -/
def LoggerMessage.zero : LoggerMessage :=
  { level := .trace, ts := ⟨0, 0⟩, pid := 0, tid := 0, file := .null, func := .null,
    module := .null, line := 0, metadataMask := ⟨false, false, false⟩, requestId := .zero,
    sessionId := .zero, traceId := .zero, textLen := 0, text := .zero, moduleStorage := .zero,
    fileStorage := .zero, functionStorage := .zero }

/-- A zeroed record, as the slots are allocated. -/
def QueueRecord.zero : QueueRecord :=
  { level := .trace, ts := ⟨0, 0⟩, pid := 0, tid := 0, line := 0, requestId := .zero,
    sessionId := .zero, traceId := .zero, moduleStorage := .zero, fileStorage := .zero,
    functionStorage := .zero, spillIndex := none, textLen := 0, moduleLen := 0, fileLen := 0,
    functionLen := 0, inlineText := .zero }

/-- `logger_record_text_length`: the recorded length when it points at a terminator, otherwise a
scan; `loggerMessageMax` when there is no terminator. -/
def loggerRecordTextLength (m : LoggerMessage) : ℕ :=
  if (m.textLen ≠ 0 ∨ m.text 0 = 0) ∧ m.textLen < loggerMessageMax ∧ m.text m.textLen = 0 then
    m.textLen
  else strnlen m.text loggerMessageMax

/-- The part of a path after its last `/` (`strrchr`), the path itself when it has none. -/
def afterLastSlash (s : CString) : CString :=
  (s.reverse.takeWhile (· != 47)).reverse

/-- The text `"app"`. -/
def appText : CString := [97, 112, 112]

/-- The text `"?"`. -/
def unknownText : CString := [63]

/-- The array written by `queue_source_copy(dst, cap, src)`: at most `cap - 1` bytes and a NUL,
the last byte being `~` when the source is longer. -/
def queueSourceCopy (dst : Buf) (cap : ℕ) (src : CString) : Buf :=
  let n := strnlen src.buf (cap - 1)
  let copied := (memcpy dst src.buf n).put n 0
  if src.buf n ≠ 0 ∧ n ≠ 0 then copied.put (n - 1) 126 else copied

/-- The length returned by `queue_source_copy`, a `uint8_t`. -/
def queueSourceLen (cap : ℕ) (src : CString) : ℕ := strnlen src.buf (cap - 1) % 256

/-- The module string a queue record captures. -/
def LoggerMessage.moduleText (m : LoggerMessage) : CString :=
  (m.module.deref m.moduleStorage 128).getD appText

/-- The file string a queue record captures: the base name of the path. -/
def LoggerMessage.fileText (m : LoggerMessage) : CString :=
  ((m.file.deref m.fileStorage 256).map afterLastSlash).getD unknownText

/-- The function string a queue record captures. -/
def LoggerMessage.functionText (m : LoggerMessage) : CString :=
  (m.func.deref m.functionStorage 128).getD unknownText

/-- The context writes of `queue_record_pack`. -/
def packContext (m : LoggerMessage) : List (QueueRecord → QueueRecord) :=
  if m.metadataMask.context then
    [fun r => { r with requestId := memcpy r.requestId m.requestId 64 },
     fun r => { r with sessionId := memcpy r.sessionId m.sessionId 64 },
     fun r => { r with traceId := memcpy r.traceId m.traceId 64 }]
  else
    [fun r => { r with requestId := r.requestId.put 0 0 },
     fun r => { r with sessionId := r.sessionId.put 0 0 },
     fun r => { r with traceId := r.traceId.put 0 0 }]

/-- The writes of `queue_copy_source`. -/
def queueCopySource (m : LoggerMessage) : List (QueueRecord → QueueRecord) :=
  (if m.metadataMask.module then
    [fun r => { r with moduleStorage := queueSourceCopy r.moduleStorage 128 m.moduleText },
     fun r => { r with moduleLen := queueSourceLen 128 m.moduleText }]
  else
    [fun r => { r with moduleLen := 0 },
     fun r => { r with moduleStorage := r.moduleStorage.put 0 0 }]) ++
  (if m.metadataMask.source then
    [fun r => { r with fileStorage := queueSourceCopy r.fileStorage 256 m.fileText },
     fun r => { r with fileLen := queueSourceLen 256 m.fileText },
     fun r => { r with functionStorage := queueSourceCopy r.functionStorage 128 m.functionText },
     fun r => { r with functionLen := queueSourceLen 128 m.functionText }]
  else
    [fun r => { r with fileLen := 0 },
     fun r => { r with functionLen := 0 },
     fun r => { r with fileStorage := r.fileStorage.put 0 0 },
     fun r => { r with functionStorage := r.functionStorage.put 0 0 }])

/-- The field writes of `queue_record_pack`, in source order. -/
def packWrites (m : LoggerMessage) (textLen : ℕ) (spill : Option ℕ) :
    List (QueueRecord → QueueRecord) :=
  [fun r => { r with level := m.level },
   fun r => { r with ts := m.ts },
   fun r => { r with pid := m.pid },
   fun r => { r with tid := m.tid },
   fun r => { r with line := m.line }] ++
  packContext m ++ queueCopySource m ++
  [fun r => { r with textLen := textLen % 65536 },
   fun r => { r with spillIndex := spill }] ++
  (if spill = none then
    [fun r => { r with inlineText := memcpy r.inlineText m.text (textLen + 1) }]
  else [])

/-- Run a list of field writes on a record. -/
def runWrites {α : Type*} (ws : List (α → α)) (r : α) : α := ws.foldl (fun r w => w r) r

/-- `queue_record_pack` on a slot that held `old`. -/
def queueRecordPack (old : QueueRecord) (m : LoggerMessage) (textLen : ℕ) (spill : Option ℕ) :
    QueueRecord :=
  runWrites (packWrites m textLen spill) old

/-- One of the context arrays copied by `queue_record_unpack`. -/
def unpackId (dst src : Buf) : Buf := if src 0 ≠ 0 then memcpy dst src 64 else dst.put 0 0

/-- The field reads of `queue_record_unpack`, in source order: each reads the slot's record and
the spill blocks at the moment it runs and writes the batch entry. -/
def unpackReads : List (QueueRecord → (ℕ → Buf) → LoggerMessage → LoggerMessage) :=
  [fun r _ d => { d with level := r.level },
   fun r _ d => { d with ts := r.ts },
   fun r _ d => { d with pid := r.pid },
   fun r _ d => { d with tid := r.tid },
   fun r _ d => { d with line := r.line },
   fun r _ d => { d with requestId := unpackId d.requestId r.requestId },
   fun r _ d => { d with sessionId := unpackId d.sessionId r.sessionId },
   fun r _ d => { d with traceId := unpackId d.traceId r.traceId },
   fun r _ d =>
     { d with moduleStorage := memcpy d.moduleStorage r.moduleStorage (r.moduleLen + 1) },
   fun r _ d => { d with fileStorage := memcpy d.fileStorage r.fileStorage (r.fileLen + 1) },
   fun r _ d =>
     { d with functionStorage := memcpy d.functionStorage r.functionStorage (r.functionLen + 1) },
   fun _ _ d => { d with module := .storage, file := .storage, func := .storage },
   fun r spills d =>
     { d with text := memcpy d.text (match r.spillIndex with
        | none => r.inlineText
        | some i => spills i) (r.textLen + 1) },
   fun r _ d => { d with textLen := r.textLen }]

/-- `queue_record_unpack` into a batch entry that held `old`. -/
def queueRecordUnpack (spills : ℕ → Buf) (r : QueueRecord) (old : LoggerMessage) : LoggerMessage :=
  runWrites (unpackReads.map fun read => read r spills) old

/-- What a reader of a record can see: its scalar fields, its strings up to their terminators and
its text. -/
structure RecordContent where
  level : LoggerLevel
  ts : Timespec
  pid : ℤ
  tid : ℤ
  line : ℤ
  requestId : List UInt8
  sessionId : List UInt8
  traceId : List UInt8
  module : List UInt8
  file : List UInt8
  function : List UInt8
  text : List UInt8
  deriving DecidableEq, Repr

/-- The content of a message that owns its source strings. -/
def LoggerMessage.content (m : LoggerMessage) : RecordContent :=
  { level := m.level, ts := m.ts, pid := m.pid, tid := m.tid, line := m.line,
    requestId := cstr m.requestId 64, sessionId := cstr m.sessionId 64,
    traceId := cstr m.traceId 64, module := cstr m.moduleStorage 128,
    file := cstr m.fileStorage 256, function := cstr m.functionStorage 128,
    text := (List.range m.textLen).map m.text }

/-- A source string as a queue record keeps it in an array of size `cap`: itself when it fits,
otherwise its first `cap - 2` bytes and `~`. -/
def sourceLabel (cap : ℕ) (s : CString) : List UInt8 :=
  let shown := s.takeWhile (· != 0)
  if shown.length < cap then shown else shown.take (cap - 2) ++ [126]

/-- The content the queue has to deliver for a message: the captured metadata and the text. -/
def LoggerMessage.packedContent (m : LoggerMessage) : RecordContent :=
  { level := m.level, ts := m.ts, pid := m.pid, tid := m.tid, line := m.line,
    requestId := if m.metadataMask.context then cstr m.requestId 64 else [],
    sessionId := if m.metadataMask.context then cstr m.sessionId 64 else [],
    traceId := if m.metadataMask.context then cstr m.traceId 64 else [],
    module := if m.metadataMask.module then sourceLabel 128 m.moduleText else [],
    file := if m.metadataMask.source then sourceLabel 256 m.fileText else [],
    function := if m.metadataMask.source then sourceLabel 128 m.functionText else [],
    text := (List.range (loggerRecordTextLength m)).map m.text }

section Strings

theorem strnlen_zero (b : Buf) : strnlen b 0 = 0 := rfl

theorem strnlen_succ (b : Buf) (n : ℕ) :
    strnlen b (n + 1) = if b 0 = 0 then 0 else strnlen (fun i => b (i + 1)) n + 1 := rfl

/-- A bounded scan stays within its bound. -/
theorem strnlen_le (b : Buf) (n : ℕ) : strnlen b n ≤ n := by
  induction n generalizing b with
  | zero => simp [strnlen_zero]
  | succ n ih =>
    rw [strnlen_succ]
    split
    · omega
    · have := ih fun i => b (i + 1)
      omega

/-- A bounded scan stops below its bound exactly when there is a NUL below it. -/
theorem strnlen_lt_iff (b : Buf) (n : ℕ) : strnlen b n < n ↔ ∃ k < n, b k = 0 := by
  induction n generalizing b with
  | zero => simp [strnlen_zero]
  | succ n ih =>
    rw [strnlen_succ]
    split_ifs with hzero
    · exact ⟨fun _ => ⟨0, by omega, hzero⟩, fun _ => by omega⟩
    · rw [Nat.add_lt_add_iff_right, ih]
      constructor
      · rintro ⟨k, hk, hb⟩
        exact ⟨k + 1, by omega, hb⟩
      · rintro ⟨k, hk, hb⟩
        cases k with
        | zero => exact absurd hb hzero
        | succ k => exact ⟨k, by omega, hb⟩

/-- A bounded scan finds the first NUL, or reaches its bound. -/
theorem strnlen_eq {b : Buf} {n k : ℕ} (hle : k ≤ n) (hne : ∀ i < k, b i ≠ 0)
    (hend : k < n → b k = 0) : strnlen b n = k := by
  induction n generalizing b k with
  | zero => simp [strnlen_zero]; omega
  | succ n ih =>
    rw [strnlen_succ]
    cases k with
    | zero => simp [hend (by omega)]
    | succ k =>
      have hk : strnlen (fun i => b (i + 1)) n = k := by
        refine ih (by omega) (fun i hi => hne (i + 1) (by omega)) fun hlt => hend (by omega)
      simp [hne 0 (by omega), hk]

/-- The string read from an array depends only on the bytes within the array. -/
theorem cstr_congr {b b' : Buf} {cap : ℕ} (h : ∀ i < cap, b i = b' i) :
    cstr b cap = cstr b' cap := by
  have hlen : strnlen b cap = strnlen b' cap := by
    induction cap generalizing b b' with
    | zero => simp [strnlen_zero]
    | succ n ih =>
      have htail : strnlen (fun i => b (i + 1)) n = strnlen (fun i => b' (i + 1)) n :=
        ih fun i hi => h (i + 1) (by omega)
      rw [strnlen_succ, strnlen_succ, h 0 (by omega), htail]
  rw [cstr, cstr, hlen]
  refine List.map_congr_left fun i hi => h i ?_
  have := strnlen_le b' cap
  have := List.mem_range.mp hi
  omega

/-- An array that starts with NUL holds the empty string. -/
theorem cstr_of_zero {b : Buf} {cap : ℕ} (h : b 0 = 0) : cstr b cap = [] := by
  cases cap <;> simp [cstr, strnlen_zero, strnlen_succ, h]

/-- Scanning a terminated string finds its length, up to the bound. -/
theorem strnlen_buf (s : CString) (n : ℕ) :
    strnlen s.buf n = min (s.takeWhile (· != 0)).length n := by
  induction n generalizing s with
  | zero => simp [strnlen_zero]
  | succ n ih =>
    cases s with
    | nil => simp [strnlen_succ, CString.buf]
    | cons c s =>
      have htail : (fun i => CString.buf (c :: s) (i + 1)) = CString.buf s := by
        funext i
        simp [CString.buf]
      rw [strnlen_succ, htail, ih]
      by_cases hc : c = 0
      · simp [CString.buf, hc]
      · simp [CString.buf, hc, Nat.succ_min_succ]

/-- Within its length a terminated string shows its own bytes. -/
theorem buf_eq_getElem (s : CString) {i : ℕ} (hi : i < (s.takeWhile (· != 0)).length) :
    s.buf i = (s.takeWhile (· != 0))[i] := by
  have hlen : i < s.length := lt_of_lt_of_le hi ( List.takeWhile_prefix _).length_le
  rw [( List.takeWhile_prefix _).getElem hi]
  simp [CString.buf, hlen]

/-- Within its length a terminated string has no NUL. -/
theorem buf_ne_zero (s : CString) {i : ℕ} (hi : i < (s.takeWhile (· != 0)).length) :
    s.buf i ≠ 0 := by
  rw [buf_eq_getElem s hi]
  simpa using List.mem_takeWhile_imp (List.getElem_mem hi)

/-- At its length a terminated string has its NUL. -/
theorem buf_length_eq_zero (s : CString) : s.buf (s.takeWhile (· != 0)).length = 0 := by
  induction s with
  | nil => simp [CString.buf]
  | cons c s ih =>
    by_cases hc : c = 0
    · simp [CString.buf, hc]
    · have h : (c != 0) = true := by simpa using hc
      simpa [List.takeWhile_cons, h, CString.buf] using ih

/-- The string found where a copied source label has been copied out again: the label, whatever
both arrays held before. -/
theorem cstr_memcpy_queueSourceCopy (d dst : Buf) {cap : ℕ} (hcap : 2 ≤ cap) (hcap' : cap ≤ 256)
    (s : CString) :
    cstr (memcpy d (queueSourceCopy dst cap s) (queueSourceLen cap s + 1)) cap =
      sourceLabel cap s := by
  -- the length the queue stores is the scan of the string, which stops at the capacity
  have hn : strnlen s.buf (cap - 1) = min (s.takeWhile (· != 0)).length (cap - 1) := strnlen_buf _ _
  have hlen : queueSourceLen cap s = strnlen s.buf (cap - 1) := by
    have := strnlen_le s.buf (cap - 1)
    exact Nat.mod_eq_of_lt (by omega)
  rw [hlen]
  rcases Nat.lt_or_ge (s.takeWhile (· != 0)).length cap with hshort | hlong
  · -- The label fits: the copy is the string and its terminator.
    have hk : strnlen s.buf (cap - 1) = (s.takeWhile (· != 0)).length := by omega
    have hcopy : ∀ i ≤ (s.takeWhile (· != 0)).length,
        memcpy d (queueSourceCopy dst cap s) ((s.takeWhile (· != 0)).length + 1) i = s.buf i := by
      intro i hi
      have hend := buf_length_eq_zero s
      by_cases hlt : i = (s.takeWhile (· != 0)).length
      · subst hlt
        simp [memcpy, queueSourceCopy, hk, hend, Buf.put]
      · have : i < (s.takeWhile (· != 0)).length := by omega
        simp [memcpy, queueSourceCopy, hk, hend, Buf.put, this, hlt, Nat.lt_succ_of_lt this]
    rw [hk, cstr, strnlen_eq (k := (s.takeWhile (· != 0)).length) hshort.le
      (fun i hi => hcopy i hi.le ▸ buf_ne_zero s hi)
      (fun _ => (hcopy _ le_rfl).trans (buf_length_eq_zero s))]
    rw [sourceLabel, if_pos hshort]
    refine List.ext_getElem (by simp) fun i hi hi' => ?_
    simp only [List.length_map, List.length_range] at hi
    simp [hcopy i hi.le, buf_eq_getElem s hi]
  · -- The label is cut: `cap - 2` bytes, the mark and the terminator.
    have hk : strnlen s.buf (cap - 1) = cap - 1 := by omega
    have hcopy : ∀ i ≤ cap - 1, memcpy d (queueSourceCopy dst cap s) (cap - 1 + 1) i =
        if i = cap - 1 then 0 else if i = cap - 2 then 126 else s.buf i := by
      intro i hi
      have hmore : s.buf (cap - 1) ≠ 0 := buf_ne_zero s (by omega)
      have hpos : cap - 1 ≠ 0 := by omega
      have hsub : cap - 1 - 1 = cap - 2 := by omega
      simp only [memcpy, queueSourceCopy, hk, hmore, hpos, Buf.put, hsub, ne_eq, not_false_eq_true,
        and_self, ↓reduceIte]
      by_cases h1 : i = cap - 1
      · simp [h1, show cap - 1 ≠ cap - 2 by omega]
      · by_cases h2 : i = cap - 2
        · simp [h2, show cap - 2 ≠ cap - 1 by omega, show cap - 2 < cap - 1 + 1 by omega]
        · simp [h1, h2, show i < cap - 1 + 1 by omega, show i < cap - 1 by omega]
    rw [hk, cstr, strnlen_eq (k := cap - 1) (by omega) (fun i hi => ?_) (fun _ => by
      simp [hcopy (cap - 1) le_rfl])]
    · rw [sourceLabel, if_neg (by omega)]
      refine List.ext_getElem (by simp; omega) fun i hi hi' => ?_
      simp only [List.length_map, List.length_range] at hi
      rw [List.getElem_map, List.getElem_range, hcopy i hi.le, if_neg (by omega)]
      by_cases h2 : i = cap - 2
      · subst h2
        rw [if_pos rfl, List.getElem_append_right (by simp)]
        simp
      · have hi2 : i < cap - 2 := by omega
        rw [if_neg h2, List.getElem_append_left (by simp; omega), List.getElem_take,
          buf_eq_getElem s (by omega)]
    · rw [hcopy i hi.le, if_neg (by omega)]
      split
      · decide
      · exact buf_ne_zero s (by omega)

/-- A context array that has been unpacked holds the packed string. -/
theorem cstr_unpackId (d src : Buf) : cstr (unpackId d src) 64 = cstr src 64 := by
  unfold unpackId
  split
  · exact cstr_congr fun i hi => by simp [memcpy, hi]
  · rename_i h
    rw [cstr_of_zero (by simp [Buf.put]), cstr_of_zero (by simpa using h)]

end Strings

/-- The text length of a terminated text is below `LOGGER_MESSAGE_MAX`. -/
theorem loggerRecordTextLength_le (m : LoggerMessage) :
    loggerRecordTextLength m ≤ loggerMessageMax := by
  unfold loggerRecordTextLength
  split
  · omega
  · exact strnlen_le _ _

/-- The text found by `queue_record_unpack` behind a record: its inline array or its block. -/
def recordText (spills : ℕ → Buf) (r : QueueRecord) : Buf :=
  match r.spillIndex with
  | none => r.inlineText
  | some i => spills i

/-- Running an appended list of writes. -/
theorem runWrites_append {α : Type*} (ws ws' : List (α → α)) (r : α) :
    runWrites (ws ++ ws') r = runWrites ws' (runWrites ws r) := by
  simp [runWrites]

/-- The record `queue_record_pack` leaves, field by field. -/
theorem queueRecordPack_eq (old : QueueRecord) (m : LoggerMessage) (n : ℕ) (spill : Option ℕ) :
    queueRecordPack old m n spill =
      { level := m.level, ts := m.ts, pid := m.pid, tid := m.tid, line := m.line
        requestId := if m.metadataMask.context then memcpy old.requestId m.requestId 64
          else old.requestId.put 0 0
        sessionId := if m.metadataMask.context then memcpy old.sessionId m.sessionId 64
          else old.sessionId.put 0 0
        traceId := if m.metadataMask.context then memcpy old.traceId m.traceId 64
          else old.traceId.put 0 0
        moduleStorage := if m.metadataMask.module then
          queueSourceCopy old.moduleStorage 128 m.moduleText else old.moduleStorage.put 0 0
        fileStorage := if m.metadataMask.source then
          queueSourceCopy old.fileStorage 256 m.fileText else old.fileStorage.put 0 0
        functionStorage := if m.metadataMask.source then
          queueSourceCopy old.functionStorage 128 m.functionText else old.functionStorage.put 0 0
        spillIndex := spill
        textLen := n % 65536
        moduleLen := if m.metadataMask.module then queueSourceLen 128 m.moduleText else 0
        fileLen := if m.metadataMask.source then queueSourceLen 256 m.fileText else 0
        functionLen := if m.metadataMask.source then queueSourceLen 128 m.functionText else 0
        inlineText := if spill = none then memcpy old.inlineText m.text (n + 1)
          else old.inlineText } := by
  simp only [queueRecordPack, packWrites, packContext, queueCopySource, runWrites_append]
  cases m.metadataMask.context <;> cases m.metadataMask.module <;>
    cases m.metadataMask.source <;> cases spill <;> rfl

/-- Packing records the spill index. -/
@[simp]
theorem queueRecordPack_spillIndex (old : QueueRecord) (m : LoggerMessage) (n : ℕ)
    (spill : Option ℕ) : (queueRecordPack old m n spill).spillIndex = spill := by
  rw [queueRecordPack_eq]

/-- A label array that was or was not captured holds the label or nothing once unpacked. -/
private theorem cstr_memcpy_label (d dst : Buf) {cap : ℕ} (hcap : 2 ≤ cap) (hcap' : cap ≤ 256)
    (s : CString) (captured : Bool) :
    cstr (memcpy d (if captured then queueSourceCopy dst cap s else dst.put 0 0)
      ((if captured then queueSourceLen cap s else 0) + 1)) cap =
      if captured then sourceLabel cap s else [] := by
  cases captured with
  | true => simpa using cstr_memcpy_queueSourceCopy d dst hcap hcap' s
  | false => exact cstr_of_zero (by simp [memcpy, Buf.put])

/-- A context array that was or was not captured holds its string or nothing. -/
private theorem cstr_context (dst src : Buf) (captured : Bool) :
    cstr (if captured then memcpy dst src 64 else dst.put 0 0) 64 =
      if captured then cstr src 64 else [] := by
  cases captured with
  | true => exact cstr_congr fun i hi => by simp [memcpy, hi]
  | false => exact cstr_of_zero (by simp [Buf.put])

/-- The text behind a packed record is the text of the message, up to and including its NUL. -/
theorem recordText_pack (spills : ℕ → Buf) (old : QueueRecord) (m : LoggerMessage) (n : ℕ)
    (spill : Option ℕ) (hblock : ∀ i, spill = some i → ∀ k ≤ n, spills i k = m.text k) :
    ∀ k ≤ n, recordText spills (queueRecordPack old m n spill) k = m.text k := by
  intro k hk
  rw [recordText, queueRecordPack_eq]
  cases spill with
  | none => simp [memcpy, Nat.lt_succ_of_le hk]
  | some i => exact hblock i rfl k hk

/-- Packing an inline message and unpacking the slot, or packing a long one whose block holds its
text, gives the content of the message. -/
theorem content_unpack_pack (spills : ℕ → Buf) (old : QueueRecord) (m : LoggerMessage)
    (spill : Option ℕ) (dst : LoggerMessage) (hlen : loggerRecordTextLength m < loggerMessageMax)
    (hblock : ∀ i, spill = some i → ∀ k ≤ loggerRecordTextLength m, spills i k = m.text k) :
    (queueRecordUnpack spills
      (queueRecordPack old m (loggerRecordTextLength m) spill) dst).content = m.packedContent := by
  have htext := recordText_pack spills old m _ spill hblock
  have hmod : loggerRecordTextLength m % 65536 = loggerRecordTextLength m := by
    simp only [loggerMessageMax] at hlen
    exact Nat.mod_eq_of_lt (by omega)
  rw [queueRecordPack_eq] at htext ⊢
  simp only [recordText] at htext
  simp only [queueRecordUnpack, unpackReads, List.map_cons, List.map_nil, runWrites,
    List.foldl_cons,
    List.foldl_nil, LoggerMessage.content, LoggerMessage.packedContent, cstr_unpackId, cstr_context,
    cstr_memcpy_label _ _ (show 2 ≤ 128 by omega) (show 128 ≤ 256 by omega),
    cstr_memcpy_label _ _ (show 2 ≤ 256 by omega) (show 256 ≤ 256 by omega), hmod,
    RecordContent.mk.injEq, true_and]
  refine List.map_congr_left fun k hk => ?_
  have hk' : k < loggerRecordTextLength m := List.mem_range.mp hk
  simpa [memcpy, Nat.lt_succ_of_lt hk'] using htext k hk'.le

end CLogger
