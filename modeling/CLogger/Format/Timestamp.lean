import CLogger.Format.Truncation

/-!
# The timestamp cache

`format_line` keeps the date and the zone of the last second it converted in two thread-local
arrays. A refresh writes the arrays in place, one `strftime` after the other, and any of its calls
may fail and leave bytes behind. Both entry points share the arrays, and a forked child invalidates
them.

The arrays are modelled byte by byte, with the answers of the C library at each call, and refine the
cache of strings of `Format.Model`. The abstract formatter has no cache at all: `uncachedLine`
prints the time it is given.

## Main results

* `FormatRequest.run_eq`: the formatter on arrays is the formatter on strings;
* `timestamp_cache_coherent`: over every history of a thread, a call prints what the formatter
  without a cache prints for the second of its record.
-/

namespace CLogger

section Arrays

/-- What a `strftime` does with an array of `size` bytes: it stores a text with its terminator, or
it returns 0 and leaves any bytes in the array. -/
inductive StrftimeAnswer (size : ℕ) where
  | stored (text : TerminatedString) (fits : text.bytes.length < size)
  | failed (left : Buf)

/-- `strftime`: the length it returns, and the array. -/
def strftime {size : ℕ} (dst : Buf) : StrftimeAnswer size → ℕ × Buf
  | .stored text _ => (text.bytes.length, dst.overlay 0 (text.bytes ++ [0]))
  | .failed left => (0, fun i => if i < size then left i else dst i)

/-- The text of a call that returns its length. There is none when the call returns 0: it has
failed, or the text it has stored is empty, and the code cannot tell the one from the other. -/
def StrftimeAnswer.text? {size : ℕ} : StrftimeAnswer size → Option CString
  | .stored text _ => if text.bytes = [] then none else some text.bytes
  | .failed _ => none

/-- A call either returns 0 or stores a text that is not empty. -/
theorem StrftimeAnswer.text?_cases {size : ℕ} (answer : StrftimeAnswer size) :
    (answer.text? = none ∧ ∀ dst, (strftime dst answer).1 = 0) ∨
      ∃ text fits, answer = .stored text fits ∧ text.bytes ≠ [] := by
  cases answer with
  | failed left => exact .inl ⟨rfl, fun _ => rfl⟩
  | stored text fits =>
    by_cases hempty : text.bytes = []
    · exact .inl ⟨if_pos hempty, fun _ => by rw [strftime, hempty, List.length_nil]⟩
    · exact .inr ⟨text, fits, rfl, hempty⟩

theorem StrftimeAnswer.text?_stored {size : ℕ} {text : TerminatedString}
    (fits : text.bytes.length < size) (hne : text.bytes ≠ []) :
    (StrftimeAnswer.stored text fits).text? = some text.bytes := if_neg hne

/-- The text of a call is not empty. -/
theorem StrftimeAnswer.filter_text? {size : ℕ} (answer : StrftimeAnswer size) :
    answer.text?.filter (· ≠ []) = answer.text? := by
  rcases answer.text?_cases with ⟨hnone, -⟩ | ⟨text, fits, rfl, hne⟩
  · rw [hnone, Option.filter_none]
  · rw [text?_stored fits hne, Option.filter_some_pos (by simpa using hne)]

/-- What the C library answers to the three calls of a refresh: whether `localtime_r` succeeds, and
the two `strftime` calls. -/
structure TimeAnswers where
  localtimeR : Bool
  date : StrftimeAnswer 32
  zone : StrftimeAnswer 16

/-- `struct timestamp_cache`. -/
structure TimestampArrays where
  sec : ℤ
  valid : Bool
  date : Buf
  zone : Buf

/-- The arrays of a thread that has not formatted yet. -/
def TimestampArrays.zero : TimestampArrays := ⟨0, false, .zero, .zero⟩

/-- The strings a reader of the arrays finds. -/
def TimestampArrays.strings (t : TimestampArrays) : TimestampCache :=
  ⟨t.sec, t.valid, cstr t.date 32, cstr t.zone 16⟩

/-- The text a failed refresh leaves in the date, terminated. -/
def unavailableText : List UInt8 := ascii "time-unavailable" ++ [0]

/-- The calls of a refresh, each made only when the one before has succeeded. -/
def TimestampArrays.convert (libc : TimeAnswers) (t : TimestampArrays) : Bool × TimestampArrays :=
  if libc.localtimeR then
    let date := strftime t.date libc.date
    let t := { t with date := date.2 }
    if date.1 ≠ 0 then
      let zone := strftime t.zone libc.zone
      (zone.1 ≠ 0, { t with zone := zone.2 })
    else (false, t)
  else (false, t)

/-- The texts that stand for a time that could not be converted. -/
def TimestampArrays.fallback (t : TimestampArrays) : TimestampArrays :=
  { t with
    date := memcpy t.date (CString.buf unavailableText) unavailableText.length
    zone := t.zone.put 0 0 }

/-- The refresh of the arrays in `format_line`, and what its conversion came to; `none` on a hit. -/
def TimestampArrays.refresh (libc : TimeAnswers) (t : TimestampArrays) (sec : ℤ) :
    Option Bool × TimestampArrays :=
  if !t.valid || t.sec != sec then
    let converted := { t with valid := false }.convert libc
    let t := converted.2
    if converted.1 then (some true, { t with sec := sec, valid := true })
    else (some false, t.fallback)
  else (none, t)

/-- The library of one call, as the conversions of `Format.Model`. -/
def TimeAnswers.lib (libc : TimeAnswers) : TimeLib Unit where
  localtimeR _ := if libc.localtimeR then some () else none
  strftimeDate _ := libc.date.text?
  strftimeZone _ := libc.zone.text?

/-- An array a text has been stored in holds that text. -/
theorem cstr_overlay_terminated (dst : Buf) (text : TerminatedString) {size : ℕ}
    (fits : text.bytes.length < size) :
    cstr (dst.overlay 0 (text.bytes ++ [0])) size = text.bytes := by
  have hbytes : (dst.overlay 0 (text.bytes ++ [0])).bytes text.bytes.length = text.bytes := by
    rw [Buf.bytes_overlay dst (by simp)]
    simp [Buf.bytes]
  have hlen : strnlen (dst.overlay 0 (text.bytes ++ [0])) size = text.bytes.length := by
    refine strnlen_eq fits.le (fun i hi h0 => text.no_nul ?_) fun _ => by simp [Buf.overlay]
    have hget : (dst.overlay 0 (text.bytes ++ [0])) i = text.bytes[i] := by
      simp [Buf.overlay, hi, Nat.lt_succ_of_lt hi]
    rw [← h0, hget]
    exact List.getElem_mem hi
  rw [cstr, hlen]
  exact hbytes

/-- What a reader finds after a failed refresh, whatever its calls have left in the arrays. -/
theorem TimestampArrays.strings_fallback (t : TimestampArrays) :
    t.fallback.strings = ⟨t.sec, t.valid, ascii "time-unavailable", []⟩ := by
  have hdate : cstr t.fallback.date 32 = cstr (CString.buf unavailableText) 32 := by
    refine (cstr_congr_of_zero (show 16 < 32 by decide) (fun i hi => ?_) (by decide)).symm
    exact (if_pos (lt_of_le_of_lt hi (by decide))).symm
  have hzone : cstr t.fallback.zone 16 = [] := cstr_of_zero (by simp [fallback, Buf.put])
  have hunavailable : cstr (CString.buf unavailableText) 32 = ascii "time-unavailable" := by decide
  rw [TimestampArrays.strings, hdate, hzone, hunavailable]
  rfl

/-- The conversion that the library of one call makes. -/
theorem TimeAnswers.convert_eq (libc : TimeAnswers) (sec : ℤ) :
    libc.lib.convert sec = if libc.localtimeR then
      libc.date.text?.bind fun date => libc.zone.text?.bind fun zone => some (date, zone)
    else none := by
  simp only [TimeLib.convert, lib, StrftimeAnswer.filter_text?]
  split <;> rfl

/-- The calls of a refresh come to the conversion of the library, and leave its texts in the arrays
when it succeeds. They set no other field. -/
theorem TimestampArrays.convert_spec (libc : TimeAnswers) (t : TimestampArrays) (sec : ℤ) :
    (t.convert libc).2.sec = t.sec ∧ (t.convert libc).2.valid = t.valid ∧
      ((libc.lib.convert sec = none ∧ (t.convert libc).1 = false) ∨
        ∃ date zone, libc.lib.convert sec = some (date, zone) ∧ (t.convert libc).1 = true ∧
          cstr (t.convert libc).2.date 32 = date ∧ cstr (t.convert libc).2.zone 16 = zone) := by
  rw [libc.convert_eq]
  obtain ⟨localtime, date, zone⟩ := libc
  cases localtime with
  | false => exact ⟨rfl, rfl, .inl ⟨rfl, rfl⟩⟩
  -- an empty date is a failed conversion, and the zone is not asked for then
  | true =>
    rcases date.text?_cases with ⟨hnone, hzero⟩ | ⟨date, hdate, rfl, hne⟩
    · have hconvert : t.convert ⟨true, date, zone⟩ =
          (false, { t with date := (strftime t.date date).2 }) := by
        rw [convert, if_pos rfl]
        exact if_neg (not_not.mpr (hzero t.date))
      rw [hconvert, if_pos rfl, hnone]
      exact ⟨rfl, rfl, .inl ⟨rfl, rfl⟩⟩
    · have hconvert : t.convert ⟨true, .stored date hdate, zone⟩ =
          (decide ((strftime t.zone zone).1 ≠ 0), ⟨t.sec, t.valid,
            t.date.overlay 0 (date.bytes ++ [0]), (strftime t.zone zone).2⟩) := by
        rw [convert, if_pos rfl]
        exact if_pos (mt List.length_eq_zero_iff.mp hne)
      rw [hconvert, if_pos rfl, StrftimeAnswer.text?_stored hdate hne]
      refine ⟨rfl, rfl, ?_⟩
      -- the same for the zone, behind a date that worked
      rcases zone.text?_cases with ⟨hnone, hzero⟩ | ⟨zone, hzone, rfl, hne'⟩
      · rw [hnone]
        exact .inl ⟨rfl, decide_eq_false (not_not.mpr (hzero t.zone))⟩
      · rw [StrftimeAnswer.text?_stored hzone hne']
        exact .inr ⟨date.bytes, zone.bytes, rfl,
          decide_eq_true (mt List.length_eq_zero_iff.mp hne'),
          cstr_overlay_terminated _ _ hdate, cstr_overlay_terminated _ _ hzone⟩

/-- The arrays show what the refresh of the cache of strings shows, also when a call has failed
after another has written its array. -/
theorem TimestampArrays.strings_refresh (libc : TimeAnswers) (t : TimestampArrays) (sec : ℤ) :
    (t.refresh libc sec).2.strings = t.strings.refresh libc.lib sec := by
  unfold TimestampArrays.refresh TimestampCache.refresh
  by_cases hmiss : (!t.valid || t.sec != sec) = true
  · rw [if_pos hmiss, if_pos (show (!t.strings.valid || t.strings.sec != sec) = true from hmiss)]
    obtain ⟨hsec, hvalid, ⟨hnone, hfails⟩ | ⟨date, zone, hconvert, hok, hdate, hzone⟩⟩ :=
      convert_spec libc { t with valid := false } sec
    · dsimp only
      rw [hnone, hfails, if_neg Bool.false_ne_true, strings_fallback, hsec, hvalid]
      rfl
    · dsimp only
      rw [hconvert, hok, if_pos rfl, ← hdate, ← hzone]
      rfl
  · rw [if_neg hmiss, if_neg (show ¬(!t.strings.valid || t.strings.sec != sec) = true from hmiss)]

/-- The conversion of a refresh runs on a miss, and comes to what the library answers. -/
theorem TimestampArrays.refresh_conversion (libc : TimeAnswers) (t : TimestampArrays) (sec : ℤ) :
    (t.refresh libc sec).1 =
      if t.valid = true ∧ t.sec = sec then none else some (libc.lib.convert sec).isSome := by
  unfold TimestampArrays.refresh
  by_cases hhit : t.valid = true ∧ t.sec = sec
  · rw [if_pos hhit, if_neg (by simp [hhit])]
  · have hmiss : (!t.valid || t.sec != sec) = true := by
      rw [Bool.or_eq_true, Bool.not_eq_true', bne_iff_ne, ← Bool.not_eq_true]
      exact not_and_or.mp hhit
    rw [if_neg hhit, if_pos hmiss]
    obtain ⟨-, -, ⟨hnone, hfails⟩ | ⟨date, zone, hconvert, hok, -⟩⟩ :=
      convert_spec libc { t with valid := false } sec
    · dsimp only
      rw [hnone, hfails]
      rfl
    · dsimp only
      rw [hconvert, hok]
      rfl

end Arrays

section Calls

/-- A call of one of the two entry points: the strict one is `logger_format_line_checked`. -/
structure FormatRequest where
  l : Option LineConfig
  m : Option LoggerMessage
  out : Option Buf
  cap : ℕ
  strict : Bool
  writes : VsnprintfAnswers

/-- What a call leaves: the result, the arrays, and what its conversion came to, `none` when it
made none. -/
structure TimedResult where
  result : FormatResult
  arrays : TimestampArrays
  conversion : Option Bool

/-- `format_line` on the arrays of the thread. -/
def FormatRequest.run (c : FormatRequest) (libc : TimeAnswers) (t : TimestampArrays) :
    TimedResult :=
  if c.cap = 0 then ⟨⟨if c.strict then -eoverflow else 0, c.out, 0, t.strings⟩, t, none⟩
  else match c.out, c.l, c.m with
    | some out, some l, some m =>
      let out := out.put 0 0
      if c.cap = 1 then
        ⟨⟨if c.strict then -eoverflow else 0, some out, 0, t.strings⟩, t, none⟩
      else if c.strict && (decide (m.ts.nsec < 0) || decide (1000000000 ≤ m.ts.nsec)) then
        ⟨⟨-einval, some out, 0, t.strings⟩, t, none⟩
      else
        let refreshed := t.refresh libc m.ts.sec
        let time := refreshed.2.strings
        if c.strict && !canonicalTime time then
          ⟨⟨-eoverflow, some out, 0, time⟩, refreshed.2, refreshed.1⟩
        else
          let appended := appendAll ⟨out, c.cap - 1, 0, c.strict, false⟩ (lineFields l time m)
            c.writes
          if appended.1 ≠ 0 then
            ⟨⟨appended.1, some appended.2.out, 0, time⟩, refreshed.2, refreshed.1⟩
          else
            let finished := finishLine appended.2 c.cap
            ⟨⟨0, some finished.1, finished.2, time⟩, refreshed.2, refreshed.1⟩
    | out, _, _ => ⟨⟨-einval, out, 0, t.strings⟩, t, none⟩

/-- The entry point: a failed formatting leaves an empty string. -/
def FormatRequest.enter (c : FormatRequest) (libc : TimeAnswers) (t : TimestampArrays) :
    TimedResult :=
  let r := c.run libc t
  { r with result := r.result.emptied c.cap }

/-- What a thread does to its timestamp arrays. -/
inductive ThreadOp where
  | line (c : FormatRequest) (libc : TimeAnswers)
  /-- `logger_format_reset_child`. -/
  | resetChild

/-- The arrays an operation leaves. -/
def ThreadOp.run (t : TimestampArrays) : ThreadOp → TimestampArrays
  | .line c libc => (c.enter libc t).arrays
  | .resetChild => { t with valid := false }

/-- The arrays of a thread after the operations it has run. -/
def arraysAfter (ops : List ThreadOp) : TimestampArrays := ops.foldl ThreadOp.run .zero

/-- The second of the record of a call. -/
def FormatRequest.sec (c : FormatRequest) : ℤ := (c.m.map fun m => m.ts.sec).getD 0

/-- The call gets as far as the refresh of the arrays. -/
def FormatRequest.Refreshes (c : FormatRequest) : Prop :=
  2 ≤ c.cap ∧ c.out.isSome = true ∧ c.l.isSome = true ∧
    ∃ m, c.m = some m ∧ (c.strict = true → 0 ≤ m.ts.nsec ∧ m.ts.nsec < 1000000000)

/-- The operation is a call that gets as far as the refresh. -/
def ThreadOp.Refreshes : ThreadOp → Prop
  | .line c _ => c.Refreshes
  | .resetChild => False

/-- One of the three calls of a refresh fails, or returns the length 0. -/
def TimeAnswers.Fails (libc : TimeAnswers) : Prop :=
  libc.localtimeR = false ∨ libc.date.text? = none ∨ libc.zone.text? = none

/-- The texts of the calls that succeed for a second are those of a conversion function. -/
def TimeAnswers.Follows (conv : ℤ → CString × CString) (sec : ℤ) (libc : TimeAnswers) : Prop :=
  libc.localtimeR = true →
    (∀ text ∈ libc.date.text?, text = (conv sec).1) ∧ ∀ text ∈ libc.zone.text?, text = (conv sec).2

/-- An operation whose library follows a conversion function. -/
def ThreadOp.Follows (conv : ℤ → CString × CString) : ThreadOp → Prop
  | .line c libc => libc.Follows conv c.sec
  | .resetChild => True

/-- A library whose conversions all come to one result. -/
def TimeLib.answering (time : Option (CString × CString)) : TimeLib (CString × CString) where
  localtimeR _ := time
  strftimeDate tm := some tm.1
  strftimeZone tm := some tm.2

/-- The line of a call in a formatter without a cache, whose conversion comes to `time`. -/
def FormatRequest.uncachedLine (c : FormatRequest) (time : Option (CString × CString)) :
    ℤ × Option Buf × ℕ :=
  ((formatLine (.answering time) c.l c.m c.out c.cap c.strict c.writes .zero).emptied c.cap).line

end Calls

section Refinement

variable (c : FormatRequest) (libc : TimeAnswers) (t : TimestampArrays)

/-- The formatter on the arrays is the formatter on the strings they hold. -/
theorem FormatRequest.run_eq : (c.run libc t).result =
    formatLine libc.lib c.l c.m c.out c.cap c.strict c.writes t.strings := by
  obtain ⟨l, m, out, cap, strict, writes⟩ := c
  unfold FormatRequest.run formatLine
  dsimp only
  split
  · rfl
  · cases out <;> cases l <;> cases m <;> try rfl
    dsimp only
    rw [TimestampArrays.strings_refresh]
    split
    · rfl
    · split
      · rfl
      · split
        · rfl
        · split <;> rfl

/-- A call refreshes the arrays for the second of its record, or does not touch them. -/
theorem FormatRequest.enter_refresh :
    (c.Refreshes ∧ (c.enter libc t).conversion = (t.refresh libc c.sec).1 ∧
        (c.enter libc t).arrays = (t.refresh libc c.sec).2) ∨
      (¬c.Refreshes ∧ (c.enter libc t).conversion = none ∧ (c.enter libc t).arrays = t) := by
  obtain ⟨l, m, out, cap, strict, writes⟩ := c
  unfold FormatRequest.enter FormatRequest.run FormatRequest.Refreshes FormatRequest.sec
  dsimp only
  split
  · exact .inr ⟨fun h => by omega, rfl, rfl⟩
  · cases out <;> cases l <;> cases m <;> try exact .inr ⟨by simp, rfl, rfl⟩
    dsimp only
    split
    · exact .inr ⟨fun h => by omega, rfl, rfl⟩
    · split
      · rename_i hnsec
        refine .inr ⟨?_, rfl, rfl⟩
        rintro ⟨-, -, -, m, hm, hrange⟩
        cases hm
        simp only [Bool.and_eq_true, Bool.or_eq_true, decide_eq_true_eq] at hnsec
        have := hrange hnsec.1
        omega
      · rename_i hnsec
        refine .inl ⟨⟨by omega, rfl, rfl, _, rfl, fun hstrict => ?_⟩, ?_⟩
        · simpa [hstrict] using hnsec
        · split
          · exact ⟨rfl, rfl⟩
          · split <;> exact ⟨rfl, rfl⟩

end Refinement

section Coherence

variable {conv : ℤ → CString × CString} {libc : TimeAnswers} {t : TimestampArrays}

/-- The conversion of a call fails when one of its calls does. -/
theorem TimeAnswers.convert_eq_none_iff (libc : TimeAnswers) (sec : ℤ) :
    libc.lib.convert sec = none ↔ libc.Fails := by
  rw [convert_eq, Fails]
  cases libc.localtimeR <;> cases libc.date.text? <;> cases libc.zone.text? <;> simp

/-- A time that can be printed: neither of its texts is empty. -/
def Printable (time : CString × CString) : Prop := time.1 ≠ [] ∧ time.2 ≠ []

/-- A conversion that succeeds gives the texts of its second, and they are not empty. -/
theorem TimeAnswers.Follows.convert_eq {sec : ℤ} (h : libc.Follows conv sec)
    (hok : ¬libc.Fails) : libc.lib.convert sec = some (conv sec) ∧ Printable (conv sec) := by
  rw [TimeAnswers.Fails, not_or, not_or, Bool.not_eq_false] at hok
  obtain ⟨hlocaltime, hdate, hzone⟩ := hok
  obtain ⟨date, hdate⟩ := Option.ne_none_iff_exists'.mp hdate
  obtain ⟨zone, hzone⟩ := Option.ne_none_iff_exists'.mp hzone
  have hd : date = (conv sec).1 := (h hlocaltime).1 date hdate
  have hz : zone = (conv sec).2 := (h hlocaltime).2 zone hzone
  have htexts := congrArg₂ Prod.mk libc.date.filter_text? libc.zone.filter_text?
  rw [hdate, hzone, Prod.mk.injEq, Option.filter_eq_some_iff, Option.filter_eq_some_iff] at htexts
  rw [libc.convert_eq, if_pos hlocaltime, hdate, hzone]
  refine ⟨congrArg some (Prod.ext hd hz), ?_, ?_⟩
  · rw [← hd]
    simpa using htexts.1.2
  · rw [← hz]
    simpa using htexts.2.2

/-- Valid arrays hold the texts of their second. -/
def TimestampArrays.Holds (conv : ℤ → CString × CString) (t : TimestampArrays) : Prop :=
  t.valid = true → (t.strings.date, t.strings.zone) = conv t.sec ∧ Printable (conv t.sec)

theorem TimestampArrays.zero_holds : TimestampArrays.zero.Holds conv := by
  intro hvalid
  cases hvalid

/-- What a refresh leaves: on a hit the arrays as they were; on a miss, the texts of the second,
which are not empty, or, when a call has failed, invalid arrays. -/
theorem TimestampArrays.refresh_cases {sec : ℤ} (hlibc : libc.Follows conv sec) :
    (t.valid = true ∧ t.sec = sec ∧ t.refresh libc sec = (none, t)) ∨
      (¬(t.valid = true ∧ t.sec = sec) ∧ Printable (conv sec) ∧
        (t.refresh libc sec).1 = some true ∧
        (t.refresh libc sec).2.strings = ⟨sec, true, (conv sec).1, (conv sec).2⟩) ∨
      (¬(t.valid = true ∧ t.sec = sec) ∧ libc.Fails ∧ (t.refresh libc sec).1 = some false ∧
        (t.refresh libc sec).2.strings = ⟨t.sec, false, ascii "time-unavailable", []⟩) := by
  have hconversion := t.refresh_conversion libc sec
  have hstrings := t.strings_refresh libc sec
  by_cases hhit : t.valid = true ∧ t.sec = sec
  · refine .inl ⟨hhit.1, hhit.2, ?_⟩
    rw [TimestampArrays.refresh, if_neg (by simp [hhit])]
  · have hmiss : (!t.strings.valid || t.strings.sec != sec) = true := by
      rw [Bool.or_eq_true, Bool.not_eq_true', bne_iff_ne, ← Bool.not_eq_true]
      exact not_and_or.mp hhit
    rw [if_neg hhit] at hconversion
    rw [TimestampCache.refresh, if_pos hmiss] at hstrings
    by_cases hfails : libc.Fails
    · have hnone := (libc.convert_eq_none_iff sec).mpr hfails
      rw [hnone] at hconversion hstrings
      exact .inr (.inr ⟨hhit, hfails, hconversion, hstrings⟩)
    · rw [(hlibc.convert_eq hfails).1] at hconversion hstrings
      exact .inr (.inl ⟨hhit, (hlibc.convert_eq hfails).2, hconversion, hstrings⟩)

/-- An operation of the thread keeps the arrays right. -/
theorem ThreadOp.run_holds (h : t.Holds conv) {op : ThreadOp} (hop : op.Follows conv) :
    (op.run t).Holds conv := by
  cases op with
  | resetChild =>
    intro hvalid
    cases hvalid
  | line c libc =>
    rcases c.enter_refresh libc t with ⟨-, -, harrays⟩ | ⟨-, -, harrays⟩
    · rw [ThreadOp.run, harrays]
      rcases TimestampArrays.refresh_cases hop with
        ⟨-, -, heq⟩ | ⟨-, htime, -, heq⟩ | ⟨-, -, -, heq⟩
      · rw [heq]
        exact h
      · intro _
        have hsec : (t.refresh libc c.sec).2.sec = c.sec := congrArg TimestampCache.sec heq
        rw [heq, hsec]
        exact ⟨rfl, htime⟩
      · intro hvalid
        have hfalse : (t.refresh libc c.sec).2.valid = false := congrArg TimestampCache.valid heq
        rw [hfalse] at hvalid
        cases hvalid
    · rw [ThreadOp.run, harrays]
      exact h

/-- The arrays of a thread are right at every moment. -/
theorem arraysAfter_holds {ops : List ThreadOp} (hops : ∀ op ∈ ops, op.Follows conv) :
    (arraysAfter ops).Holds conv := by
  induction ops using List.reverseRecOn with
  | nil => exact TimestampArrays.zero_holds
  | append_singleton ops op ih =>
    rw [arraysAfter, List.foldl_append]
    exact ThreadOp.run_holds (ih fun op hop => hops op (List.mem_append_left _ hop))
      (hops op (by simp))

/-- Operations that do not get as far as the refresh do not make the arrays valid. -/
theorem invalid_of_no_refresh (h : t.valid = false) {ops : List ThreadOp}
    (hops : ∀ op ∈ ops, ¬op.Refreshes) : (ops.foldl ThreadOp.run t).valid = false := by
  induction ops generalizing t with
  | nil => exact h
  | cons op ops ih =>
    refine ih ?_ fun op' hop' => hops op' (List.mem_cons_of_mem _ hop')
    cases op with
    | resetChild => rfl
    | line c libc =>
      rcases c.enter_refresh libc t with ⟨hrefreshes, -⟩ | ⟨-, -, harrays⟩
      · exact absurd hrefreshes (hops _ List.mem_cons_self)
      · rw [ThreadOp.run, harrays]
        exact h

/-- The strings that a printable time leaves in a cache. -/
theorem TimestampCache.refresh_answering {time : CString × CString} (htime : Printable time)
    (sec : ℤ) : TimestampCache.zero.refresh (.answering (some time)) sec =
      ⟨sec, true, time.1, time.2⟩ := by
  have hmiss : (!TimestampCache.zero.valid || TimestampCache.zero.sec != sec) = true := rfl
  have hconvert : (TimeLib.answering (some time)).convert sec = some time := by
    simp [TimeLib.convert, TimeLib.answering, Option.filter_some, htime.1, htime.2]
  rw [TimestampCache.refresh, if_pos hmiss, hconvert]

/-- The time that a call which gets as far as the refresh has printed from: that of its second,
which is not empty, unless the conversion it has made failed. -/
theorem FormatRequest.enter_time (h : t.Holds conv) {c : FormatRequest}
    (hlibc : libc.Follows conv c.sec) (hc : c.Refreshes) :
    ((c.enter libc t).conversion ≠ some false ∧ Printable (conv c.sec) ∧
        (t.refresh libc c.sec).2.strings.shown = (true, conv c.sec)) ∨
      ((c.enter libc t).conversion = some false ∧ libc.Fails ∧
        (c.enter libc t).arrays.valid = false ∧
        (t.refresh libc c.sec).2.strings.shown = (false, ascii "time-unavailable", [])) := by
  rcases c.enter_refresh libc t with ⟨-, hconversion, harrays⟩ | ⟨hnot, -⟩
  · rw [hconversion, harrays]
    rcases TimestampArrays.refresh_cases hlibc with
      ⟨hvalid, hsec, heq⟩ | ⟨-, htime, hone, heq⟩ | ⟨-, hfails, hone, heq⟩
    · obtain ⟨hheld, htime⟩ := h hvalid
      rw [hsec] at hheld htime
      rw [heq]
      exact .inl ⟨by rintro ⟨⟩, htime, Prod.ext hvalid hheld⟩
    · rw [heq, hone]
      exact .inl ⟨by rintro ⟨⟩, htime, rfl⟩
    · have hinvalid : (t.refresh libc c.sec).2.valid = false := congrArg TimestampCache.valid heq
      rw [heq, hone]
      exact .inr ⟨rfl, hfails, hinvalid, rfl⟩
  · exact absurd hc hnot

/-- A call on right arrays prints the line of the formatter without a cache: with the texts of the
second, unless the conversion this call has made failed. -/
theorem FormatRequest.enter_line (h : t.Holds conv) (c : FormatRequest)
    (hlibc : libc.Follows conv c.sec) :
    (c.enter libc t).result.line = c.uncachedLine
      (if (c.enter libc t).conversion = some false then none else some (conv c.sec)) := by
  refine FormatResult.line_emptied ?_ c.cap
  rw [FormatRequest.run_eq]
  obtain ⟨l, m, out, cap, strict, writes⟩ := c
  cases l with
  | none => cases cap <;> cases out <;> rfl
  | some l =>
    cases m with
    | none => cases cap <;> cases out <;> rfl
    | some m =>
      refine formatLine_line_congr rfl (fun _ => rfl) out cap strict writes
        fun hcap hout hnsec => ?_
      rcases FormatRequest.enter_time h hlibc ⟨hcap, hout, rfl, m, rfl, hnsec⟩ with
        ⟨hok, htime, hshown⟩ | ⟨hfalse, -, -, hshown⟩
      · rw [if_neg hok, ← TimestampArrays.strings_refresh]
        refine hshown.trans ?_
        rw [TimestampCache.refresh_answering htime]
        rfl
      · rw [if_pos hfalse, ← TimestampArrays.strings_refresh]
        exact hshown

/-- The strict formatter refuses a time that could not be converted, and prints nothing. -/
theorem FormatRequest.uncachedLine_none {c : FormatRequest} (hc : c.Refreshes)
    (hstrict : c.strict = true) :
    ∃ line : Buf, c.uncachedLine none = (-eoverflow, some line, 0) ∧ line 0 = 0 := by
  obtain ⟨l, m, out, cap, strict, writes⟩ := c
  obtain ⟨hcap, hout, hl, m, rfl, hnsec⟩ := hc
  obtain ⟨out, rfl⟩ := Option.isSome_iff_exists.mp hout
  obtain ⟨l, rfl⟩ := Option.isSome_iff_exists.mp hl
  dsimp only at hstrict hcap hnsec
  subst hstrict
  have hrange : ¬(m.ts.nsec < 0 ∨ 1000000000 ≤ m.ts.nsec) := by
    have := hnsec rfl
    omega
  have hinvalid : canonicalTime (TimestampCache.zero.refresh (.answering none) m.ts.sec) = false :=
    rfl
  have hcap0 : cap ≠ 0 := by omega
  refine ⟨(out.put 0 0).put 0 0, ?_, by simp [Buf.put]⟩
  rw [FormatRequest.uncachedLine, formatLine_strict _ l m out writes .zero hcap, if_neg hrange,
    if_pos hinvalid, FormatResult.emptied, if_pos ⟨show -eoverflow ≠ 0 by decide, hcap0⟩]
  rfl

/-- The date and the zone a formatter without a cache prints. -/
def printedTime (time : Option (CString × CString)) : CString × CString :=
  time.getD (ascii "time-unavailable", [])

/-- A call that prints a line has got as far as the refresh. -/
theorem FormatRequest.refreshes_of_printed {c : FormatRequest} (hl : c.l.isSome = true)
    (hm : c.m.isSome = true) (hout : c.out.isSome = true) (hcap : 2 ≤ c.cap)
    {time : Option (CString × CString)} (hrc : (c.uncachedLine time).1 = 0) : c.Refreshes := by
  obtain ⟨l, m, out, cap, strict, writes⟩ := c
  obtain ⟨out, rfl⟩ := Option.isSome_iff_exists.mp hout
  obtain ⟨l, rfl⟩ := Option.isSome_iff_exists.mp hl
  obtain ⟨m, rfl⟩ := Option.isSome_iff_exists.mp hm
  refine ⟨hcap, rfl, rfl, m, rfl, fun hstrict => ?_⟩
  obtain rfl : strict = true := hstrict
  by_contra hrange
  have hrefused : m.ts.nsec < 0 ∨ 1000000000 ≤ m.ts.nsec := by
    have : ¬(0 ≤ m.ts.nsec ∧ m.ts.nsec < 1000000000) := hrange
    omega
  rw [FormatRequest.uncachedLine, formatLine_strict _ l m out writes .zero hcap, if_pos hrefused,
    FormatResult.line, emptied_rc] at hrc
  exact absurd hrc (show -einval ≠ 0 by decide)

/-- The bytes of a line that was printed: the line of its record with the time it was given. -/
theorem FormatRequest.uncachedLine_bytes {c : FormatRequest} {l : LineConfig} {m : LoggerMessage}
    (hl : c.l = some l) (hm : c.m = some m) (hout : c.out.isSome = true) (hcap : 2 ≤ c.cap)
    (hwrites : ∀ a ∈ c.writes, a = none) {time : Option (CString × CString)}
    (htime : ∀ t, time = some t → Printable t) (hrc : (c.uncachedLine time).1 = 0) :
    ∃ line, (c.uncachedLine time).2.1 = some line ∧ line.bytes (c.uncachedLine time).2.2 =
      exactLine (fullLine l (printedTime time) m) c.cap := by
  obtain ⟨l', m', out, cap, strict, writes⟩ := c
  obtain ⟨out, rfl⟩ := Option.isSome_iff_exists.mp hout
  obtain rfl : l' = some l := hl
  obtain rfl : m' = some m := hm
  have herrno : ErrnoNonneg writes := fun failure hf => by cases hwrites _ hf
  obtain ⟨hexact, haccepted, -⟩ :=
    format_line_exact (.answering time) l m out writes .zero hcap herrno
  obtain ⟨⟨line, hline, hbytes, -⟩, -⟩ := hexact hwrites
  have hprinted : ((TimestampCache.zero.refresh (.answering time) m.ts.sec).date,
      (TimestampCache.zero.refresh (.answering time) m.ts.sec).zone) = printedTime time := by
    cases time with
    | none => rfl
    | some time => rw [TimestampCache.refresh_answering (htime time rfl)]; rfl
  rw [hprinted] at hbytes
  cases strict with
  | false => exact ⟨line, hline, hbytes⟩
  | true =>
    obtain ⟨hsame, hlength⟩ := haccepted hrc
    refine ⟨line, hsame.trans hline, ?_⟩
    rw [← hbytes, ← hlength]
    rfl

/-- The cache cannot be observed. After any history of a thread, with any failures of the library,
a call prints the line of the formatter without a cache for the second of its record, whether it
found the second in the arrays or converted it: the line starts with the date of that second, the
microseconds and the zone, and the rest of it does not depend on the time. The exception is a call
whose own conversion has failed: the strict entry point refuses it, the lenient one prints the
fallback text for the date and nothing for the zone, and the next call that gets as far as the
refresh converts again, whatever its second. -/
theorem timestamp_cache_coherent (conv : ℤ → CString × CString) (before : List ThreadOp)
    (hbefore : ∀ op ∈ before, op.Follows conv) (c : FormatRequest) (libc : TimeAnswers)
    (hlibc : libc.Follows conv c.sec) :
    let r := c.enter libc (arraysAfter before)
    (r.conversion ≠ some false → r.result.line = c.uncachedLine (some (conv c.sec))) ∧
    (r.conversion = some false → libc.Fails ∧ r.result.line = c.uncachedLine none ∧
      (c.strict = true → r.result.rc = -eoverflow ∧ r.result.length = 0 ∧
        ∃ line : Buf, r.result.out = some line ∧ line 0 = 0) ∧
      r.arrays.valid = false ∧
      ∀ (between : List ThreadOp) (next : FormatRequest) (libc' : TimeAnswers),
        (∀ op ∈ between, ¬op.Refreshes) → next.Refreshes →
          (next.enter libc' (between.foldl ThreadOp.run r.arrays)).conversion ≠ none) ∧
    (∀ l m, c.l = some l → c.m = some m → c.out.isSome = true → 2 ≤ c.cap →
      (∀ a ∈ c.writes, a = none) → r.result.rc = 0 →
      let time :=
        if r.conversion = some false then (ascii "time-unavailable", []) else conv m.ts.sec
      (r.conversion = some false → c.strict = false) ∧
      ∃ line, r.result.out = some line ∧ line.bytes r.result.length =
        exactLine (time.1 ++ [46] ++ microseconds m.ts.nsec ++ time.2 ++ [32] ++
          levelColumn m.level ++ lineTail l m) c.cap) ∧
    ∀ (before' : List ThreadOp) (libc' : TimeAnswers), (∀ op ∈ before', op.Follows conv) →
      libc'.Follows conv c.sec → r.conversion ≠ some false →
      (c.enter libc' (arraysAfter before')).conversion ≠ some false →
      (c.enter libc' (arraysAfter before')).result.line = r.result.line := by
  intro r
  have hholds := arraysAfter_holds hbefore
  have hline : r.result.line = _ := FormatRequest.enter_line hholds c hlibc
  -- A conversion that failed is one this call has made, and it left the arrays invalid.
  have hfailed : r.conversion = some false → c.Refreshes ∧ libc.Fails ∧ r.arrays.valid = false := by
    intro hfalse
    rcases c.enter_refresh libc (arraysAfter before) with ⟨hrefreshes, -⟩ | ⟨-, hnone, -⟩
    · rcases FormatRequest.enter_time hholds hlibc hrefreshes with
        ⟨hok, -⟩ | ⟨-, hfails, hinvalid, -⟩
      · exact absurd hfalse hok
      · exact ⟨hrefreshes, hfails, hinvalid⟩
    · have := hfalse.symm.trans hnone
      cases this
  have hstrict : r.conversion = some false → c.strict = true →
      ∃ line : Buf, r.result.line = (-eoverflow, some line, 0) ∧ line 0 = 0 := by
    intro hfalse hstrict
    obtain ⟨line, huncached, hempty⟩ := FormatRequest.uncachedLine_none (hfailed hfalse).1 hstrict
    refine ⟨line, ?_, hempty⟩
    rw [hline, if_pos hfalse, huncached]
  refine ⟨fun hok => ?_, fun hfalse => ⟨(hfailed hfalse).2.1, ?_, fun hs => ?_,
    (hfailed hfalse).2.2, fun between next libc' hbetween hnext => ?_⟩,
    fun l m hl hm hout hcap hwrites hrc => ⟨fun hfalse => ?_, ?_⟩,
    fun before' libc' hbefore' hlibc' hok hok' => ?_⟩
  · rw [hline, if_neg hok]
  · rw [hline, if_pos hfalse]
  · obtain ⟨line, heq, hempty⟩ := hstrict hfalse hs
    obtain ⟨hrc, hout, hlength⟩ := by simpa [FormatResult.line] using heq
    exact ⟨hrc, hlength, line, hout, hempty⟩
  -- arrays that are invalid make the next request convert again
  · have hinvalid := invalid_of_no_refresh (hfailed hfalse).2.2 hbetween
    rcases next.enter_refresh libc' (between.foldl ThreadOp.run r.arrays) with
      ⟨-, hconversion, -⟩ | ⟨hnot, -⟩
    · rw [hconversion, TimestampArrays.refresh_conversion, if_neg (by simp [hinvalid])]
      simp
    · exact absurd hnext hnot
  · by_contra hs
    obtain ⟨line, heq, -⟩ := hstrict hfalse (by simpa using hs)
    have hcode : r.result.rc = -eoverflow := congrArg Prod.fst heq
    rw [hcode] at hrc
    exact absurd hrc (by decide)
  -- a printed line asked for the second of its own record
  · have hsec : c.sec = m.ts.sec := by rw [FormatRequest.sec, hm]; rfl
    have hzero : (c.uncachedLine
        (if r.conversion = some false then none else some (conv c.sec))).1 = 0 := by
      rw [← hline]
      exact hrc
    have hrefreshes : c.Refreshes := FormatRequest.refreshes_of_printed
      (Option.isSome_of_eq_some hl) (Option.isSome_of_eq_some hm) hout hcap hzero
    -- a time that came out of the cache can be printed
    have hprintable : ∀ t,
      (if r.conversion = some false then none else some (conv c.sec)) = some t → Printable t := by
      intro t ht
      rcases FormatRequest.enter_time hholds hlibc hrefreshes with ⟨hok, htime, -⟩ | ⟨hfalse, -⟩
      · rw [if_neg hok] at ht
        exact Option.some.inj ht ▸ htime
      · rw [if_pos hfalse] at ht
        cases ht
    obtain ⟨line, hout', hbytes⟩ :=
      FormatRequest.uncachedLine_bytes hl hm hout hcap hwrites hprintable hzero
    rw [← hline] at hout' hbytes
    refine ⟨line, hout', hbytes.trans ?_⟩
    rw [fullLine_eq, ← hsec]
    split <;> rfl
  · rw [hline, if_neg hok, FormatRequest.enter_line (arraysAfter_holds hbefore') c hlibc',
      if_neg hok']

/-- The conversion function of a place where it is always one time. -/
def sampleConversion : ℤ → CString × CString :=
  fun _ => (ascii "2024-05-06T07:08:09", ascii "+0000")

/-- A library that stores the texts of `sampleConversion`. -/
def sampleAnswers : TimeAnswers where
  localtimeR := true
  date := .stored ⟨ascii "2024-05-06T07:08:09", by decide⟩ (by decide)
  zone := .stored ⟨ascii "+0000", by decide⟩ (by decide)

/-- A call that prints `sampleRecord` in 64 bytes. -/
def sampleRequest (strict : Bool) : FormatRequest :=
  ⟨some ⟨.normal, false, false, false⟩, some sampleRecord, some .zero, 64, strict, []⟩

/-- A refresh whose second `strftime` fails after the first has written the date. -/
def zoneFailure : TimeAnswers := { sampleAnswers with zone := .failed .zero }

/-- After a lenient call for which only the zone failed, a strict call for the same second converts
again and prints the second. -/
theorem timestamp_cache_coherent_sample :
    let r := (sampleRequest true).enter sampleAnswers
      (arraysAfter [.line (sampleRequest false) zoneFailure])
    r.conversion = some true ∧ ∃ line, r.result.out = some line ∧
      line.bytes r.result.length = ascii "2024-05-06T07:08:09.000000+0000 INFO  [app] hi\n" := by
  intro r
  have hfollows : sampleAnswers.Follows sampleConversion (sampleRequest true).sec := fun _ =>
    ⟨fun _ h => (Option.some.inj h).symm, fun _ h => (Option.some.inj h).symm⟩
  have hbefore : ∀ op ∈ [ThreadOp.line (sampleRequest false) zoneFailure],
      op.Follows sampleConversion := by
    intro op hop
    obtain rfl := List.mem_singleton.mp hop
    exact fun _ => ⟨fun _ h => (Option.some.inj h).symm, fun _ h => by cases h⟩
  have hconversion : r.conversion = some true := by decide
  obtain ⟨-, -, hprinted, -⟩ := timestamp_cache_coherent sampleConversion
    [.line (sampleRequest false) zoneFailure] hbefore (sampleRequest true) sampleAnswers hfollows
  obtain ⟨-, line, hout, hbytes⟩ := hprinted _ sampleRecord rfl rfl rfl (by decide)
    (by rintro a ⟨⟩) (by decide)
  exact ⟨hconversion, line, hout, hbytes.trans (by decide)⟩

end Coherence

end CLogger
