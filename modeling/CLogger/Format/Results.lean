import CLogger.Format.Truncation

/-!
# The result of a formatting

What the callers of `logger_format_line` and `logger_format_line_checked` conclude from the result:
the code is 0 or negative, the length is zero exactly when it is negative, and a line that has been
formatted ends with its line feed.

* `FormatOk`, and `loggerFormatLine_ok`, `loggerFormatLineChecked_ok`.
* `loggerFormatLineChecked_whole`: a strict line is not cut.
-/

namespace CLogger

section Append

/-- A line that is full returns a negative error or 0. -/
theorem overflow_nonpos (line : LineBuffer) : line.overflow.1 ≤ 0 := by
  rw [LineBuffer.overflow]
  split
  · exact show -eoverflow ≤ 0 by decide
  · exact le_rfl

/-- A call of `append` returns 0 or a negated error number. -/
theorem append_nonpos (line : LineBuffer) (bytes : List UInt8) {answers : VsnprintfAnswers}
    (herrno : ErrnoNonneg answers) : (append line bytes answers).1.1 ≤ 0 ∧
      ErrnoNonneg (append line bytes answers).2 := by
  by_cases hfull : line.cap - 1 ≤ line.used
  · rw [append_full hfull]
    exact ⟨overflow_nonpos line, herrno⟩
  have hroom := not_le.mp hfull
  have hconverted : nextAnswer answers = none → (append line bytes answers).1.1 ≤ 0 ∧
      ErrnoNonneg (append line bytes answers).2 := by
    intro hanswer
    rw [append_converted hroom bytes hanswer]
    refine ⟨?_, herrno.tail⟩
    split
    · exact overflow_nonpos _
    · exact le_rfl
  rcases answers with _ | ⟨_ | failure, rest⟩
  · exact hconverted rfl
  · exact hconverted rfl
  · by_cases hoverflow : failure.errno = eoverflow
    · rw [append_eoverflow hroom bytes hoverflow]
      exact ⟨overflow_nonpos _, herrno.tail⟩
    · obtain ⟨line', hfailed⟩ := append_failed hroom bytes hoverflow rest
      have hnonneg := herrno failure List.mem_cons_self
      rw [hfailed]
      refine ⟨?_, herrno.tail⟩
      split
      · exact neg_nonpos.mpr hnonneg
      · exact show -eilseq ≤ 0 by decide

/-- So does a series of pieces, unless `vsnprintf` answers with a positive error. -/
theorem appendAll_nonpos (line : LineBuffer) (pieces : List (List UInt8))
    {answers : VsnprintfAnswers}
    (herrno : ErrnoNonneg answers) : (appendAll line pieces answers).1 ≤ 0 := by
  induction pieces generalizing line answers with
  | nil => exact le_rfl
  | cons piece rest ih =>
    rw [appendAll]
    have hfirst := append_nonpos line piece herrno
    split
    · exact hfirst.1
    · exact ih _ hfirst.2

/-- A strict formatting that succeeds shows all its pieces. -/
theorem appendAll_shows_strict {line : LineBuffer} {pieces : List (List UInt8)} {out : Buf}
    {shown : List UInt8} {answers : VsnprintfAnswers} (hstrict : line.strict = true)
    (hne : ∀ p ∈ pieces, p ≠ []) (herrno : ErrnoNonneg answers) (h : Shows line out shown False)
    (hfits : shown.length ≤ line.cap - 1) (hzero : (appendAll line pieces answers).1 = 0) :
    (appendAll line pieces answers).2.cap = line.cap ∧
      (shown ++ pieces.flatten).length ≤ line.cap - 1 ∧
      Shows (appendAll line pieces answers).2 out (shown ++ pieces.flatten) False := by
  induction pieces generalizing line answers shown with
  | nil =>
    rw [List.flatten_nil, List.append_nil]
    exact ⟨rfl, hfits, h⟩
  | cons piece rest ih =>
    rw [List.flatten_cons, ← List.append_assoc]
    rw [appendAll] at hzero ⊢
    rcases append_strict hstrict h (hne piece List.mem_cons_self) herrno with
      ⟨-, line', happend, -, hstrict', hcap, hfits', hshows⟩ | ⟨hneg, -⟩
    · rw [happend] at hzero ⊢
      rw [← hcap] at hfits' ⊢
      exact ih hstrict' (fun p hp => hne p (List.mem_cons_of_mem _ hp)) herrno.tail hshows hfits'
        hzero
    · rw [if_pos hneg.ne] at hzero
      exact absurd hzero hneg.ne

end Append

/-- What a formatting promises its caller. -/
structure FormatOk (r : FormatResult) : Prop where
  nonpos : r.rc ≤ 0
  empty : r.rc ≠ 0 → r.length = 0
  /-- A line that has been formatted ends with its line feed. -/
  ended : r.rc = 0 → ∃ out text, r.out = some out ∧ out.bytes r.length = text ++ [10]

/-- A negative error with length 0 is a fine result. -/
theorem FormatOk.failed {r : FormatResult} (hneg : r.rc < 0) (hlength : r.length = 0) :
    FormatOk r :=
  ⟨hneg.le, fun _ => hlength, fun hzero => absurd hzero hneg.ne⟩

/-- It stays one when the output is emptied. -/
theorem FormatOk.emptied {r : FormatResult} (h : FormatOk r) (cap : ℕ) :
    FormatOk (r.emptied cap) := by
  refine ⟨(emptied_rc r cap).symm ▸ h.nonpos, ?_, fun hzero => ?_⟩
  · rw [emptied_rc, emptied_length]
    exact h.empty
  · rw [emptied_rc] at hzero
    rw [emptied_of_success hzero]
    exact h.ended hzero

/-- The end of a formatting has a fine result. -/
theorem lineResult_ok {result : ℤ × LineBuffer} (hnonpos : result.1 ≤ 0) (cap : ℕ)
    (time : TimestampCache) : FormatOk (lineResult result cap time) := by
  rw [lineResult]
  split
  · rename_i hfailed
    exact .failed (lt_of_le_of_ne hnonpos hfailed) rfl
  · refine ⟨le_rfl, fun hne => absurd rfl hne, fun _ => ⟨_, ?_, rfl, ?_⟩⟩
    · exact (if result.2.truncated then loggerTextMarkTruncated result.2.out (cap - 1)
        else result.2.out).bytes result.2.used
    · -- the terminator behind the line feed is not a part of the line
      rw [finishLine]
      dsimp only
      rw [← Buf.bytes_put]
      exact Buf.bytes_congr fun i hi => Buf.put_of_ne _ _ (by omega)

section Lines

variable {τ : Type} (lib : TimeLib τ) (l : LineConfig) (m : LoggerMessage) (out : Buf)
  {answers : VsnprintfAnswers} (cache : TimestampCache) {cap : ℕ}

/-- `logger_format_line` returns the length of what it has printed, or a negative error. -/
theorem loggerFormatLine_ok (hcap : 2 ≤ cap) (herrno : ErrnoNonneg answers) :
    FormatOk (loggerFormatLine lib (some l) (some m) (some out) cap answers cache) := by
  rw [loggerFormatLine, formatLine_lenient lib l m out answers cache hcap]
  exact (lineResult_ok (appendAll_nonpos _ _ herrno) _ _).emptied cap

/-- So does `logger_format_line_checked`. -/
theorem loggerFormatLineChecked_ok (hcap : 2 ≤ cap) (herrno : ErrnoNonneg answers) :
    FormatOk (loggerFormatLineChecked lib (some l) (some m) (some out) cap answers cache) := by
  rw [loggerFormatLineChecked, formatLine_strict lib l m out answers cache hcap]
  refine FormatOk.emptied ?_ cap
  split
  · exact .failed (show -einval < 0 by decide) rfl
  split
  · exact .failed (show -eoverflow < 0 by decide) rfl
  · exact lineResult_ok (appendAll_nonpos _ _ herrno) _ _

/-- A strict line is the whole line, with a time in the canonical form. -/
theorem loggerFormatLineChecked_whole (hcap : 2 ≤ cap) (herrno : ErrnoNonneg answers)
    (hzero : (loggerFormatLineChecked lib (some l) (some m) (some out) cap answers cache).rc = 0) :
    canonicalTime (cache.refresh lib m.ts.sec) = true ∧ ∃ line,
      (loggerFormatLineChecked lib (some l) (some m) (some out) cap answers cache).out = some line ∧
      line.bytes
      (loggerFormatLineChecked lib (some l) (some m) (some out) cap answers cache).length =
        fullLine l ((cache.refresh lib m.ts.sec).date, (cache.refresh lib m.ts.sec).zone) m ++
          [10] := by
  rw [← flatten_lineFields]
  rw [loggerFormatLineChecked, emptied_rc] at hzero
  rw [loggerFormatLineChecked, emptied_of_success hzero]
  rw [formatLine_strict lib l m out answers cache hcap] at hzero ⊢
  split at hzero
  · exact absurd hzero (show -einval ≠ 0 by decide)
  rename_i hrange
  split at hzero
  · exact absurd hzero (show -eoverflow ≠ 0 by decide)
  rename_i htime
  have hresult : (appendAll (.start out cap true) (lineFields l (cache.refresh lib m.ts.sec) m)
      answers).1 = 0 := by
    by_contra hne
    rw [lineResult, if_pos hne] at hzero
    exact hne hzero
  obtain ⟨hlinecap, hfits, hshows⟩ := appendAll_shows_strict rfl
    (lineFields_ne_nil l m (cache.refresh lib m.ts.sec)) herrno (shows_start out hcap true)
    (Nat.zero_le _) hresult
  obtain ⟨hbytes, -⟩ := finishLine_bytes hcap hlinecap hshows
  rw [if_neg hrange, if_neg htime, lineResult, if_neg (not_not.mpr hresult)]
  refine ⟨by simpa using htime, _, rfl, hbytes.trans ?_⟩
  -- nothing has been cut
  have htruncated := hshows.truncated
  rw [false_or, hlinecap] at htruncated
  rw [if_neg fun htrue => (htruncated.mp htrue).not_ge hfits, List.nil_append]

end Lines

end CLogger
