import CLogger.Format.Correctness
import CLogger.Format.Line

/-!
# What a line shows of its record

A line is the concatenation of the expansions in `lineFields`, cut at the capacity. `Shows` relates
the buffer under construction to the bytes converted so far, whatever each `vsnprintf` answers;
`appendAll_shows` carries it over a whole formatting, and `finishLine_bytes` gives the bytes that
the truncation mark, the line feed and the terminator leave.

## Main results

* `format_line_exact`: the line of a formatting whose conversions succeed, byte for byte, and the
  conditions under which the strict entry point accepts it;
* `shortened_line_marked_iff`: when a line that lost a piece to an overflowing conversion still
  shows the truncation mark.
-/

namespace CLogger

section Bytes

/-- The first `n` bytes of an array. -/
def Buf.bytes (b : Buf) (n : ℕ) : List UInt8 := (List.range n).map b

@[simp]
theorem Buf.length_bytes (b : Buf) (n : ℕ) : (b.bytes n).length = n := by simp [Buf.bytes]

@[simp]
theorem Buf.getElem_bytes (b : Buf) {n i : ℕ} (hi : i < (b.bytes n).length) :
    (b.bytes n)[i] = b i := by
  simp [Buf.bytes]

theorem Buf.bytes_succ (b : Buf) (n : ℕ) : b.bytes (n + 1) = b.bytes n ++ [b n] := by
  simp [Buf.bytes, List.range_succ]

theorem Buf.bytes_congr {b b' : Buf} {n : ℕ} (h : ∀ i < n, b i = b' i) : b.bytes n = b'.bytes n :=
  List.map_congr_left fun i hi => h i (List.mem_range.mp hi)

theorem Buf.take_bytes (b : Buf) {k n : ℕ} (hk : k ≤ n) : (b.bytes n).take k = b.bytes k := by
  rw [Buf.bytes, Buf.bytes, ← List.map_take, List.take_range, Nat.min_eq_left hk]

/-- The bytes of an array into which a list has been written. -/
theorem Buf.bytes_overlay (b : Buf) {pos n : ℕ} {xs : List UInt8} (hn : n ≤ pos + xs.length) :
    (b.overlay pos xs).bytes n = (b.bytes pos ++ xs).take n := by
  refine List.ext_getElem (by simp; omega) fun i hi hi' => ?_
  rw [Buf.length_bytes] at hi
  rw [List.getElem_take, Buf.getElem_bytes, Buf.overlay]
  rcases Nat.lt_or_ge i pos with hlt | hge
  · rw [if_neg (by omega), List.getElem_append_left (by simpa using hlt), Buf.getElem_bytes]
  · rw [if_pos ⟨hge, by omega⟩, List.getElem_append_right (by simpa using hge)]
    simp only [Buf.length_bytes]
    rw [List.getD_eq_getElem?_getD, List.getElem?_eq_getElem (by omega), Option.getD_some]

theorem Buf.overlay_of_le (b : Buf) {pos i : ℕ} {xs : List UInt8} (hi : pos + xs.length ≤ i) :
    b.overlay pos xs i = b i := by
  rw [Buf.overlay, if_neg (by omega)]

/-- The bytes that end with an assigned byte. -/
theorem Buf.bytes_put (b : Buf) (n : ℕ) (v : UInt8) :
    (b.put n v).bytes (n + 1) = b.bytes n ++ [v] := by
  have hkeep : (b.put n v).bytes n = b.bytes n :=
    Buf.bytes_congr fun i hi => by rw [Buf.put, if_neg (by omega)]
  rw [Buf.bytes_succ, hkeep, Buf.put, if_pos rfl]

theorem Buf.put_of_ne (b : Buf) {n i : ℕ} (v : UInt8) (hi : i ≠ n) : b.put n v i = b i := by
  rw [Buf.put, if_neg hi]

end Bytes

section Append

variable {line : LineBuffer} {out : Buf} {shown : List UInt8} {lost : Prop}

/-- The line under construction shows the bytes `shown`, as far as they fit; `lost` says that a
piece has been lost before. Beyond its room the array is still `out`. -/
structure Shows (line : LineBuffer) (out : Buf) (shown : List UInt8) (lost : Prop) : Prop where
  bytes : line.out.bytes line.used = shown.take (line.cap - 1)
  truncated : line.truncated = true ↔ lost ∨ line.cap - 1 < shown.length
  frame : ∀ i, line.cap ≤ i → line.out i = out i

theorem Shows.used_eq (h : Shows line out shown lost) :
    line.used = min (line.cap - 1) shown.length := by
  have hlen := congrArg List.length h.bytes
  rwa [Buf.length_bytes, List.length_take] at hlen

/-- A conversion that succeeds adds its bytes, as far as they fit. -/
theorem Shows.vsnprintf (h : Shows line out shown lost) (bytes : List UInt8)
    (hroom : line.used < line.cap - 1) :
    (CLogger.vsnprintf line.out line.used (line.cap - line.used) bytes).bytes
        (min (line.cap - 1) (line.used + bytes.length)) =
      (shown ++ bytes).take (line.cap - 1) ∧
    ∀ i, line.cap ≤ i →
      CLogger.vsnprintf line.out line.used (line.cap - line.used) bytes i = out i := by
  have hused := h.used_eq
  have hshown : line.out.bytes line.used = shown := by
    rw [h.bytes, List.take_of_length_le (by omega)]
  rw [CLogger.vsnprintf, if_neg (by omega)]
  have hlen : (bytes.take (line.cap - line.used - 1) ++ [(0 : UInt8)]).length =
      min (line.cap - line.used - 1) bytes.length + 1 := by simp
  constructor
  · rw [Buf.bytes_overlay _ (by rw [hlen]; omega), hshown]
    have hslen : shown.length = line.used := by rw [← hshown, Buf.length_bytes]
    rw [← List.append_assoc, List.take_append_of_le_length (by simp; omega)]
    rw [List.take_append, List.take_append, hslen, List.take_take]
    congr 1
    · rw [List.take_of_length_le (by omega), List.take_of_length_le (by omega)]
    · rw [List.take_eq_take_iff]
      omega
  · intro i hi
    rw [Buf.overlay_of_le _ (by rw [hlen]; omega)]
    exact h.frame i hi

/-- The answer a call of `append` gets when it runs its conversion. -/
def nextAnswer (answers : VsnprintfAnswers) : Option VsnprintfFailure := answers.head?.join

/-- A call of `append` that finds the line full. -/
theorem append_full (h : line.cap - 1 ≤ line.used) (bytes : List UInt8)
    (answers : VsnprintfAnswers) : append line bytes answers = (line.overflow, answers) := by
  unfold append
  exact if_pos h

/-- A call of `append` whose conversion succeeds. -/
theorem append_converted (hroom : line.used < line.cap - 1) (bytes : List UInt8)
    {answers : VsnprintfAnswers} (hanswer : nextAnswer answers = none) :
    append line bytes answers =
      (if line.cap - line.used ≤ bytes.length then
        LineBuffer.overflow { line with
          out := vsnprintf line.out line.used (line.cap - line.used) bytes
          used := line.used + (line.cap - line.used - 1) }
      else (0, { line with
        out := vsnprintf line.out line.used (line.cap - line.used) bytes
        used := line.used + bytes.length }), answers.tail) := by
  have hnotfull := not_le.mpr hroom
  by_cases hfit : line.cap - line.used ≤ bytes.length
  · match answers with
    | [] => simp only [append, if_neg hnotfull, if_pos hfit]
    | none :: rest => simp only [append, if_neg hnotfull, if_pos hfit]
    | some failure :: rest => cases hanswer
  · match answers with
    | [] => simp only [append, if_neg hnotfull, if_neg hfit]
    | none :: rest => simp only [append, if_neg hnotfull, if_neg hfit]
    | some failure :: rest => cases hanswer

/-- A call of `append` whose conversion fails with `EOVERFLOW`. -/
theorem append_eoverflow (hroom : line.used < line.cap - 1) (bytes : List UInt8)
    {failure : VsnprintfFailure} (herrno : failure.errno = eoverflow) (rest : VsnprintfAnswers) :
    append line bytes (some failure :: rest) = (LineBuffer.overflow { line with
      out := fun i => if line.used ≤ i ∧ i < line.cap then failure.left i else line.out i },
      rest) := by
  rw [append]
  simp only [if_neg (not_le.mpr hroom), herrno]
  rfl

/-- A call of `append` whose conversion fails otherwise. -/
theorem append_failed (hroom : line.used < line.cap - 1) (bytes : List UInt8)
    {failure : VsnprintfFailure} (herrno : failure.errno ≠ eoverflow) (rest : VsnprintfAnswers) :
    ∃ line', append line bytes (some failure :: rest) =
      ((-(if failure.errno ≠ 0 then failure.errno else eilseq), line'), rest) := by
  rw [append]
  simp only [if_neg (not_le.mpr hroom)]
  have hne : -(if failure.errno ≠ 0 then failure.errno else eilseq) ≠ -eoverflow := by
    split_ifs
    · exact fun h => herrno (neg_injective h)
    · decide
  rw [if_pos hne]
  exact ⟨_, rfl⟩

/-- The bytes of the pieces whose conversion succeeds. -/
def convertedBytes : List (List UInt8) → VsnprintfAnswers → List UInt8
  | [], _ => []
  | piece :: rest, answers =>
    (if (nextAnswer answers).isSome then [] else piece) ++ convertedBytes rest answers.tail

/-- The conversion of one of the pieces fails. -/
def SomeFails (pieces : List (List UInt8)) (answers : VsnprintfAnswers) : Prop :=
  (answers.take pieces.length).any Option.isSome = true

instance (pieces : List (List UInt8)) (answers : VsnprintfAnswers) :
    Decidable (SomeFails pieces answers) :=
  inferInstanceAs (Decidable (_ = true))

/-- All failures of the conversions are `EOVERFLOW`. -/
def OnlyEoverflow (answers : VsnprintfAnswers) : Prop :=
  ∀ failure, some failure ∈ answers → failure.errno = eoverflow

theorem OnlyEoverflow.tail {answers : VsnprintfAnswers} (h : OnlyEoverflow answers) :
    OnlyEoverflow answers.tail := fun failure hf => h failure (List.mem_of_mem_tail hf)

theorem someFails_nil (answers : VsnprintfAnswers) : ¬SomeFails [] answers := by
  simp [SomeFails]

theorem someFails_cons (piece : List UInt8) (rest : List (List UInt8))
    (answers : VsnprintfAnswers) : SomeFails (piece :: rest) answers ↔
      (nextAnswer answers).isSome = true ∨ SomeFails rest answers.tail := by
  match answers with
  | [] => simp [SomeFails, nextAnswer]
  | none :: answers => simp [SomeFails, nextAnswer]
  | some failure :: answers => simp [SomeFails, nextAnswer]

/-- Something of a non-empty list of pieces is converted, or a conversion fails. -/
theorem length_convertedBytes {pieces : List (List UInt8)} (hne : ∀ p ∈ pieces, p ≠ [])
    (hpieces : pieces ≠ []) (answers : VsnprintfAnswers) :
    SomeFails pieces answers ∨ 0 < (convertedBytes pieces answers).length := by
  cases pieces with
  | nil => exact absurd rfl hpieces
  | cons piece rest =>
    rw [someFails_cons, convertedBytes]
    cases (nextAnswer answers).isSome with
    | true => exact .inl (.inl rfl)
    | false =>
      refine .inr ?_
      have := List.length_pos_iff.mpr (hne piece (List.mem_cons_self ..))
      simp only [Bool.false_eq_true, if_false, List.length_append]
      omega

theorem overflow_of_lenient (hstrict : line.strict = false) :
    line.overflow = (0, { line with truncated := true }) := by
  rw [LineBuffer.overflow, hstrict]
  rfl

/-- Once the line is full, `append` only records the truncation. -/
theorem appendAll_full (hstrict : line.strict = false) (h : line.cap - 1 ≤ line.used)
    (pieces : List (List UInt8)) (answers : VsnprintfAnswers) :
    appendAll line pieces answers =
      (0, { line with truncated := line.truncated || !pieces.isEmpty }) := by
  induction pieces generalizing line with
  | nil => simp [appendAll]
  | cons piece rest ih =>
    rw [appendAll, append_full h, overflow_of_lenient hstrict]
    simp only [ne_eq, not_true_eq_false, if_false]
    rw [ih (by exact hstrict) (by exact h)]
    simp

/-- A conversion that overflows the line or fits it. -/
theorem append_converted_shows (hstrict : line.strict = false) (hroom : line.used < line.cap - 1)
    (h : Shows line out shown lost) (piece : List UInt8) {answers : VsnprintfAnswers}
    (hanswer : nextAnswer answers = none) :
    ∃ line', append line piece answers = ((0, line'), answers.tail) ∧ line'.strict = false ∧
      line'.cap = line.cap ∧ Shows line' out (shown ++ piece) lost := by
  have hused := h.used_eq
  obtain ⟨hbytes, hframe⟩ := h.vsnprintf piece hroom
  have htrunc := h.truncated
  rw [append_converted hroom piece hanswer]
  split_ifs with hover
  · rw [overflow_of_lenient (by exact hstrict)]
    refine ⟨_, rfl, hstrict, rfl, ?_, ?_, hframe⟩
    · have hend : line.used + (line.cap - line.used - 1) = line.cap - 1 := by omega
      rw [Nat.min_eq_left (by omega)] at hbytes
      dsimp only
      rw [hend]
      exact hbytes
    · simp only [List.length_append, true_iff]
      exact .inr (by omega)
  · refine ⟨_, rfl, hstrict, rfl, ?_, ?_, hframe⟩
    · rwa [Nat.min_eq_right (by omega)] at hbytes
    · simp only [List.length_append]
      rw [htrunc]
      refine or_congr_right ⟨fun hlt => ?_, fun hlt => ?_⟩
      · omega
      · omega

/-- A conversion that fails with `EOVERFLOW` loses its piece. -/
theorem append_eoverflow_shows (hstrict : line.strict = false) (hroom : line.used < line.cap - 1)
    (h : Shows line out shown lost) (piece : List UInt8) {failure : VsnprintfFailure}
    (herrno : failure.errno = eoverflow) (rest : VsnprintfAnswers) :
    ∃ line', append line piece (some failure :: rest) = ((0, line'), rest) ∧
      line'.strict = false ∧ line'.cap = line.cap ∧ Shows line' out shown True := by
  rw [append_eoverflow hroom piece herrno, overflow_of_lenient (by exact hstrict)]
  refine ⟨_, rfl, hstrict, rfl, ?_, by simp, ?_⟩
  · rw [← h.bytes]
    refine Buf.bytes_congr fun i hi => ?_
    have hi : i < line.used := hi
    exact if_neg (by omega)
  · intro i hi
    have hi : line.cap ≤ i := hi
    refine Eq.trans (if_neg (by omega)) (h.frame i hi)

/-- What a formatting that tolerates truncation shows: the bytes converted before and those of the
pieces whose conversion succeeds, as far as they fit. -/
theorem appendAll_shows {pieces : List (List UInt8)} {answers : VsnprintfAnswers}
    (hstrict : line.strict = false) (hne : ∀ p ∈ pieces, p ≠ []) (honly : OnlyEoverflow answers)
    (h : Shows line out shown lost) :
    (appendAll line pieces answers).1 = 0 ∧
      (appendAll line pieces answers).2.cap = line.cap ∧
      Shows (appendAll line pieces answers).2 out (shown ++ convertedBytes pieces answers)
        (lost ∨ SomeFails pieces answers) := by
  -- the induction runs over the pieces, and what is shown grows with each
  induction pieces generalizing line answers shown lost with
  | nil =>
    refine ⟨rfl, rfl, ?_⟩
    rw [convertedBytes, List.append_nil, or_iff_left (someFails_nil answers)]
    exact h
  | cons piece rest ih =>
    have hrest : ∀ p ∈ rest, p ≠ [] := fun p hp => hne p (List.mem_cons_of_mem _ hp)
    rcases Nat.lt_or_ge line.used (line.cap - 1) with hroom | hfull
    · rw [someFails_cons, convertedBytes, appendAll]
      -- the conversion worked, or it failed with the one error that is allowed
      cases hanswer : nextAnswer answers with
      | none =>
        obtain ⟨line', happend, hstrict', hcap, hshows⟩ :=
          append_converted_shows hstrict hroom h piece hanswer
        rw [happend]
        simpa [hcap, List.append_assoc] using ih hstrict' hrest honly.tail hshows
      | some failure =>
        match answers, hanswer with
        | some failure' :: answers', heq =>
          obtain ⟨line', happend, hstrict', hcap, hshows⟩ :=
            append_eoverflow_shows hstrict hroom h piece
              (honly failure' (List.mem_cons_self ..)) answers'
          rw [happend]
          simpa [hcap] using ih hstrict' hrest honly.tail hshows
    · -- The line is full: all that is left is cut, and there is something left.
      have hused := h.used_eq
      have hmore := length_convertedBytes hne (List.cons_ne_nil _ _) answers
      rw [appendAll_full hstrict hfull]
      -- the bytes shown are the same, and the mark is set
      refine ⟨rfl, rfl, ?_, ?_, h.frame⟩
      · have hcut : (shown ++ convertedBytes (piece :: rest) answers).take (line.cap - 1) =
            shown.take (line.cap - 1) := List.take_append_of_le_length (by omega)
        exact h.bytes.trans hcut.symm
      · simp only [List.length_append, List.isEmpty_cons, Bool.not_false, Bool.or_true, true_iff]
        rcases hmore with hfails | hpos
        · exact .inl (.inr hfails)
        · exact .inr (by omega)

end Append

section Strict

variable {line : LineBuffer} {out : Buf} {shown : List UInt8}

/-- Every failure of a conversion leaves a non-negative `errno`. -/
def ErrnoNonneg (answers : VsnprintfAnswers) : Prop :=
  ∀ failure, some failure ∈ answers → 0 ≤ failure.errno

theorem ErrnoNonneg.tail {answers : VsnprintfAnswers} (h : ErrnoNonneg answers) :
    ErrnoNonneg answers.tail := fun failure hf => h failure (List.mem_of_mem_tail hf)

theorem overflow_of_strict (hstrict : line.strict = true) :
    line.overflow = (-eoverflow, line) := by
  rw [LineBuffer.overflow, hstrict]
  rfl

/-- A strict `append` stores its whole piece, as a lenient one would, or fails. -/
theorem append_strict (hstrict : line.strict = true) (h : Shows line out shown False)
    {piece : List UInt8} (hne : piece ≠ []) {answers : VsnprintfAnswers}
    (herrno : ErrnoNonneg answers) :
    (nextAnswer answers = none ∧ ∃ line', append line piece answers = ((0, line'), answers.tail) ∧
      append { line with strict := false } piece answers =
        ((0, { line' with strict := false }), answers.tail) ∧
      line'.strict = true ∧ line'.cap = line.cap ∧ (shown ++ piece).length ≤ line.cap - 1 ∧
      Shows line' out (shown ++ piece) False) ∨
    ((append line piece answers).1.1 < 0 ∧
      ((nextAnswer answers).isSome = true ∨ line.cap - 1 < (shown ++ piece).length)) := by
  have hused := h.used_eq
  have hpos := List.length_pos_iff.mpr hne
  have hneg : -eoverflow < 0 := by decide
  rw [List.length_append]
  -- a full line asks for no conversion at all
  rcases Nat.lt_or_ge line.used (line.cap - 1) with hroom | hfull
  · cases hanswer : nextAnswer answers with
    | none =>
      obtain ⟨hbytes, hframe⟩ := h.vsnprintf piece hroom
      have hlenient := append_converted
        (show ({ line with strict := false } : LineBuffer).used < line.cap - 1 from hroom) piece
        hanswer
      rw [append_converted hroom piece hanswer, hlenient]
      -- the conversion worked, but its bytes may not fit
      split_ifs with hover
      · rw [overflow_of_strict (by exact hstrict)]
        exact .inr ⟨hneg, .inr (by omega)⟩
      · refine .inl ⟨rfl, _, rfl, rfl, hstrict, rfl, by omega, ?_, ?_, hframe⟩
        · rwa [Nat.min_eq_right (by omega)] at hbytes
        · simp only [List.length_append]
          rw [h.truncated]
          constructor
          · rintro (hfalse | hlt)
            · exact hfalse.elim
            · omega
          · rintro (hfalse | hlt)
            · exact hfalse.elim
            · omega
    | some failure =>
      -- it failed: the strict line passes the error on, whichever it is
      refine .inr ⟨?_, .inl rfl⟩
      match answers, hanswer with
      | some failure' :: answers', heq =>
        have hnonneg := herrno failure' (List.mem_cons_self ..)
        -- this one error goes through the overflow label, with the same code
        by_cases hover : failure'.errno = eoverflow
        · rw [append_eoverflow hroom piece hover, overflow_of_strict (by exact hstrict)]
          exact hneg
        · obtain ⟨line', happend⟩ := append_failed hroom piece hover answers'
          rw [happend]
          show -(if failure'.errno ≠ 0 then failure'.errno else eilseq) < 0
          split_ifs with hzero
          · omega
          · decide
  · rw [append_full hfull, overflow_of_strict hstrict]
    exact .inr ⟨hneg, .inr (by omega)⟩

/-- A strict formatting stores everything, as a lenient one would, or fails. -/
theorem appendAll_strict {pieces : List (List UInt8)} {answers : VsnprintfAnswers}
    (hstrict : line.strict = true) (hne : ∀ p ∈ pieces, p ≠ []) (herrno : ErrnoNonneg answers)
    (h : Shows line out shown False) (hfits : shown.length ≤ line.cap - 1) :
    ((appendAll line pieces answers).1 = 0 ∧ ¬SomeFails pieces answers ∧
      (shown ++ pieces.flatten).length ≤ line.cap - 1 ∧
      appendAll { line with strict := false } pieces answers =
        (0, { (appendAll line pieces answers).2 with strict := false })) ∨
    ((appendAll line pieces answers).1 < 0 ∧
      (SomeFails pieces answers ∨ line.cap - 1 < (shown ++ pieces.flatten).length)) := by
  induction pieces generalizing line answers shown with
  | nil => exact .inl ⟨rfl, someFails_nil answers, by simpa using hfits, rfl⟩
  | cons piece rest ih =>
    have hpiece := hne piece (List.mem_cons_self ..)
    have hrest : ∀ p ∈ rest, p ≠ [] := fun p hp => hne p (List.mem_cons_of_mem _ hp)
    rw [someFails_cons, List.flatten_cons, ← List.append_assoc, List.length_append, appendAll,
      appendAll]
    rcases append_strict hstrict h hpiece herrno with
      ⟨hanswer, line', happend, hlenient, hstrict', hcap, hfits', hshows⟩ | ⟨hneg, hwhy⟩
    · have hih := ih hstrict' hrest herrno.tail hshows (by rw [hcap]; exact hfits')
      rw [List.length_append] at hih
      rw [happend, hlenient, hanswer]
      simpa [hcap] using hih
    · rw [if_pos hneg.ne]
      refine .inr ⟨hneg, ?_⟩
      rcases hwhy with hfails | hlong
      · exact .inl (.inl hfails)
      · exact .inr (by omega)

end Strict

section Finish

variable {line : LineBuffer} {out : Buf} {shown : List UInt8} {lost : Prop} {cap : ℕ}

/-- What a cut line of `cap - 2` bytes shows: its end is the mark, as far as the mark fits. -/
def markedBytes (cap : ℕ) (shown : List UInt8) : List UInt8 :=
  if 14 ≤ cap then shown.take (cap - 14) ++ ascii " [truncated]"
  else if 2 < cap then shown.take (cap - 3) ++ [126]
  else []

/-- The mark keeps a cut line within `cap - 2` bytes. -/
theorem length_markedBytes (hcap : 2 ≤ cap) (shown : List UInt8) :
    (markedBytes cap shown).length ≤ cap - 2 := by
  have hlen : (ascii " [truncated]").length = 12 := by decide
  unfold markedBytes
  split_ifs
  · rw [List.length_append, List.length_take, hlen]
    omega
  · rw [List.length_append, List.length_take, List.length_singleton]
    omega
  · exact Nat.zero_le _

theorem length_truncationMarker : truncationMarker.length = 13 := by decide

/-- A list cut at `pos` and continued with a mark depends, up to place `n`, on its first `n`
entries. -/
theorem take_marked_congr {α : Type*} {a b mark : List α} {pos n : ℕ} (h : a.take n = b.take n)
    (ha : pos ≤ a.length) (hb : n ≤ b.length) :
    (a.take pos ++ mark).take n = (b.take pos ++ mark).take n := by
  rcases Nat.lt_or_ge pos n with hlt | hge
  · have hpos : a.take pos = b.take pos := by
      have htake := congrArg (List.take pos) h
      rwa [List.take_take, List.take_take, Nat.min_eq_left hlt.le] at htake
    rw [hpos]
  · rw [List.take_append_of_le_length (by rw [List.length_take]; omega),
      List.take_append_of_le_length (by rw [List.length_take]; omega), List.take_take,
      List.take_take, Nat.min_eq_left hge, h]

/-- The bytes of a marked array, up to the place of the line feed. -/
theorem bytes_loggerTextMarkTruncated (text : Buf) {n : ℕ} (hn : n ≤ cap - 2) :
    (loggerTextMarkTruncated text (cap - 1)).bytes n =
      (markedBytes cap (text.bytes (cap - 2))).take n := by
  unfold loggerTextMarkTruncated markedBytes
  rw [length_truncationMarker]
  by_cases hlong : 14 ≤ cap
  · have hpos : cap - 1 - 13 = cap - 14 := by omega
    rw [if_pos (by omega), if_pos hlong, hpos,
      Buf.bytes_overlay _ (by rw [length_truncationMarker]; omega), Buf.take_bytes _ (by omega)]
    have hmarker : truncationMarker = ascii " [truncated]" ++ [0] := rfl
    have hlen : (ascii " [truncated]").length = 12 := by decide
    rw [hmarker, ← List.append_assoc, List.take_append_of_le_length]
    rw [List.length_append, Buf.length_bytes, hlen]
    omega
  · rw [if_neg (by omega), if_neg hlong]
    by_cases hshort : 2 < cap
    · rw [if_pos (by omega), if_pos hshort, Buf.take_bytes _ (by omega)]
      have hend : cap - 3 + 1 = cap - 2 := by omega
      have hmark : ((text.put (cap - 3) 126).put (cap - 2) 0).bytes (cap - 2) =
          text.bytes (cap - 3) ++ [126] := by
        rw [← Buf.bytes_put, hend]
        exact Buf.bytes_congr fun i hi => Buf.put_of_ne _ _ (by omega)
      rw [show cap - 1 - 2 = cap - 3 by omega, show cap - 1 - 1 = cap - 2 by omega, ← hmark,
        Buf.take_bytes _ hn]
    · obtain rfl : n = 0 := by omega
      rfl

/-- Marking writes only before the end of the line's room. -/
theorem loggerTextMarkTruncated_of_le (text : Buf) {i : ℕ} (hi : cap - 1 ≤ i) :
    loggerTextMarkTruncated text (cap - 1) i = text i := by
  unfold loggerTextMarkTruncated
  split_ifs with hlong hshort
  · exact Buf.overlay_of_le _ (by omega)
  · rw [Buf.put_of_ne _ _ (by omega), Buf.put_of_ne _ _ (by omega)]
  · rfl

/-- The line `format_line` leaves: what it shows, marked when it is cut, the line feed and the
terminator. -/
theorem finishLine_bytes (hcap : 2 ≤ cap) (hline : line.cap = cap - 1)
    (h : Shows line out shown lost) :
    (finishLine line cap).1.bytes (finishLine line cap).2 =
      (if line.truncated then (markedBytes cap shown).take (min shown.length (cap - 2))
        else shown) ++ [10] ∧
      (finishLine line cap).1 (finishLine line cap).2 = 0 ∧
      (finishLine line cap).2 = line.used + 1 ∧
      ∀ i, cap ≤ i → (finishLine line cap).1 i = out i := by
  have hused := h.used_eq
  have hbytes := h.bytes
  rw [hline] at hused hbytes
  have hsub : cap - 1 - 1 = cap - 2 := by omega
  rw [hsub] at hused hbytes
  -- what lies behind the capacity is never touched
  have hframe : ∀ i, cap ≤ i → line.out i = out i := fun i hi => h.frame i (by omega)
  unfold finishLine
  refine ⟨?_, by simp [Buf.put], rfl, fun i hi => ?_⟩
  · have hput : ∀ b : Buf, ((b.put line.used 10).put (line.used + 1) 0).bytes (line.used + 1) =
        b.bytes line.used ++ [10] := by
      -- the line feed and the terminator stand behind the shown bytes
      intro b
      rw [← Buf.bytes_put]
      exact Buf.bytes_congr fun i hi => Buf.put_of_ne _ _ (by omega)
    rw [hput]
    congr 1
    cases htrunc : line.truncated with
    | true =>
      simp only [if_true]
      have hn : line.used = min shown.length (cap - 2) := by omega
      rw [bytes_loggerTextMarkTruncated _ (by omega), hn]
      -- the mark covers the end of the array, the shown bytes stand before it
      have hsame : (line.out.bytes (cap - 2)).take (min shown.length (cap - 2)) =
          shown.take (min shown.length (cap - 2)) := by
        rw [Buf.take_bytes _ (by omega), ← hn, hbytes, List.take_eq_take_iff]
        omega
      unfold markedBytes
      split_ifs with hlong hshort
      · exact take_marked_congr hsame (by rw [Buf.length_bytes]; omega) (by omega)
      · exact take_marked_congr hsame (by rw [Buf.length_bytes]; omega) (by omega)
      · rfl
    | false =>
      -- without the flag nothing was lost, so the shown bytes are the line
      have hfit : ¬(lost ∨ line.cap - 1 < shown.length) := by
        rw [← h.truncated, htrunc]
        decide
      rw [not_or, hline] at hfit
      simp only [Bool.false_eq_true, if_false]
      rw [hbytes, List.take_of_length_le (by omega)]
  · dsimp only
    rw [Buf.put_of_ne _ _ (by omega), Buf.put_of_ne _ _ (by omega)]
    split_ifs
    · rw [loggerTextMarkTruncated_of_le _ (by omega)]
      exact hframe i hi
    · exact hframe i hi

end Finish

section Line

variable {τ : Type} (lib : TimeLib τ) (l : LineConfig) (m : LoggerMessage) (out : Buf) {cap : ℕ}
  (answers : VsnprintfAnswers) (cache : TimestampCache)

/-- No `append` of `format_line` has an empty expansion. -/
theorem lineFields_ne_nil (time : TimestampCache) : ∀ p ∈ lineFields l time m, p ≠ [] := by
  intro p hp
  simp only [lineFields, contextFields, List.mem_append, List.mem_ite_nil_right,
    List.mem_singleton] at hp
  rcases hp with (((rfl | ⟨-, ⟨-, rfl⟩ | ⟨-, rfl⟩⟩) | ⟨-, rfl⟩) |
    ⟨-, ((⟨-, rfl⟩ | ⟨-, rfl⟩) | ⟨-, rfl⟩) | ⟨-, rfl⟩⟩) | rfl <;> simp [ascii]

/-- A line buffer before the first `append`. -/
def LineBuffer.start (out : Buf) (cap : ℕ) (strict : Bool) : LineBuffer :=
  ⟨out.put 0 0, cap - 1, 0, strict, false⟩

theorem shows_start (hcap : 2 ≤ cap) (strict : Bool) :
    Shows (LineBuffer.start out cap strict) out [] False := by
  refine ⟨by simp [LineBuffer.start, Buf.bytes], by simp [LineBuffer.start], fun i hi => ?_⟩
  have hi : cap - 1 ≤ i := hi
  exact Buf.put_of_ne _ _ (by omega)

/-- The end of `format_line` after the pieces have been appended. -/
def lineResult (result : ℤ × LineBuffer) (cap : ℕ) (time : TimestampCache) : FormatResult :=
  if result.1 ≠ 0 then ⟨result.1, some result.2.out, 0, time⟩
  else ⟨0, some (finishLine result.2 cap).1, (finishLine result.2 cap).2, time⟩

theorem formatLine_lenient (hcap : 2 ≤ cap) :
    formatLine lib (some l) (some m) (some out) cap false answers cache =
      lineResult (appendAll (.start out cap false)
        (lineFields l (cache.refresh lib m.ts.sec) m) answers) cap
        (cache.refresh lib m.ts.sec) := by
  unfold formatLine
  rw [if_neg (by omega)]
  dsimp only
  rw [if_neg (by omega)]
  rfl

theorem formatLine_strict (hcap : 2 ≤ cap) :
    formatLine lib (some l) (some m) (some out) cap true answers cache =
      if m.ts.nsec < 0 ∨ 1000000000 ≤ m.ts.nsec then ⟨-einval, some (out.put 0 0), 0, cache⟩
      else if canonicalTime (cache.refresh lib m.ts.sec) = false then
        ⟨-eoverflow, some (out.put 0 0), 0, cache.refresh lib m.ts.sec⟩
      else lineResult (appendAll (.start out cap true)
        (lineFields l (cache.refresh lib m.ts.sec) m) answers) cap
        (cache.refresh lib m.ts.sec) := by
  unfold formatLine
  rw [if_neg (by omega)]
  dsimp only
  rw [if_neg (by omega)]
  simp only [Bool.true_and, Bool.or_eq_true, decide_eq_true_eq, Bool.not_eq_true']
  rfl

theorem convertedBytes_of_success {pieces : List (List UInt8)} {answers : VsnprintfAnswers}
    (h : ¬SomeFails pieces answers) : convertedBytes pieces answers = pieces.flatten := by
  induction pieces generalizing answers with
  | nil => rfl
  | cons piece rest ih =>
    rw [someFails_cons, not_or, Bool.not_eq_true] at h
    rw [convertedBytes, h.1, ih h.2]
    rfl

theorem not_someFails_of_success {answers : VsnprintfAnswers} (h : ∀ a ∈ answers, a = none)
    (pieces : List (List UInt8)) : ¬SomeFails pieces answers := by
  rw [SomeFails, List.any_eq_true]
  rintro ⟨a, ha, hsome⟩
  rw [h a (List.mem_of_mem_take ha)] at hsome
  cases hsome

/-- The line that shows `full` in `cap` bytes: all of it when it fits, otherwise cut and marked. -/
def exactLine (full : List UInt8) (cap : ℕ) : List UInt8 :=
  if full.length + 2 ≤ cap then full ++ [10] else markedBytes cap full ++ [10]

theorem emptied_of_success {r : FormatResult} (h : r.rc = 0) (cap : ℕ) : r.emptied cap = r := by
  rw [FormatResult.emptied, if_neg (fun hr => hr.1 h)]

theorem emptied_rc (r : FormatResult) (cap : ℕ) : (r.emptied cap).rc = r.rc := by
  unfold FormatResult.emptied
  split_ifs <;> rfl

theorem emptied_length (r : FormatResult) (cap : ℕ) : (r.emptied cap).length = r.length := by
  unfold FormatResult.emptied
  split_ifs <;> rfl

/-- The lenient line of a formatting whose failures are all `EOVERFLOW`. -/
theorem loggerFormatLine_bytes (hcap : 2 ≤ cap) (honly : OnlyEoverflow answers) :
    let pieces := lineFields l (cache.refresh lib m.ts.sec) m
    let shown := convertedBytes pieces answers
    let r := loggerFormatLine lib (some l) (some m) (some out) cap answers cache
    r.rc = 0 ∧ ∃ line, r.out = some line ∧
      line.bytes r.length = (if SomeFails pieces answers ∨ cap - 2 < shown.length then
        (markedBytes cap shown).take (min shown.length (cap - 2)) else shown) ++ [10] ∧
      line r.length = 0 ∧ ∀ i, cap ≤ i → line i = out i := by
  intro pieces shown r
  obtain ⟨hrc, hlinecap, hshows⟩ := appendAll_shows rfl
    (lineFields_ne_nil l m (cache.refresh lib m.ts.sec)) honly (shows_start out hcap false)
  have hformat : formatLine lib (some l) (some m) (some out) cap false answers cache =
      ⟨0, some (finishLine (appendAll (.start out cap false) pieces answers).2 cap).1,
        (finishLine (appendAll (.start out cap false) pieces answers).2 cap).2,
        cache.refresh lib m.ts.sec⟩ := by
    rw [formatLine_lenient lib l m out answers cache hcap, lineResult, if_neg (not_not.mpr hrc)]
  have hr : r = _ := emptied_of_success (by rw [hformat]) cap
  rw [hformat] at hr
  rw [hr]
  obtain ⟨hbytes, hend, -, hframe⟩ := finishLine_bytes hcap hlinecap hshows
  refine ⟨rfl, _, rfl, ?_, hend, hframe⟩
  refine hbytes.trans ?_
  have htrunc := hshows.truncated
  rw [false_or, hlinecap, List.nil_append, show (LineBuffer.start out cap false).cap - 1 = cap - 2
    from rfl] at htrunc
  simp only [List.nil_append, htrunc]
  rfl

/-- The strict entry point returns 0 with the lenient line, or a negative code with length 0. -/
theorem loggerFormatLineChecked_cases (hcap : 2 ≤ cap) (herrno : ErrnoNonneg answers) :
    let pieces := lineFields l (cache.refresh lib m.ts.sec) m
    let accepted := 0 ≤ m.ts.nsec ∧ m.ts.nsec < 1000000000 ∧
      canonicalTime (cache.refresh lib m.ts.sec) = true ∧ pieces.flatten.length + 2 ≤ cap ∧
      ¬SomeFails pieces answers
    let r := loggerFormatLineChecked lib (some l) (some m) (some out) cap answers cache
    let plain := loggerFormatLine lib (some l) (some m) (some out) cap answers cache
    (accepted ∧ r.rc = 0 ∧ r.out = plain.out ∧ r.length = plain.length) ∨
      (¬accepted ∧ r.rc < 0 ∧ r.length = 0) := by
  intro pieces accepted r plain
  have hr : r = (formatLine lib (some l) (some m) (some out) cap true answers cache).emptied cap :=
    rfl
  have hplain : plain =
      (formatLine lib (some l) (some m) (some out) cap false answers cache).emptied cap := rfl
  rw [formatLine_strict lib l m out answers cache hcap] at hr
  rw [formatLine_lenient lib l m out answers cache hcap] at hplain
  -- the checks in the order of the source: the nanoseconds, the time, then the pieces
  by_cases hrange : m.ts.nsec < 0 ∨ 1000000000 ≤ m.ts.nsec
  · rw [if_pos hrange] at hr
    refine .inr ⟨fun hacc => ?_, ?_, ?_⟩
    · have h0 := hacc.1
      have h1 := hacc.2.1
      omega
    · rw [hr, emptied_rc]
      exact show -einval < 0 by decide
    · rw [hr, emptied_length]
  rw [if_neg hrange] at hr
  by_cases htime : canonicalTime (cache.refresh lib m.ts.sec) = false
  · rw [if_pos htime] at hr
    refine .inr ⟨fun hacc => ?_, ?_, ?_⟩
    · rw [hacc.2.2.1] at htime
      cases htime
    · rw [hr, emptied_rc]
      exact show -eoverflow < 0 by decide
    · rw [hr, emptied_length]
  rw [if_neg htime] at hr
  rcases appendAll_strict rfl (lineFields_ne_nil l m (cache.refresh lib m.ts.sec)) herrno
      (shows_start out hcap true) (Nat.zero_le _) with
    ⟨hrc, hsuccess, hfits, hlenient⟩ | ⟨hneg, hwhy⟩
  · have hlenient : appendAll (.start out cap false) pieces answers =
        (0, { (appendAll (.start out cap true) pieces answers).2 with strict := false }) := hlenient
    rw [List.nil_append] at hfits
    have hfits : pieces.flatten.length ≤ cap - 1 - 1 := hfits
    -- every piece fitted, so the lenient line is the same
    refine .inl ⟨⟨by omega, by omega, by simpa using htime, by omega, hsuccess⟩, ?_⟩
    rw [lineResult, if_neg (not_not.mpr hrc), emptied_of_success rfl] at hr
    rw [hlenient, lineResult, if_neg (by simp), emptied_of_success rfl] at hplain
    rw [hr, hplain]
    exact ⟨rfl, rfl, rfl⟩
  · rw [List.nil_append] at hwhy
    refine .inr ⟨fun hacc => ?_, ?_, ?_⟩
    -- an accepted line has no failed conversion and enough room
    · rcases hwhy with hfails | hlong
      · exact hacc.2.2.2.2 hfails
      · have hlong : cap - 1 - 1 < pieces.flatten.length := hlong
        have := hacc.2.2.2.1
        omega
    · rw [hr, emptied_rc, lineResult, if_pos hneg.ne]
      exact hneg
    · rw [hr, emptied_length, lineResult, if_pos hneg.ne]

/-- What a caller may rely on of the two entry points, for a capacity of at least two bytes. The
full line is the one its configuration and its record select, with the time the cache of the thread
gives. When every conversion succeeds the lenient line is `exactLine` of it, terminated, within its
capacity; the strict entry point accepts exactly the lines that need no cut, with a valid time, and
gives the same bytes; otherwise, and when a conversion fails, it returns a negative code and length
0. -/
theorem format_line_exact (hcap : 2 ≤ cap) (herrno : ErrnoNonneg answers) :
    let time := cache.refresh lib m.ts.sec
    let full := fullLine l (time.date, time.zone) m
    let plain := loggerFormatLine lib (some l) (some m) (some out) cap answers cache
    let checked := loggerFormatLineChecked lib (some l) (some m) (some out) cap answers cache
    ((∀ a ∈ answers, a = none) →
      (∃ line, plain.out = some line ∧ line.bytes plain.length = exactLine full cap ∧
        line plain.length = 0 ∧ plain.length ≤ cap - 1 ∧ ∀ i, cap ≤ i → line i = out i) ∧
      (checked.rc = 0 ↔ 0 ≤ m.ts.nsec ∧ m.ts.nsec < 1000000000 ∧ canonicalTime time = true ∧
        full.length + 2 ≤ cap)) ∧
    (checked.rc = 0 → checked.out = plain.out ∧ checked.length = plain.length) ∧
    (checked.rc ≠ 0 → checked.rc < 0 ∧ checked.length = 0) ∧
    (SomeFails (linePieces l (time.date, time.zone) m) answers → checked.rc < 0) := by
  intro time full plain checked
  -- the terms the code runs are the pieces of the specification
  have hpieces : lineFields l time m = linePieces l (time.date, time.zone) m :=
    lineFields_eq_linePieces l m time
  have hcases := loggerFormatLineChecked_cases lib l m out answers cache hcap herrno
  rw [hpieces] at hcases
  set pieces := linePieces l (time.date, time.zone) m
  refine ⟨fun hsuccess => ⟨?_, ?_⟩, fun hrc => ?_, fun hrc => ?_, fun hfails => ?_⟩
  -- without failures the bytes are those of the whole line, or a cut of it
  · have honly : OnlyEoverflow answers := fun failure hf => by cases hsuccess _ hf
    have hnone := not_someFails_of_success hsuccess pieces
    obtain ⟨-, line, hout, hbytes, hend, hframe⟩ :=
      loggerFormatLine_bytes lib l m out answers cache hcap honly
    rw [hpieces] at hbytes
    have hshown : convertedBytes pieces answers = full := convertedBytes_of_success hnone
    have hline : line.bytes plain.length = exactLine full cap := by
      refine hbytes.trans ?_
      rw [hshown, exactLine]
      by_cases hfits : full.length + 2 ≤ cap
      · rw [if_neg (not_or.mpr ⟨hnone, by omega⟩), if_pos hfits]
      · rw [if_pos (.inr (by omega)), if_neg hfits, List.take_of_length_le]
        have := length_markedBytes hcap full
        omega
    refine ⟨line, hout, hline, hend, ?_, hframe⟩
    -- the length is read off the bytes
    have hlen := congrArg List.length hline
    have hmarked := length_markedBytes hcap full
    rw [Buf.length_bytes, exactLine] at hlen
    split_ifs at hlen with hfits
    · rw [List.length_append, List.length_singleton] at hlen
      omega
    · rw [List.length_append, List.length_singleton] at hlen
      omega
  · have hnone := not_someFails_of_success hsuccess pieces
    rcases hcases with ⟨⟨h0, h1, htime, hfits, -⟩, hrc, -⟩ | ⟨hnot, hneg, -⟩
    · exact ⟨fun _ => ⟨h0, h1, htime, hfits⟩, fun _ => hrc⟩
    · refine ⟨fun hrc => absurd hrc hneg.ne, fun hacc => ?_⟩
      exact absurd ⟨hacc.1, hacc.2.1, hacc.2.2.1, hacc.2.2.2, hnone⟩ hnot
  · rcases hcases with ⟨-, -, hsame⟩ | ⟨-, hneg, -⟩
    · exact hsame
    · exact absurd hrc hneg.ne
  · rcases hcases with ⟨-, hzero, -⟩ | ⟨-, hneg⟩
    · exact absurd hzero hrc
    · exact hneg
  · rcases hcases with ⟨hacc, -⟩ | ⟨-, hneg, -⟩
    · exact absurd hfails hacc.2.2.2.2
    · exact hneg

/-- A conversion of seconds that knows one time. -/
def sampleTime : TimeLib Unit where
  localtimeR _ := some ()
  strftimeDate _ := some (ascii "2024-05-06T07:08:09")
  strftimeZone _ := some (ascii "+0000")

/-- A record with the text `hi`. -/
def sampleRecord : LoggerMessage :=
  { LoggerMessage.zero with level := .info, text := (ascii "hi").buf, textLen := 2 }

theorem format_line_exact_sample :
    ∃ line, (loggerFormatLine sampleTime (some ⟨.normal, false, false, false⟩) (some sampleRecord)
        (some .zero) 64 [] .zero).out = some line ∧
      line.bytes (loggerFormatLine sampleTime (some ⟨.normal, false, false, false⟩)
        (some sampleRecord) (some .zero) 64 [] .zero).length =
        ascii "2024-05-06T07:08:09.000000+0000 INFO  [app] hi\n" := by
  obtain ⟨⟨line, hout, hbytes, -⟩, -⟩ := (format_line_exact sampleTime
    ⟨.normal, false, false, false⟩ sampleRecord .zero [] .zero (show 2 ≤ 64 by decide)
    (by rintro failure ⟨⟩)).1 (by rintro a ⟨⟩)
  exact ⟨line, hout, hbytes.trans (by decide)⟩

end Line

section Mark

variable {τ : Type} (lib : TimeLib τ) (l : LineConfig) (m : LoggerMessage) (out : Buf) {cap : ℕ}
  (answers : VsnprintfAnswers) (cache : TimestampCache)

/-- The text of the truncation mark. -/
def markText : List UInt8 := ascii " [truncated]"

theorem length_markText : markText.length = 12 := by decide

/-- The mark does not overlap itself: its first byte occurs nowhere else in it. -/
theorem markText_no_border : ∀ j < 12, 0 < j → markText[j]? ≠ markText[0]? := by decide

/-- `INT_MAX`. -/
def intMax : ℕ := 2 ^ 31 - 1

/-- The conversions report as `vsnprintf` does: a piece that is longer than an `int` can say may
fail with `EOVERFLOW`, and nothing else fails. -/
def ReportedFor (pieces : List (List UInt8)) (answers : VsnprintfAnswers) : Prop :=
  ∀ (i : ℕ) (failure : VsnprintfFailure), answers[i]? = some (some failure) →
    failure.errno = eoverflow ∧ ∃ piece, pieces[i]? = some piece ∧ intMax < piece.length

theorem ReportedFor.onlyEoverflow {pieces : List (List UInt8)} {answers : VsnprintfAnswers}
    (h : ReportedFor pieces answers) : OnlyEoverflow answers := by
  intro failure hf
  obtain ⟨i, hi⟩ := List.mem_iff_getElem?.mp hf
  exact (h i failure hi).1

/-- A byte of the returned line was converted from a piece or belongs to the mark. -/
def WrittenByte (cap : ℕ) (shown : List UInt8) (i : ℕ) (c : UInt8) : Prop :=
  shown[i]? = some c ∨ (cap - 14 ≤ i ∧ markText[i - (cap - 14)]? = some c)

/-- A formatting that left anything of the full line out shows the mark before its line feed, and
shows nothing that was not written. -/
def VisiblyMarked (full shown : List UInt8) (cap : ℕ) (r : FormatResult) : Prop :=
  ∀ line, r.out = some line → r.length ≠ 0 → line.bytes r.length ≠ full ++ [10] →
    markText ++ [10] <:+ line.bytes r.length ∧
      ∀ i, i + 1 < r.length → WrittenByte cap shown i (line i)

/-- A lost piece shortens the line. -/
theorem length_convertedBytes_lt {pieces : List (List UInt8)} (hne : ∀ p ∈ pieces, p ≠ [])
    {answers : VsnprintfAnswers} (hfails : SomeFails pieces answers) :
    (convertedBytes pieces answers).length < pieces.flatten.length := by
  have hle : ∀ (pieces : List (List UInt8)) (answers : VsnprintfAnswers),
      (convertedBytes pieces answers).length ≤ pieces.flatten.length := by
    intro pieces
    induction pieces with
    | nil => exact fun _ => le_rfl
    | cons piece rest ih =>
      intro answers
      have := ih answers.tail
      rw [convertedBytes, List.flatten_cons, List.length_append, List.length_append]
      split_ifs
      · rw [List.length_nil]
        omega
      · omega
  induction pieces generalizing answers with
  | nil => exact absurd hfails (someFails_nil answers)
  | cons piece rest ih =>
    have hpiece := List.length_pos_iff.mpr (hne piece (List.mem_cons_self ..))
    have hrest : ∀ p ∈ rest, p ≠ [] := fun p hp => hne p (List.mem_cons_of_mem _ hp)
    rw [convertedBytes, List.flatten_cons, List.length_append, List.length_append]
    have := hle rest answers.tail
    split_ifs with hanswer
    · rw [List.length_nil]
      omega
    · rw [someFails_cons, or_iff_right hanswer] at hfails
      have := ih hrest hfails
      omega

/-- The bytes before the line feed of a line in which something was cut. -/
def cutBytes (cap : ℕ) (shown : List UInt8) : List UInt8 :=
  (shown.take (cap - 14) ++ markText).take (min shown.length (cap - 2))

/-- A line cut at its capacity ends with the mark. -/
theorem markText_suffix_cutBytes (hcap : 14 ≤ cap) {shown : List UInt8}
    (hfull : cap - 2 ≤ shown.length) : markText <:+ cutBytes cap shown := by
  have hlen : (shown.take (cap - 14) ++ markText).length = cap - 2 := by
    rw [List.length_append, List.length_take, length_markText]
    omega
  refine ⟨shown.take (cap - 14), ?_⟩
  rw [cutBytes, Nat.min_eq_right hfull, ← hlen, List.take_length]

/-- Before the place of the mark a shorter line is as it was converted. -/
theorem cutBytes_of_short (hcap : 14 ≤ cap) {shown : List UInt8} (h : shown.length + 14 ≤ cap) :
    cutBytes cap shown = shown := by
  have htake : shown.take (cap - 14) = shown := List.take_of_length_le (by omega)
  rw [cutBytes, htake, Nat.min_eq_left (by omega), List.take_left]

/-- A line that ends within the place of the mark does not end with the mark. -/
theorem not_markText_suffix_cutBytes {shown : List UInt8} (hlow : cap < shown.length + 14)
    (hhigh : shown.length + 2 < cap) : ¬markText <:+ cutBytes cap shown := by
  rintro ⟨before, hbefore⟩
  have hlen := congrArg List.length hbefore
  have hcut : (cutBytes cap shown).length = shown.length := by
    rw [cutBytes, List.length_take, List.length_append, List.length_take, length_markText]
    omega
  rw [List.length_append, length_markText, hcut] at hlen
  -- At the place of the mark the line has the first byte of the mark and a later one.
  have hfirst : (cutBytes cap shown)[cap - 14]? = markText[0]? := by
    rw [cutBytes, List.getElem?_take_of_lt (by omega), List.getElem?_append_right
      (by rw [List.length_take]; omega), List.length_take]
    congr 1
    omega
  have hlater : (cutBytes cap shown)[cap - 14]? = markText[cap - 14 - before.length]? := by
    rw [← hbefore, List.getElem?_append_right (by omega)]
  exact markText_no_border (cap - 14 - before.length) (by omega) (by omega)
    (hlater.symm.trans hfirst)

theorem snoc_suffix_snoc_iff {α : Type*} {a b : List α} {x : α} :
    a ++ [x] <:+ b ++ [x] ↔ a <:+ b := by
  simp only [List.IsSuffix, ← List.append_assoc, List.append_left_inj]

/-- Every byte of a cut line was converted or belongs to the mark. -/
theorem writtenByte_cutBytes {shown : List UInt8} {i : ℕ} {c : UInt8}
    (h : (cutBytes cap shown)[i]? = some c) : WrittenByte cap shown i c := by
  have hi := (List.getElem?_eq_some_iff.mp h).1
  rw [cutBytes, List.length_take] at hi
  rw [cutBytes, List.getElem?_take_of_lt (by omega)] at h
  rcases Nat.lt_or_ge i (cap - 14) with hlt | hge
  · rw [List.getElem?_append_left (by rw [List.length_take]; omega),
      List.getElem?_take_of_lt hlt] at h
    exact .inl h
  · have hlen : (shown.take (cap - 14)).length = cap - 14 := by
      rw [List.length_take]
      omega
    rw [List.getElem?_append_right (by omega), hlen] at h
    exact .inr ⟨hge, h⟩

/-- When a line that left something out shows it: no conversion failed, or what was converted fills
the line, or it ends before the place of the mark with the text of the mark. -/
def MarkVisible (pieces : List (List UInt8)) (answers : VsnprintfAnswers) (cap : ℕ) : Prop :=
  ¬SomeFails pieces answers ∨ cap - 2 ≤ (convertedBytes pieces answers).length ∨
    ((convertedBytes pieces answers).length + 14 ≤ cap ∧
      markText <:+ convertedBytes pieces answers)

/-- A shortened line is visibly marked exactly when `MarkVisible` holds: a piece that overflows
`int` is lost without a trace whenever the other pieces leave room in the line. -/
theorem shortened_line_marked_iff (hcap : 14 ≤ cap)
    (hreported : ReportedFor (lineFields l (cache.refresh lib m.ts.sec) m) answers) :
    VisiblyMarked (lineFields l (cache.refresh lib m.ts.sec) m).flatten
        (convertedBytes (lineFields l (cache.refresh lib m.ts.sec) m) answers) cap
        (loggerFormatLine lib (some l) (some m) (some out) cap answers cache) ↔
      MarkVisible (lineFields l (cache.refresh lib m.ts.sec) m) answers cap := by
  obtain ⟨-, line, hout, hbytes, -, -⟩ := loggerFormatLine_bytes lib l m out answers cache
    (show 2 ≤ cap by omega) hreported.onlyEoverflow
  have hne := lineFields_ne_nil l m (cache.refresh lib m.ts.sec)
  generalize loggerFormatLine lib (some l) (some m) (some out) cap answers cache = r at *
  generalize lineFields l (cache.refresh lib m.ts.sec) m = pieces at *
  rw [markedBytes, if_pos hcap] at hbytes
  unfold MarkVisible
  generalize hshown : convertedBytes pieces answers = shown at *
  have hbytes : line.bytes r.length =
      (if SomeFails pieces answers ∨ cap - 2 < shown.length then cutBytes cap shown else shown) ++
        [10] := hbytes
  have hfull : ¬SomeFails pieces answers → shown = pieces.flatten := fun h => by
    rw [← hshown, convertedBytes_of_success h]
  constructor
  · intro hmarked
    by_cases hfails : SomeFails pieces answers
    · rw [if_pos (.inl hfails)] at hbytes
      by_contra hnot
      -- a failed conversion was cut without a mark: the line is short and shows less
      push Not at hnot
      obtain ⟨-, hshort, hend⟩ := hnot
      have hlt : shown.length < pieces.flatten.length := by
        rw [← hshown]
        exact length_convertedBytes_lt hne hfails
      have hcut : (cutBytes cap shown).length ≤ shown.length := by
        rw [cutBytes, List.length_take]
        omega
      have hlen := congrArg List.length hbytes
      rw [Buf.length_bytes, List.length_append, List.length_singleton] at hlen
      -- so the printed line is not the whole line, which is what the mark promises
      have hmissing : line.bytes r.length ≠ pieces.flatten ++ [10] := by
        intro heq
        have := congrArg List.length (hbytes.symm.trans heq)
        rw [List.length_append, List.length_append, List.length_singleton] at this
        omega
      obtain ⟨hsuffix, -⟩ := hmarked line hout (by omega) hmissing
      rw [hbytes, snoc_suffix_snoc_iff] at hsuffix
      rcases Nat.lt_or_ge cap (shown.length + 14) with hlow | hlow
      · exact not_markText_suffix_cutBytes hlow (by omega) hsuffix
      · rw [cutBytes_of_short hcap hlow] at hsuffix
        exact hend hlow hsuffix
    · exact .inl hfails
  · intro hcond line' hout' _ hmissing
    obtain rfl : line' = line := by
      rw [hout, Option.some.injEq] at hout'
      exact hout'.symm
    -- a line that is not whole was cut somewhere
    have hcut : SomeFails pieces answers ∨ cap - 2 < shown.length := by
      by_contra hwhole
      rw [if_neg hwhole, hfull (not_or.mp hwhole).1] at hbytes
      exact hmissing hbytes
    rw [if_pos hcut] at hbytes
    refine ⟨?_, fun i hi => ?_⟩
    · rw [hbytes, snoc_suffix_snoc_iff]
      rcases hcond with hnone | hlong | ⟨hshort, hend⟩
      · exact markText_suffix_cutBytes hcap (hcut.resolve_left hnone).le
      · exact markText_suffix_cutBytes hcap hlong
      · rw [cutBytes_of_short hcap hshort]
        exact hend
    -- a byte of the mark is one that the line has written
    · refine writtenByte_cutBytes ?_
      have hlen := congrArg List.length hbytes
      rw [Buf.length_bytes, List.length_append, List.length_singleton] at hlen
      have hget : (line'.bytes r.length)[i]? = some (line' i) := by
        rw [List.getElem?_eq_getElem (by rw [Buf.length_bytes]; omega), Buf.getElem_bytes]
      rwa [hbytes, List.getElem?_append_left (by omega)] at hget

theorem shortened_line_marked_sample :
    VisiblyMarked
      (lineFields ⟨.normal, false, false, false⟩
        (TimestampCache.zero.refresh sampleTime sampleRecord.ts.sec) sampleRecord).flatten
      (convertedBytes (lineFields ⟨.normal, false, false, false⟩
        (TimestampCache.zero.refresh sampleTime sampleRecord.ts.sec) sampleRecord) []) 20
      (loggerFormatLine sampleTime (some ⟨.normal, false, false, false⟩) (some sampleRecord)
        (some .zero) 20 [] .zero) :=
  (shortened_line_marked_iff sampleTime ⟨.normal, false, false, false⟩ sampleRecord .zero [] .zero
    (by decide) (by intro i failure hi; simp at hi)).mpr (.inl (by decide))

/-- A record logged under a module name of `2 ^ 31` bytes. -/
def hugeModuleRecord : LoggerMessage :=
  { sampleRecord with module := .borrowed (List.replicate (2 ^ 31) 97) }

/-- The conversion of the module name fails, as it must. -/
def hugeModuleAnswers : VsnprintfAnswers := [none, some ⟨eoverflow, .zero⟩]

/-- The pieces of the line of that record. -/
theorem lineFields_hugeModule (time : TimestampCache) :
    lineFields ⟨.normal, false, false, false⟩ time hugeModuleRecord =
      [time.date ++ [46] ++ printPadded 6 0 ++ time.zone ++ [32] ++ printLeft 5 (ascii "INFO"),
        ascii " [" ++ List.replicate (2 ^ 31) 97 ++ ascii "]", ascii " hi"] := by
  have htext : cstr hugeModuleRecord.text loggerMessageMax = ascii "hi" := by decide
  simp only [lineFields, htext]
  rfl

/-- The line of that record in 64 bytes drops the module name and shows no mark. -/
theorem hugeModule_line_unmarked :
    let l : LineConfig := ⟨.normal, false, false, false⟩
    let time := TimestampCache.zero.refresh sampleTime hugeModuleRecord.ts.sec
    let pieces := lineFields l time hugeModuleRecord
    ReportedFor pieces hugeModuleAnswers ∧
      ¬VisiblyMarked pieces.flatten (convertedBytes pieces hugeModuleAnswers) 64
        (loggerFormatLine sampleTime (some l) (some hugeModuleRecord) (some .zero) 64
          hugeModuleAnswers .zero) := by
  intro l time pieces
  have hpieces : pieces = [ascii "2024-05-06T07:08:09.000000+0000 INFO ",
      ascii " [" ++ List.replicate (2 ^ 31) 97 ++ ascii "]", ascii " hi"] :=
    (lineFields_hugeModule _).trans (congrArg (List.cons · _) (by decide))
  have hreported : ReportedFor pieces hugeModuleAnswers := by
    -- the second conversion is the one that fails
    intro i failure hi
    match i, hi with
    | 1, hi =>
      obtain rfl : _ = failure := Option.some.inj (Option.some.inj hi)
      refine ⟨rfl, _, by rw [hpieces]; rfl, ?_⟩
      simp only [List.length_append, List.length_replicate, intMax]
      omega
  refine ⟨hreported, fun hmarked => ?_⟩
  obtain ⟨-, line, hout, hbytes, -, -⟩ := loggerFormatLine_bytes sampleTime l hugeModuleRecord .zero
    hugeModuleAnswers .zero (show 2 ≤ 64 by decide) hreported.onlyEoverflow
  have hshown : convertedBytes pieces hugeModuleAnswers =
      ascii "2024-05-06T07:08:09.000000+0000 INFO  hi" := by
    rw [hpieces]
    decide
  have hfails : SomeFails pieces hugeModuleAnswers := by
    rw [hpieces]
    decide
  generalize loggerFormatLine sampleTime (some l) (some hugeModuleRecord) (some Buf.zero) 64
    hugeModuleAnswers .zero = r at hmarked hout hbytes
  have hline : line.bytes r.length = ascii "2024-05-06T07:08:09.000000+0000 INFO  hi\n" := by
    refine hbytes.trans ?_
    rw [if_pos (.inl hfails), show convertedBytes (lineFields l _ _) _ = _ from hshown]
    decide
  have hlen := congrArg List.length hline
  rw [Buf.length_bytes] at hlen
  -- a line without the module name is far too short to be whole
  obtain ⟨hsuffix, -⟩ := hmarked line hout (by rw [hlen]; decide) fun heq => by
    have hfull := congrArg List.length (hline.symm.trans heq)
    have hshort : (ascii "2024-05-06T07:08:09.000000+0000 INFO  hi\n").length = 41 := by decide
    rw [hpieces, hshort] at hfull
    simp only [List.length_append, List.length_flatten, List.map_cons, List.length_replicate,
      List.sum_cons] at hfull
    omega
  rw [hline] at hsuffix
  revert hsuffix
  decide

end Mark

end CLogger
