import CLogger.File.Model
import CLogger.Lib.ScatterWrite
import CLogger.Stderr

/-!
# The scatter-write loops

`all` and `vall` of `logger_file.c` and `logger_stderr_writev_all` of `logger_worker.c` on the array
of vectors that the source changes in place, with the index of the first vector in use, over a log
of their calls. The loops of the file backend and the standard error sink, which work on the list of
vectors that are left, do the same on every tape (`all_matches`, `vall_matches`,
`loggerStderrWritevAll_matches`).
-/

namespace CLogger

open TapeProgram ScatterWrite

/-- A call of a loop, with its vectors and its result. -/
abbrev WriteCall := Call UInt8 ℤ

/-- Programs over a log of write calls. -/
abbrev LogProg (α : Type) := Prog (List WriteCall) Answer α

/-- `write` and `writev`: an error, or a first part of the bytes. -/
def writeKernel : Kernel Answer ℤ where
  respond a n := if !a.ok then .error a.errno else .ok (min a.count n)
  respond_le {a n k} h := by
    cases hok : a.ok with
    | false =>
      rw [hok] at h
      exact nomatch h
    | true =>
      rw [hok] at h
      rw [← Except.ok.inj h]
      exact Nat.min_le_right _ _
  again e := e = eintr

/-- The return value of a loop. -/
def exitCode : Exit ℤ → ℤ
  | .complete => 0
  | .stalled => -eio
  | .failed e => -(if e = 0 then eio else e)

/-- The vectors and the index `first`. -/
structure Vectors where
  v : List (List UInt8)
  first : ℕ

/-- The vectors in use. -/
def Vectors.rest (s : Vectors) : List (List UInt8) := s.v.drop s.first

/-- Step over empty vectors, `if (!v[first].iov_len) ++first`. -/
def Vectors.skipEmpty (s : Vectors) : Vectors :=
  { s with first := s.first + (s.rest.takeWhile (·.isEmpty)).length }

/-- The vectors that `while (first < count && left >= v[first].iov_len)` steps over, and the value
of `left` after it. -/
def exhausted : List (List UInt8) → ℕ → ℕ × ℕ
  | [], left => (0, left)
  | x :: xs, left =>
    if x.length ≤ left then ((exhausted xs (left - x.length)).1 + 1,
      (exhausted xs (left - x.length)).2)
    else (0, left)

/-- The update of the vectors after a call: exhausted ones are stepped over, and the one that was
taken in part is shortened in place. -/
def Vectors.advance (s : Vectors) (left : ℕ) : Vectors :=
  let first := s.first + (exhausted s.rest left).1
  let left := (exhausted s.rest left).2
  if first < s.v.length ∧ left ≠ 0 then ⟨s.v.set first ((s.v.getD first []).drop left), first⟩
  else ⟨s.v, first⟩

/-- The loop of `all`: its variable is the buffer that is left. -/
def allVectors : Loop UInt8 (List UInt8) where
  settle p := p
  offer p := if p = [] then none else some (0, [p])
  advance p k := p.drop k

/-- A loop over vectors that offers `amount` of them. -/
def vectorsLoop (settle : Vectors → Vectors) (amount : Vectors → ℕ) : Loop UInt8 Vectors where
  settle := settle
  offer s := if s.first < s.v.length then some (s.first, s.rest.take (amount s)) else none
  advance s k := s.advance k

/-- The loop of `vall`: empty vectors are stepped over, and a call is offered `iov_max` vectors at
most. -/
def vallVectors (iovMax : ℕ) : Loop UInt8 Vectors :=
  vectorsLoop Vectors.skipEmpty fun s => min (s.v.length - s.first) iovMax

/-- The loop of `logger_stderr_writev_all`: a call is offered all vectors in use. -/
def stderrVectors : Loop UInt8 Vectors := vectorsLoop id fun s => s.v.length - s.first

/-- `all`. -/
def allLog (p : List UInt8) : LogProg (ℤ × ℕ) := do
  let (exit, written) ← allVectors.run writeKernel p
  return (exitCode exit, written)

/-- `vall`. -/
def vallLog (iovMax : ℕ) (v : List (List UInt8)) : LogProg (ℤ × ℕ) := do
  let (exit, written) ← (vallVectors iovMax).run writeKernel ⟨v, 0⟩
  return (exitCode exit, written)

/-- The loop of `logger_stderr_writev_all`. The source does not count the bytes. -/
def stderrLoopLog (v : List (List UInt8)) : LogProg ℤ := do
  let (exit, _) ← stderrVectors.run writeKernel ⟨v, 0⟩
  return exitCode exit

/-- `logger_stderr_writev_all`. -/
def loggerStderrWritevAllLog (v : List (List UInt8)) : LogProg ℤ := do
  let guard ← Prog.ask fun calls a => (a, calls)
  if !guard.ok then return -guard.errno
  else
    let result ← stderrLoopLog v
    let restore ← Prog.ask fun calls a => (a, calls)
    return if result = 0 ∧ !restore.ok then -restore.errno else result

/-! ## The vectors -/

section

variable {s : Vectors}

theorem drop_exhausted (v : List (List UInt8)) (left : ℕ) :
    advanceVectors v left = match v.drop (exhausted v left).1 with
      | [] => []
      | x :: xs => x.drop (exhausted v left).2 :: xs := by
  induction v generalizing left with
  | nil => rfl
  | cons x v ih =>
    unfold advanceVectors exhausted
    by_cases hx : x.length ≤ left
    · rw [if_pos hx, if_pos hx, List.drop_succ_cons]
      exact ih _
    · rw [if_neg hx, if_neg hx]
      rfl

theorem Vectors.rest_advance (left : ℕ) : (s.advance left).rest = advanceVectors s.rest left := by
  rw [drop_exhausted]
  unfold Vectors.advance
  generalize exhausted s.rest left = e
  obtain ⟨k, left⟩ := e
  dsimp only [Vectors.rest]
  rw [List.drop_drop]
  by_cases hfirst : s.first + k < s.v.length
  · rw [List.drop_eq_getElem_cons hfirst]
    by_cases hleft : left = 0
    · rw [if_neg fun h => h.2 hleft, hleft, List.drop_eq_getElem_cons hfirst]
      rfl
    · rw [if_pos ⟨hfirst, hleft⟩, List.drop_eq_getElem_cons (by rwa [List.length_set])]
      rw [List.getElem_set_self, List.getD_eq_getElem?_getD, List.getElem?_eq_getElem hfirst,
        List.drop_set_of_lt (Nat.lt_succ_self _)]
      rfl
  · rw [if_neg fun h => hfirst h.1, List.drop_of_length_le (not_lt.mp hfirst)]

theorem dropWhile_eq_drop (v : List (List UInt8)) :
    v.dropWhile (·.isEmpty) = v.drop (v.takeWhile (·.isEmpty)).length := by
  induction v with
  | nil => rfl
  | cons x v ih =>
    cases x with
    | nil => exact ih
    | cons a x => rfl

theorem Vectors.rest_skipEmpty : s.skipEmpty.rest = s.rest.dropWhile (·.isEmpty) := by
  rw [dropWhile_eq_drop]
  exact (List.drop_drop).symm

/-- The vectors are those the caller handed over, each without a first part. -/
structure Within (v : List (List UInt8)) (s : Vectors) : Prop where
  length : s.v.length = v.length
  suffix : ∀ i, s.v.getD i [] <:+ v.getD i []

theorem Within.advance {v : List (List UInt8)} (h : Within v s) (left : ℕ) :
    Within v (s.advance left) := by
  unfold Vectors.advance
  dsimp only
  split_ifs with hshort
  · refine ⟨?_, fun i => ?_⟩
    · rw [List.length_set]
      exact h.length
    · rw [List.getD_eq_getElem?_getD]
      by_cases hi : s.first + (exhausted s.rest left).1 = i
      · rw [← hi, List.getElem?_set_self hshort.1]
        exact (List.drop_suffix _ _).trans (h.suffix _)
      · rw [List.getElem?_set_ne hi, ← List.getD_eq_getElem?_getD]
        exact h.suffix i
  · exact ⟨h.length, h.suffix⟩

/-- The vectors of a call lie in the array of the caller, each without a first part. -/
structure OffersWithin (v : List (List UInt8)) (first : ℕ) (offered : List (List UInt8)) :
    Prop where
  bound : first + offered.length ≤ v.length
  suffix : ∀ i < offered.length, offered.getD i [] <:+ v.getD (first + i) []

theorem Within.offers {v : List (List UInt8)} (h : Within v s) (hfirst : s.first < s.v.length)
    (n : ℕ) : OffersWithin v s.first (s.rest.take n) := by
  have hlength : (s.rest.take n).length ≤ s.v.length - s.first := by
    rw [List.length_take, Vectors.rest, List.length_drop]
    exact Nat.min_le_right _ _
  refine ⟨?_, fun i hi => ?_⟩
  · rw [← h.length]
    omega
  · have htake : i < n := hi.trans_le (List.length_take_le _ _)
    rw [List.getD_eq_getElem?_getD, List.getElem?_take_of_lt htake, Vectors.rest,
      List.getElem?_drop, ← List.getD_eq_getElem?_getD]
    exact h.suffix _

theorem Vectors.rest_ne_nil (hfirst : s.first < s.v.length) : s.rest ≠ [] := by
  intro hnil
  have hle := List.drop_eq_nil_iff.mp hnil
  omega

theorem Vectors.rest_eq_nil (hfirst : ¬ s.first < s.v.length) : s.rest = [] :=
  List.drop_of_length_le (not_lt.mp hfirst)

/-- The update of the vectors drops what was taken. -/
theorem Vectors.flatten_rest_advance (k : ℕ) :
    (s.advance k).rest.flatten = s.rest.flatten.drop k := by
  rw [Vectors.rest_advance, flatten_advanceVectors]

theorem vectorsLoop_sound (v : List (List UInt8)) {settle : Vectors → Vectors}
    (amount : Vectors → ℕ)
    (hsettle : ∀ {s}, Within v s → Within v (settle s) ∧ (settle s).rest.flatten = s.rest.flatten) :
    (vectorsLoop settle amount).Sound (Within v) fun s => s.rest.flatten where
  settle := hsettle
  done {s} _ hoffer := by
    by_cases hfirst : s.first < s.v.length
    · exact absurd ((if_pos hfirst).symm.trans hoffer) nofun
    · show s.rest.flatten = []
      rw [Vectors.rest_eq_nil hfirst]
      rfl
  offered {s first offered} _ hoffer := by
    by_cases hfirst : s.first < s.v.length
    · obtain ⟨-, rfl⟩ := Prod.mk.inj (Option.some.inj ((if_pos hfirst).symm.trans hoffer))
      exact (List.take_prefix _ _).flatten
    · exact absurd ((if_neg hfirst).symm.trans hoffer) nofun
  advance h _ _ := ⟨h.advance _, Vectors.flatten_rest_advance _⟩

theorem vectorsLoop_offers {v : List (List UInt8)} {settle : Vectors → Vectors}
    {amount : Vectors → ℕ} (h : Within v s) {first : ℕ} {offered : List (List UInt8)}
    (hoffer : (vectorsLoop settle amount).offer s = some (first, offered)) :
    OffersWithin v first offered ∧ offered.length ≤ amount s := by
  by_cases hfirst : s.first < s.v.length
  · obtain ⟨rfl, rfl⟩ := Prod.mk.inj (Option.some.inj ((if_pos hfirst).symm.trans hoffer))
    exact ⟨h.offers hfirst _, List.length_take_le _ _⟩
  · exact absurd ((if_neg hfirst).symm.trans hoffer) nofun

theorem stderrVectors_sound (v : List (List UInt8)) :
    stderrVectors.Sound (Within v) fun s => s.rest.flatten :=
  vectorsLoop_sound v _ fun h => ⟨h, rfl⟩

theorem vallVectors_sound (iovMax : ℕ) (v : List (List UInt8)) :
    (vallVectors iovMax).Sound (Within v) fun s => s.rest.flatten :=
  vectorsLoop_sound v _ fun {s} h => ⟨⟨h.length, h.suffix⟩, by
    rw [Vectors.rest_skipEmpty, flatten_dropWhile_isEmpty]⟩

/-- After the empty vectors have been stepped over, a call is offered some bytes. -/
theorem vallVectors_full (iovMax : ℕ) (h : (vallVectors iovMax).offer s.skipEmpty ≠ none) :
    s.rest.flatten ≠ [] := by
  have hfirst : s.skipEmpty.first < s.skipEmpty.v.length := by
    by_contra hlast
    exact h (if_neg hlast)
  have hrest := Vectors.rest_ne_nil hfirst
  rw [Vectors.rest_skipEmpty] at hrest
  intro hnil
  rw [← flatten_dropWhile_isEmpty] at hnil
  cases hdrop : s.rest.dropWhile (·.isEmpty) with
  | nil => exact hrest hdrop
  | cons x xs =>
    have hx : x.isEmpty = false := by
      have hhead := List.head_dropWhile_not (fun x : List UInt8 => x.isEmpty) hrest
      simpa [hdrop] using hhead
    rw [hdrop, List.flatten_cons] at hnil
    rw [(List.append_eq_nil_iff.mp hnil).1] at hx
    exact nomatch hx

theorem allVectors_sound (p : List UInt8) :
    allVectors.Sound (fun rest => rest <:+ p) fun rest => rest where
  settle h := ⟨h, rfl⟩
  done {rest} _ hoffer := by
    by_contra hne
    exact absurd ((if_neg hne).symm.trans hoffer) nofun
  offered {rest first offered} _ hoffer := by
    by_cases hnil : rest = []
    · exact absurd ((if_pos hnil).symm.trans hoffer) nofun
    · obtain ⟨-, rfl⟩ := Prod.mk.inj (Option.some.inj ((if_neg hnil).symm.trans hoffer))
      rw [List.flatten_singleton]
  advance h _ _ := ⟨(List.drop_suffix _ _).trans h, rfl⟩

end

/-! ## Exact prefixes -/

/-- The bytes that are left after the calls. -/
def bytesLeft (all : List UInt8) (calls : List WriteCall) : ℕ := all.length - (emitted calls).length

/-- What holds at every moment of a run: the calls have emitted a first part of the bytes, in order
and each byte once, and have been offered vectors of the array only. Every result other than an
interruption leaves fewer bytes, or is the last one. -/
structure ExactPrefix (all : List UInt8) (P : ℕ → List (List UInt8) → Prop)
    (calls : List WriteCall) : Prop where
  part : emitted calls <+: all
  offers : ∀ c ∈ calls, P c.first c.offered
  progress : ∀ before c after, calls = before ++ c :: after → c.result ≠ .error eintr →
    bytesLeft all (before ++ [c]) < bytesLeft all before ∨ after = []

/-- A loop waits for a further call only when every result so far was an interruption or has left
fewer bytes. -/
def WaitsOnProgress {α : Type} (all : List UInt8) (o : Outcome (List WriteCall) Answer α) : Prop :=
  ∀ calls, o = .waiting calls → ∀ before c after, calls = before ++ c :: after →
    c.result ≠ .error eintr → bytesLeft all (before ++ [c]) < bytesLeft all before

/-- What holds of the runs of a loop that counts its bytes: it returns their number, and 0 exactly
when all of them have been emitted. -/
structure ExactLoop (all : List UInt8) (P : ℕ → List (List UInt8) → Prop)
    (o : Outcome (List WriteCall) Answer (ℤ × ℕ)) : Prop where
  moments : ExactPrefix all P o.state
  returned : ∀ rc written calls rest, o = .done (rc, written) calls rest →
    written = (emitted calls).length ∧ (rc = 0 ↔ emitted calls = all)
  waits : WaitsOnProgress all o

section

variable {α β : Type} {all : List UInt8} {P : ℕ → List (List UInt8) → Prop} {calls : List WriteCall}

theorem exitCode_eq_zero {e : Exit ℤ} : exitCode e = 0 ↔ e = .complete := by
  cases e with
  | complete => simp [exitCode]
  | stalled => simp [exitCode, eio]
  | failed e =>
    refine iff_of_false ?_ nofun
    show -(if e = 0 then eio else e) ≠ 0
    split
    · decide
    · exact neg_ne_zero.mpr ‹_›

/-- A call that takes something leaves fewer bytes. -/
theorem Call.Goes.progress {before after : List WriteCall} {c : WriteCall}
    (hgoes : c.Goes writeKernel) (hpart : emitted (before ++ c :: after) <+: all)
    (hresult : c.result ≠ .error eintr) :
    bytesLeft all (before ++ [c]) < bytesLeft all before := by
  have htaken : c.taken ≠ [] := by
    refine hgoes.resolve_left ?_
    rintro ⟨e, he, hagain⟩
    rw [he, of_decide_eq_true hagain] at hresult
    exact hresult rfl
  have hlength : 0 < c.taken.length := List.length_pos_iff.mpr htaken
  have hle : (emitted (before ++ [c])).length ≤ all.length := by
    refine List.IsPrefix.length_le (List.IsPrefix.trans ?_ hpart)
    rw [List.append_cons before c after, emitted_append (before ++ [c])]
    exact List.prefix_append _ _
  rw [emitted_snoc, List.length_append] at hle
  unfold bytesLeft
  rw [emitted_snoc, List.length_append]
  omega

/-- The log of a loop that has ended is exact. -/
theorem ExactPrefix.of_finished (hpart : emitted calls <+: all)
    (hoffers : ∀ c ∈ calls, P c.first c.offered)
    (hgoes : ∃ before last, calls = before ++ last ∧ last.length ≤ 1 ∧
      ∀ c ∈ before, c.Goes writeKernel) : ExactPrefix all P calls := by
  refine ⟨hpart, hoffers, fun before c after hsplit hresult => ?_⟩
  obtain ⟨ended, last, hcalls, hlast, hgoes⟩ := hgoes
  by_cases hafter : after = []
  · exact .inr hafter
  · refine .inl (Call.Goes.progress (hgoes c ?_) (hsplit ▸ hpart) hresult)
    -- another call follows, so this one is not the last
    rw [hcalls] at hsplit
    have htwo : 2 ≤ (c :: after).length := by
      rw [List.length_cons]
      exact Nat.succ_le_succ (List.length_pos_iff.mpr hafter)
    rcases List.append_eq_append_iff.mp hsplit with ⟨more, -, hmore⟩ | ⟨more, rfl, hmore⟩
    · rw [hmore, List.length_append] at hlast
      omega
    · cases more with
      | nil =>
        rw [List.nil_append] at hmore
        rw [← hmore] at hlast
        omega
      | cons c' more =>
        rw [(List.cons.inj hmore).1]
        simp

theorem ExactPrefix.of_running (h : Running writeKernel P all calls) : ExactPrefix all P calls :=
  .of_finished h.part h.offers ⟨calls, [], (List.append_nil _).symm, Nat.zero_le 1, h.goes⟩

theorem WaitsOnProgress.of_sound {Q : α → List WriteCall → Prop}
    {o : Outcome (List WriteCall) Answer α} (h : o.Sound (Running writeKernel P all) Q) :
    WaitsOnProgress all o := by
  rintro calls rfl before c after rfl hresult
  have hrunning : Running writeKernel P all (before ++ c :: after) := h
  exact Call.Goes.progress (hrunning.goes c (by simp)) hrunning.part hresult

/-- A loop that counts its bytes and whose calls all offer some. -/
theorem exactLoop_of_sound {L : Loop UInt8 β} {I : β → Prop} {left : β → List UInt8} {b : β}
    (hL : L.Sound I left)
    (hP : ∀ {b first offered}, I b → L.offer b = some (first, offered) → P first offered)
    (hfull : ∀ b, I b → L.offer (L.settle b) ≠ none → left b ≠ []) (hb : I b)
    (tape : List Answer) :
    ExactLoop (left b) P ((do
      let (exit, written) ← L.run writeKernel b
      return (exitCode exit, written) : LogProg (ℤ × ℕ)).run [] tape) := by
  have hrun : wp (Running writeKernel P (left b)) (do
      let (exit, written) ← L.run writeKernel b
      return (exitCode exit, written) : LogProg (ℤ × ℕ))
        (fun r calls => ExactPrefix (left b) P calls ∧
        r.2 = (emitted calls).length ∧ (r.1 = 0 ↔ emitted calls = left b)) [] := by
    refine wp_bind (wp_mono (Loop.run_spec hL hP hb) fun r calls h => wp_pure ⟨?_, h.written, ?_⟩)
    · exact .of_finished h.part h.offers h.goes
    · rw [exitCode_eq_zero]
      exact h.complete_iff hfull
  have hsound := hrun.run tape
  generalize Prog.run _ _ _ = o at hsound ⊢
  cases o with
  | done r calls rest =>
    refine ⟨hsound.1, ?_, nofun⟩
    rintro rc written calls' rest' ho
    obtain ⟨rfl, rfl, rfl⟩ := Outcome.done.inj ho
    exact hsound.2
  | waiting calls => exact ⟨.of_running hsound, nofun, .of_sound hsound⟩

/-- The loop of the standard error sink. -/
theorem stderrLoopLog_spec (v : List (List UInt8)) :
    wp (Running writeKernel (OffersWithin v) v.flatten) (stderrLoopLog v) (fun rc calls =>
      ExactPrefix v.flatten (OffersWithin v) calls ∧ (rc = 0 → emitted calls = v.flatten)) [] := by
  have hloop := Loop.run_spec (K := writeKernel) (P := OffersWithin v) (stderrVectors_sound v)
    (fun h hoffer => (vectorsLoop_offers h hoffer).1) (b := ⟨v, 0⟩)
    ⟨rfl, fun _ => List.suffix_refl _⟩
  refine wp_bind (wp_mono hloop fun r calls h => wp_pure ⟨?_, fun hrc => ?_⟩)
  · exact .of_finished h.part h.offers h.goes
  · exact h.complete (exitCode_eq_zero.mp hrc)

theorem loggerStderrWritevAllLog_spec (v : List (List UInt8)) :
    wp (ExactPrefix v.flatten (OffersWithin v)) (loggerStderrWritevAllLog v) (fun rc calls =>
      ExactPrefix v.flatten (OffersWithin v) calls ∧ (rc = 0 → emitted calls = v.flatten)) [] := by
  have hstart : ExactPrefix v.flatten (OffersWithin v) [] := by
    refine ⟨List.nil_prefix, nofun, fun before c after hsplit => ?_⟩
    exact absurd (congrArg List.length hsplit) (by simp)
  refine wp_bind (wp_ask hstart fun guard => ?_)
  refine wp_ite (fun _ => wp_pure ⟨hstart, fun hzero => absurd hzero guard.neg_errno_neg.ne⟩) ?_
  intro _
  refine wp_bind (wp_mono ((stderrLoopLog_spec v).weaken fun _ h => .of_running h) ?_)
  rintro rc calls ⟨hexact, hcomplete⟩
  refine wp_bind (wp_ask hexact fun restore => wp_pure ⟨hexact, fun hzero => hcomplete ?_⟩)
  split_ifs at hzero with hrestore
  · exact absurd hzero restore.neg_errno_neg.ne
  · exact hzero

end

/-- The scatter-write loops emit an exact first part of the concatenated vectors, for all vectors
and all results of the calls, at every moment of every run. `all` and `vall` return its length, and
0 exactly when it is everything; `logger_stderr_writev_all` returns 0 only then. The calls are
offered vectors of the array only, and at most `iov_max` of them in `vall`. Every result other than
an interruption ends the loop or leaves fewer bytes. -/
theorem scatter_writes_exact_prefix :
    (∀ p tape, ExactLoop p (OffersWithin [p]) ((allLog p).run [] tape)) ∧
    (∀ iovMax v tape, ExactLoop v.flatten (fun first offered =>
      OffersWithin v first offered ∧ offered.length ≤ iovMax) ((vallLog iovMax v).run [] tape)) ∧
    ∀ v tape,
      ExactPrefix v.flatten (OffersWithin v) ((loggerStderrWritevAllLog v).run [] tape).state ∧
      (∀ calls rest, (loggerStderrWritevAllLog v).run [] tape = .done 0 calls rest →
        emitted calls = v.flatten) ∧
      WaitsOnProgress v.flatten ((stderrLoopLog v).run [] tape) := by
  refine ⟨fun p tape => ?_, fun iovMax v tape => ?_, fun v tape => ⟨?_, ?_, ?_⟩⟩
  -- `all` offers the rest of its one vector
  · refine exactLoop_of_sound (allVectors_sound p) (fun {rest first offered} h hoffer => ?_) ?_
      (List.suffix_refl p) tape
    · by_cases hnil : rest = []
      · exact absurd ((if_pos hnil).symm.trans hoffer) nofun
      · obtain ⟨rfl, rfl⟩ := Prod.mk.inj (Option.some.inj ((if_neg hnil).symm.trans hoffer))
        refine ⟨le_rfl, fun i hi => ?_⟩
        obtain rfl : i = 0 := Nat.lt_one_iff.mp hi
        exact h
    -- it stops only when nothing is left
    · intro rest _ hoffer hnil
      exact hoffer (if_pos hnil)
  -- `vall` offers the vectors from the first one that is not empty
  · refine exactLoop_of_sound (b := ⟨v, 0⟩) (vallVectors_sound iovMax v) (fun h hoffer => ?_)
      (fun s _ hoffer => vallVectors_full iovMax hoffer) ⟨rfl, fun _ => List.suffix_refl _⟩ tape
    obtain ⟨hwithin, hamount⟩ := vectorsLoop_offers h hoffer
    exact ⟨hwithin, hamount.trans (Nat.min_le_right _ _)⟩
  -- the sink may fail with nothing left, so its return code is a clause of its own
  · exact wp_state (wp_mono (loggerStderrWritevAllLog_spec v) fun _ _ h => h.1) tape
  · intro calls rest hrun
    have hsound := (loggerStderrWritevAllLog_spec v).run tape
    rw [hrun] at hsound
    exact hsound.2 rfl
  · exact .of_sound ((stderrLoopLog_spec v).run tape)

-- With empty vectors only, the sink fails although nothing is left to write.
example : ∃ calls, (loggerStderrWritevAllLog [[], []]).run [] [{}, {}, {}] =
    .done (-eio) calls [] := ⟨_, rfl⟩

/-! ## The loops of the backends -/

section

variable {β : Type} {ino : ℕ} {base : List UInt8} {offered : List (List UInt8)}

/-- The file holds what it held before and what the calls have emitted. -/
def FileEmits (ino : ℕ) (base : List UInt8) (w : FileWorld) (calls : List WriteCall) : Prop :=
  w.disk.data ino = base ++ emitted calls

theorem writeCall_matches (first : ℕ) :
    Matches (FileEmits ino base) Eq (writeCall (some ino) offered.flatten)
      (write writeKernel first offered) := by
  refine Matches.ask fun w calls a h => ?_
  unfold FileEmits at h ⊢
  rw [emitted_snoc, FileWorld.writeAnswer]
  cases hok : a.ok with
  | false =>
    have hrespond : writeKernel.respond a offered.flatten.length = .error a.errno :=
      if_pos (by rw [hok]; rfl)
    rw [hrespond]
    refine ⟨rfl, ?_⟩
    show w.disk.data ino = base ++ (emitted calls ++ [])
    rw [List.append_nil]
    exact h
  | true =>
    have hrespond : writeKernel.respond a offered.flatten.length =
        .ok (min a.count offered.flatten.length) := if_neg (by rw [hok]; decide)
    rw [hrespond]
    refine ⟨rfl, ?_⟩
    show Function.update w.disk.data ino (w.disk.data ino ++ offered.flatten.take a.count) ino =
      base ++ (emitted calls ++ offered.flatten.take (min a.count offered.flatten.length))
    rw [Function.update_self, h, List.append_assoc, ← List.take_take, List.take_length]

/-- The results of the loops agree. -/
def SameExit (r : ℤ × ℕ) (exit : Exit ℤ × ℕ) : Prop := r = (exitCode exit.1, exit.2)

/-- The loops of the file backend make a call of `offered` and go on as the loop over the array. -/
theorem afterWrite_matches {δ : Type} (ino : ℕ) (base : List UInt8) {R : δ → β × ℕ → Prop}
    {L : Loop UInt8 β} {b : β} (written : ℕ) {first : ℕ} {goOn : ℕ → δ} {retry : δ}
    (g : FileMetrics → FileMetrics) (hoffer : L.offer (L.settle b) = some (first, offered))
    (hretry : R retry (L.settle b, written))
    (hgoOn : ∀ k, R (goOn k) (L.advance (L.settle b) k, written + k)) :
    Matches (FileEmits ino base) (Sum.LiftRel R SameExit)
      (do
        countMetrics g
        let result ← writeCall (some ino) offered.flatten
        afterWrite result goOn retry written)
      (L.body writeKernel (b, written)) := by
  -- the metrics are not part of the log
  have hcount {δ' : Type} {m : FileProg δ'} {S : δ' → β × ℕ ⊕ Exit ℤ × ℕ → Prop}
      {m' : LogProg (β × ℕ ⊕ Exit ℤ × ℕ)} {g : FileMetrics → FileMetrics}
      (hm : Matches (FileEmits ino base) S m m') :
      Matches (FileEmits ino base) S (countMetrics g >>= fun _ => m) m' :=
    Matches.modify_bind (fun _ _ h => h) hm
  unfold Loop.body
  dsimp only
  rw [hoffer]
  refine hcount (Matches.bind (writeCall_matches first) ?_)
  rintro result _ rfl
  cases result with
  | error e =>
    -- an interrupted call is made again, and any other failure ends the loop
    by_cases he : e = eintr
    · have hagain : writeKernel.again e = true := decide_eq_true he
      simp only [afterWrite, if_pos he, hagain, if_true]
      exact hcount (.pure (.inl hretry))
    · have hagain : writeKernel.again e = false := decide_eq_false he
      simp only [afterWrite, if_neg he, hagain]
      exact hcount (.pure (.inr rfl))
  | ok k =>
    -- a call that accepts nothing ends the loop as well
    cases k with
    | zero => exact hcount (.pure (.inr rfl))
    | succ k => exact .pure (.inl (hgoOn (k + 1)))

/-- `all` of the file backend does what `all` does on its log. -/
theorem all_matches (ino : ℕ) (base p : List UInt8) :
    Matches (FileEmits ino base) Eq (all (some ino) p) (allLog p) := by
  have hloop : Matches (FileEmits ino base) SameExit (all (some ino) p)
      (allVectors.run writeKernel p) := by
    refine Matches.iterate ?_ (show Eq (p, 0) (p, 0) from rfl)
    rintro ⟨p, written⟩ _ rfl
    by_cases hp : p = []
    · unfold Loop.body
      simp only [allVectors, hp, if_true]
      exact .pure (.inr rfl)
    · have hoffer : allVectors.offer p = some (0, [p]) := if_neg hp
      simp only [hp, if_false]
      have hcall := afterWrite_matches ino base (R := Eq) (L := allVectors) (b := p) written
        (fun m => { m with writeSyscalls := m.writeSyscalls + 1 }) hoffer rfl fun k => rfl
      rw [List.flatten_singleton] at hcall
      exact hcall
  exact hloop.bind_right fun r exit h => .pure h

/-- The vectors that are left, and those in use of the array. -/
def SameVectors (r : List (List UInt8) × ℕ) (s : Vectors × ℕ) : Prop :=
  r.1.dropWhile (·.isEmpty) = s.1.rest.dropWhile (·.isEmpty) ∧ r.2 = s.2

/-- `vall` of the file backend does what `vall` does on its log. -/
theorem vall_matches (ino : ℕ) (base : List UInt8) (iovMax : ℕ) (v : List (List UInt8)) :
    Matches (FileEmits ino base) Eq (vall (some ino) iovMax v) (vallLog iovMax v) := by
  have hloop : Matches (FileEmits ino base) SameExit (vall (some ino) iovMax v)
      ((vallVectors iovMax).run writeKernel ⟨v, 0⟩) := by
    -- the two loops hold the same rest, one as a list of vectors and one as a place in the array
    refine Matches.iterate ?_ (show SameVectors (v, 0) (⟨v, 0⟩, 0) from ⟨rfl, rfl⟩)
    rintro ⟨vs, written⟩ ⟨s, _⟩ ⟨hrest, rfl⟩
    dsimp only at hrest ⊢
    rw [← Vectors.rest_skipEmpty] at hrest
    cases hdrop : vs.dropWhile (·.isEmpty) with
    -- nothing is left, and the loop over the array has come to its end
    | nil =>
      rw [hdrop] at hrest
      have hlast : ¬ s.skipEmpty.first < s.skipEmpty.v.length :=
        fun hfirst => Vectors.rest_ne_nil hfirst hrest.symm
      have hoffer : (vallVectors iovMax).offer ((vallVectors iovMax).settle s) = none :=
        if_neg hlast
      unfold Loop.body
      simp only [hoffer]
      exact .pure (.inr rfl)
    | cons x xs =>
      rw [hdrop] at hrest
      have hfirst : s.skipEmpty.first < s.skipEmpty.v.length := by
        by_contra hlast
        rw [Vectors.rest_eq_nil hlast] at hrest
        exact nomatch hrest
      have hoffer : (vallVectors iovMax).offer ((vallVectors iovMax).settle s) =
          some (s.skipEmpty.first, (x :: xs).take iovMax) := by
        -- the limit is taken of the vectors that are left
        have hamount : s.skipEmpty.rest.length = s.skipEmpty.v.length - s.skipEmpty.first :=
          List.length_drop
        refine (if_pos hfirst).trans ?_
        show some (s.skipEmpty.first, s.skipEmpty.rest.take
          (min (s.skipEmpty.v.length - s.skipEmpty.first) iovMax)) = _
        rw [hrest, ← hamount, ← List.take_take, List.take_of_length_le]
        exact List.length_take.trans_le (Nat.min_le_right _ _)
      -- the same vectors are offered, so both loops go on from the same rest
      refine afterWrite_matches ino base written _ hoffer ⟨?_, rfl⟩ fun k => ⟨?_, rfl⟩
      · show (x :: xs).dropWhile _ = s.skipEmpty.rest.dropWhile _
        rw [hrest]
      · show (advanceVectors (x :: xs) k).dropWhile _ = (s.skipEmpty.advance k).rest.dropWhile _
        rw [Vectors.rest_advance, hrest]
  exact hloop.bind_right fun r exit h => .pure h

/-- The stream holds what it held before and what the calls have emitted. -/
def StderrEmits (base : List UInt8) (w : StderrWorld) (calls : List WriteCall) : Prop :=
  w.stream = base ++ emitted calls

theorem stderrWritev_matches (base : List UInt8) (first : ℕ) :
    Matches (StderrEmits base) Eq (stderrWritev offered.flatten)
      (write writeKernel first offered) := by
  refine Matches.ask fun w calls a h => ?_
  unfold StderrEmits at h ⊢
  rw [emitted_snoc]
  cases hok : a.ok with
  | false =>
    have hrespond : writeKernel.respond a offered.flatten.length = .error a.errno :=
      if_pos (by rw [hok]; rfl)
    rw [hrespond]
    refine ⟨rfl, ?_⟩
    show w.stream = base ++ (emitted calls ++ [])
    rw [List.append_nil]
    exact h
  | true =>
    have hrespond : writeKernel.respond a offered.flatten.length =
        .ok (min a.count offered.flatten.length) := if_neg (by rw [hok]; decide)
    rw [hrespond]
    refine ⟨rfl, ?_⟩
    show w.stream ++ offered.flatten.take a.count =
      base ++ (emitted calls ++ offered.flatten.take (min a.count offered.flatten.length))
    rw [h, List.append_assoc, ← List.take_take, List.take_length]

/-- The vectors are those in use of the array. -/
def InUse (v : List (List UInt8)) (s : Vectors × ℕ) : Prop := v = s.1.rest

/-- The loop of the sink does what the loop over the array does. -/
theorem stderrLoop_matches (base : List UInt8) (v : List (List UInt8)) :
    Matches (StderrEmits base) Eq (Prog.iterate stderrStep v) (stderrLoopLog v) := by
  have hloop : Matches (StderrEmits base) (fun rc exit => rc = exitCode exit.1)
      (Prog.iterate stderrStep v) (stderrVectors.run writeKernel ⟨v, 0⟩) := by
    refine Matches.iterate ?_ (show InUse v (⟨v, 0⟩, 0) from rfl)
    -- the sink does not skip empty vectors, so it offers all that are in use
    rintro _ ⟨s, written⟩ rfl
    unfold Loop.body stderrStep
    by_cases hfirst : s.first < s.v.length
    · have hoffer : stderrVectors.offer (stderrVectors.settle s) = some (s.first, s.rest) := by
        refine (if_pos hfirst).trans ?_
        show some (s.first, s.rest.take (s.v.length - s.first)) = _
        have hamount : s.rest.length = s.v.length - s.first := List.length_drop
        rw [← hamount, List.take_length]
      dsimp only
      rw [hoffer, if_neg (Vectors.rest_ne_nil hfirst)]
      refine Matches.bind (stderrWritev_matches base s.first) ?_
      rintro result _ rfl
      cases result with
      | error e =>
        -- an interruption leaves the place as it is
        by_cases he : e = eintr
        · have hagain : writeKernel.again e = true := decide_eq_true he
          simp only [if_pos he, hagain, if_true]
          exact .pure (.inl rfl)
        · have hagain : writeKernel.again e = false := decide_eq_false he
          simp only [if_neg he, hagain]
          exact .pure (.inr rfl)
      | ok k =>
        cases k with
        | zero => exact .pure (.inr rfl)
        | succ k => exact .pure (.inl (Vectors.rest_advance (k + 1)).symm)
    -- the array has been used up
    · have hoffer : stderrVectors.offer (stderrVectors.settle s) = none := if_neg hfirst
      dsimp only
      rw [hoffer, if_pos (Vectors.rest_eq_nil hfirst)]
      exact .pure (.inr rfl)
  exact hloop.bind_right fun rc exit h => .pure h

/-- The standard error sink does what `logger_stderr_writev_all` does on its log. -/
theorem loggerStderrWritevAll_matches (base : List UInt8) (v : List (List UInt8)) :
    Matches (StderrEmits base) Eq (loggerStderrWritevAll v) (loggerStderrWritevAllLog v) := by
  refine Matches.bind (Matches.ask fun _ _ a h => ⟨(rfl : a = a), h⟩) ?_
  rintro guard _ rfl
  cases guard.ok with
  | false => exact .pure rfl
  | true =>
    refine Matches.bind (stderrLoop_matches base v) ?_
    rintro result _ rfl
    refine Matches.bind (Matches.ask fun _ _ a h => ⟨(rfl : a = a), h⟩) ?_
    rintro restore _ rfl
    exact .pure rfl

end

end CLogger
