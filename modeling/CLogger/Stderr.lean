import CLogger.Syscall

/-!
# The standard error sink

`logger_stderr_writev_all` of `logger_worker.c`: the scatter-write loop to the standard error
descriptor between the two halves of the SIGPIPE guard. `stderrWritevAll_spec` says that it writes
a first part of the bytes, and all of them when it returns 0.
-/

namespace CLogger

open TapeProgram

/-- What has been written to the descriptor. -/
structure StderrWorld where
  stream : List UInt8

/-- `writev`: the kernel takes a first part of the bytes. -/
def stderrWritev (bytes : List UInt8) : Prog StderrWorld Answer (Except ℤ ℕ) :=
  Prog.ask fun w a =>
    if !a.ok then (.error a.errno, w)
    else (.ok (min a.count bytes.length), { stream := w.stream ++ bytes.take a.count })

/-- The loop of `logger_stderr_writev_all`: one `writev` and the update of the vectors. -/
def stderrStep (v : List (List UInt8)) :
    Prog StderrWorld Answer (List (List UInt8) ⊕ ℤ) := do
  if v = [] then return .inr 0
  else
    match ← stderrWritev v.flatten with
    | .error e =>
      if e = eintr then return .inl v
      else return .inr (-(if e = 0 then eio else e))
    | .ok 0 => return .inr (-eio)
    | .ok (n + 1) => return .inl (advanceVectors v (n + 1))

/-- `logger_stderr_writev_all`. The guard blocks SIGPIPE for the thread and restores its mask;
either half can fail. -/
def loggerStderrWritevAll (v : List (List UInt8)) : Prog StderrWorld Answer ℤ := do
  let guard ← Prog.ask fun w a => (a, w)
  if !guard.ok then return -guard.errno
  else
    let result ← Prog.iterate stderrStep v
    let restore ← Prog.ask fun w a => (a, w)
    return if result = 0 ∧ !restore.ok then -restore.errno else result

/-- The states that a call with the given bytes passes: a first part of them has been taken. -/
def StderrWriting (w₀ : StderrWorld) (bytes : List UInt8) (w : StderrWorld) : Prop :=
  ∃ part, part <+: bytes ∧ w.stream = w₀.stream ++ part

/-- The result of a call: 0 only when all bytes have been taken. -/
structure StderrWritten (w₀ : StderrWorld) (bytes : List UInt8) (rc : ℤ) (w : StderrWorld) :
    Prop where
  nonpos : rc ≤ 0
  writing : StderrWriting w₀ bytes w
  complete : rc = 0 → w.stream = w₀.stream ++ bytes

theorem StderrWritten.failed {w₀ w : StderrWorld} {bytes : List UInt8} {rc : ℤ} (hrc : rc < 0)
    (h : StderrWriting w₀ bytes w) : StderrWritten w₀ bytes rc w :=
  ⟨hrc.le, h, fun hzero => absurd hzero hrc.ne⟩

/-- The loop is under way: `rest` are the bytes that have not been taken. -/
def StderrProgress (w₀ : StderrWorld) (bytes rest : List UInt8) (w : StderrWorld) : Prop :=
  ∃ part, part ++ rest = bytes ∧ w.stream = w₀.stream ++ part

theorem StderrProgress.writing {w₀ w : StderrWorld} {bytes rest : List UInt8}
    (h : StderrProgress w₀ bytes rest w) : StderrWriting w₀ bytes w := by
  obtain ⟨part, hall, hstream⟩ := h
  exact ⟨part, ⟨rest, hall⟩, hstream⟩

/-- The next bytes of the vectors go to the end of the stream. -/
theorem StderrProgress.take {w₀ w : StderrWorld} {bytes rest : List UInt8}
    (h : StderrProgress w₀ bytes rest w) (count : ℕ) :
    StderrProgress w₀ bytes (rest.drop (min count rest.length))
      { stream := w.stream ++ rest.take count } := by
  obtain ⟨part, hall, hstream⟩ := h
  refine ⟨part ++ rest.take count, ?_, ?_⟩
  · have hlen : min count rest.length = (rest.take count).length := List.length_take.symm
    rw [List.append_assoc, hlen, ← List.prefix_append_drop (List.take_prefix _ _)]
    exact hall
  · rw [hstream, List.append_assoc]

theorem stderrStep_spec {w₀ w : StderrWorld} {bytes : List UInt8} (v : List (List UInt8))
    (h : StderrProgress w₀ bytes v.flatten w) :
    wpStep (StderrWriting w₀ bytes) (stderrStep v)
      (fun r w' => r.elim (fun v' => StderrProgress w₀ bytes v'.flatten w')
        (fun rc => StderrWritten w₀ bytes rc w')) w := by
  -- no vector is left, so everything has been written
  refine wp_ite (fun hempty => wp_pure ⟨le_rfl, h.writing, fun _ => ?_⟩) fun _ => ?_
  · obtain ⟨part, hall, hstream⟩ := h
    rw [hempty, List.flatten_nil, List.append_nil] at hall
    rw [hstream, hall]
  refine wp_bind (Safe.ask trivial (fun a => ?_) fun a => ?_)
  -- a failed call that is no interruption ends the loop
  · cases a.ok with
    | false =>
      refine wp_ite (fun _ => wp_pure h) fun _ => wp_pure (.failed ?_ h.writing)
      rw [if_neg a.errno_ne_zero]
      exact a.neg_errno_neg
    | true =>
      have htaken := h.take a.count
      -- a call that accepts nothing is an error too
      cases hn : min a.count v.flatten.length with
      | zero =>
        rw [hn] at htaken
        simp only [Bool.not_true, Bool.false_eq_true, if_false]
        exact wp_pure (.failed (by decide) htaken.writing)
      | succ n =>
        rw [hn] at htaken
        simp only [Bool.not_true, Bool.false_eq_true, if_false]
        refine wp_pure ?_
        rw [Sum.elim_inl, flatten_advanceVectors]
        exact htaken
  -- at the moment of the answer the stream holds a first part
  · split_ifs
    · exact h.writing
    · exact (h.take a.count).writing

/-- The writes of the loop are a first part of the bytes, and all of them on success. -/
theorem stderrWritevAll_spec (v : List (List UInt8)) (w : StderrWorld) :
    wpStep (StderrWriting w v.flatten) (loggerStderrWritevAll v)
      (fun rc w' => StderrWritten w v.flatten rc w') w := by
  have hstart : StderrProgress w v.flatten v.flatten w := ⟨[], rfl, (List.append_nil _).symm⟩
  refine wp_bind (Safe.ask trivial (fun guard => ?_) fun _ => hstart.writing)
  refine wp_ite (fun _ => wp_pure (.failed (guard.neg_errno_neg) hstart.writing))
    fun _ => ?_
  refine wp_bind (wp_mono (Q := StderrWritten w v.flatten) ?_ fun rc w₁ h₁ => ?_)
  · exact wp_iterate (fun v' w' => StderrProgress w v.flatten v'.flatten w')
      (fun _ _ _ => trivial) (fun v' w' h' => stderrStep_spec v' h') hstart
  · refine wp_bind (Safe.ask trivial (fun restore => wp_pure ?_) fun _ => h₁.writing)
    split
    · exact .failed (restore.neg_errno_neg) h₁.writing
    · exact h₁

end CLogger
