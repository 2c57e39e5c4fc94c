import CLogger.Errno
import CLogger.Lib.TapeProgram
import CLogger.Record

/-!
# System calls

What the output backends share: the answers that system and C library calls can give, the limits
of the integer types they use, and the step of a scatter-write loop over its vectors. The backends
are programs in the sense of `TapeProgram`, with one answer for every call.
-/

namespace CLogger

/-- The kind of a directory entry, the type bits of `st_mode`. -/
inductive FileKind where
  | regular | symlink | charDevice | other
  deriving DecidableEq, Repr

/-- The answer to one call. Each call reads the fields that concern it. -/
structure Answer where
  ok : Bool := true
  errno : ℤ := eio
  /-- A call that fails sets a positive error number. -/
  errno_pos : 0 < errno := by
    first | exact eio_pos | exact eintr_pos | exact enomem_pos | exact epipe_pos
  /-- The number of bytes `write` takes. -/
  count : ℕ := 0
  kind : FileKind := .regular
  nlink : ℕ := 1
  mtime : ℤ := 0
  /-- Whether an `open` that fails has created the file. -/
  created : Bool := false
  /-- The reading of a clock. -/
  time : Timespec := ⟨0, 0⟩
  /-- The entry `readdir` returns. -/
  entry : Option CString := none

theorem Answer.errno_ne_zero (a : Answer) : a.errno ≠ 0 := a.errno_pos.ne'

/-- A negated error number is negative, so it is not mistaken for success. -/
theorem Answer.neg_errno_neg (a : Answer) : -a.errno < 0 := by
  have hpos := a.errno_pos
  omega

/-- The result of a call that fails with an error number. -/
def ErrorNumber {α : Type} (r : Except ℤ α) : Prop := ∀ e, r = .error e → 0 < e

theorem ErrorNumber.ok {α : Type} (a : α) : ErrorNumber (.ok a) := nofun

theorem ErrorNumber.error {α : Type} {e : ℤ} (h : 0 < e) : ErrorNumber (.error e : Except ℤ α) := by
  intro e' he
  rw [← Except.error.inj he]
  exact h

/-- `SIZE_MAX`. -/
def sizeMax : ℕ := 2 ^ 64 - 1

/-- `SSIZE_MAX`. -/
def ssizeMax : ℕ := 2 ^ 63 - 1

/-- The update of the vectors in a scatter-write loop after `left` bytes were taken. -/
def advanceVectors : List (List UInt8) → ℕ → List (List UInt8)
  | [], _ => []
  | v :: vs, left =>
    if v.length ≤ left then advanceVectors vs (left - v.length) else v.drop left :: vs

theorem flatten_dropWhile_isEmpty (v : List (List UInt8)) :
    (v.dropWhile (·.isEmpty)).flatten = v.flatten := by
  induction v with
  | nil => rfl
  | cons x v ih =>
    cases x with
    | nil => exact ih
    | cons a x => rfl

/-- After `left` bytes the vectors hold what is left. -/
theorem flatten_advanceVectors (v : List (List UInt8)) (left : ℕ) :
    (advanceVectors v left).flatten = v.flatten.drop left := by
  induction v generalizing left with
  | nil => rw [advanceVectors, List.flatten_nil, List.drop_nil]
  | cons x v ih =>
    rw [advanceVectors, List.flatten_cons, List.drop_append]
    by_cases hx : x.length ≤ left
    · rw [if_pos hx, ih, List.drop_of_length_le hx, List.nil_append]
    · rw [if_neg hx, List.flatten_cons, Nat.sub_eq_zero_of_le (by omega), List.drop_zero]

end CLogger
