import Mathlib.Data.Nat.Notation
import Mathlib.Tactic.Common

/-!
# A flat memory

Memory as a function from addresses, objects as ranges that do not wrap. Reading and writing a
range, and the copy that reads its source before it writes.

* `read_write_self`, `read_write_of_apart`, `write_apply_of_outside`: what a write changes.
* `write_append`, `write_comm`: writes to adjacent ranges are one write, writes to disjoint ranges
  commute.
* `memmove_memmove`: two copies are two writes of what the memory held before, when the first one
  spares the source of the second.
-/

namespace FlatMemory

variable {β : Type*}

/-- Memory: the value at each address. -/
abbrev Memory (β : Type*) : Type _ := ℕ → β

/-- The `n` values from address `a` on. -/
def read (m : Memory β) (a n : ℕ) : List β := (List.range n).map fun i => m (a + i)

/-- Memory after the values were stored from address `a` on. -/
def write (m : Memory β) (a : ℕ) (xs : List β) : Memory β := fun x =>
  if x < a then m x else (xs[x - a]?).getD (m x)

/-- `memmove`: the source is read as a whole before the destination is written. -/
def memmove (m : Memory β) (dst src n : ℕ) : Memory β := write m dst (read m src n)

/-- The ranges of `n` addresses from `a` and of `k` addresses from `b` have none in common. -/
def Apart (a n b k : ℕ) : Prop := a + n ≤ b ∨ b + k ≤ a

variable {m : Memory β} {a b n k : ℕ} {xs ys : List β}

@[simp] theorem length_read : (read m a n).length = n := by simp [read]

@[simp] theorem read_zero : read m a 0 = [] := rfl

theorem getElem?_read {i : ℕ} (hi : i < n) : (read m a n)[i]? = some (m (a + i)) := by
  simp [read, hi]

/-- A range is its first part followed by the rest. -/
theorem read_add : read m a (n + k) = read m a n ++ read m (a + n) k := by
  simp [read, List.range_add, Nat.add_assoc, Function.comp_def]

theorem take_read (h : k ≤ n) : (read m a n).take k = read m a k := by
  obtain ⟨j, rfl⟩ := Nat.exists_eq_add_of_le h
  rw [read_add, List.take_left' length_read]

theorem drop_read (h : k ≤ n) : (read m a n).drop k = read m (a + k) (n - k) := by
  obtain ⟨j, rfl⟩ := Nat.exists_eq_add_of_le h
  rw [read_add, List.drop_left' length_read, Nat.add_sub_cancel_left]

/-- A write leaves every address outside its range alone. -/
theorem write_apply_of_outside {x : ℕ} (h : x < a ∨ a + xs.length ≤ x) : write m a xs x = m x := by
  unfold write
  split
  · rfl
  · rw [List.getElem?_eq_none (by omega), Option.getD_none]

theorem write_apply_of_inside {x : ℕ} (ha : a ≤ x) (hx : x - a < xs.length) :
    write m a xs x = xs[x - a] := by
  rw [write, if_neg (by omega), List.getElem?_eq_getElem hx, Option.getD_some]

@[simp] theorem write_nil : write m a [] = m := by
  funext x
  exact write_apply_of_outside (by rw [List.length_nil]; omega)

@[simp] theorem memmove_zero {dst src : ℕ} : memmove m dst src 0 = m := by
  rw [memmove, read_zero, write_nil]

/-- What was written is read back. -/
theorem read_write_self : read (write m a xs) a xs.length = xs := by
  apply List.ext_getElem?
  intro i
  by_cases hi : i < xs.length
  · rw [getElem?_read hi, write_apply_of_inside (Nat.le_add_right _ _) (by omega),
      List.getElem?_eq_getElem hi]
    simp only [Nat.add_sub_cancel_left]
  · rw [List.getElem?_eq_none (by rw [length_read]; omega), List.getElem?_eq_none (by omega)]

/-- A range that a write does not touch reads as before. -/
theorem read_write_of_apart (h : Apart a xs.length b n) :
    read (write m a xs) b n = read m b n := by
  apply List.map_congr_left
  intro i hi
  rw [List.mem_range] at hi
  unfold Apart at h
  exact write_apply_of_outside (by omega)

/-- Two writes of adjacent ranges are one. -/
theorem write_append : write m a (xs ++ ys) = write (write m a xs) (a + xs.length) ys := by
  funext x
  by_cases hlow : x < a + xs.length
  · rw [write_apply_of_outside (a := a + xs.length) (Or.inl hlow)]
    by_cases ha : x < a
    · rw [write_apply_of_outside (Or.inl ha), write_apply_of_outside (Or.inl ha)]
    · rw [write_apply_of_inside (by omega) (by rw [List.length_append]; omega),
        write_apply_of_inside (by omega) (by omega), List.getElem_append_left]
  · by_cases hin : x < a + xs.length + ys.length
    · rw [write_apply_of_inside (by omega) (by rw [List.length_append]; omega),
        write_apply_of_inside (by omega) (by omega), List.getElem_append_right (by omega)]
      simp only [Nat.sub_sub]
    · rw [write_apply_of_outside (by rw [List.length_append]; omega),
        write_apply_of_outside (by omega), write_apply_of_outside (by omega)]

/-- Writes to disjoint ranges commute. -/
theorem write_comm (h : Apart a xs.length b ys.length) :
    write (write m a xs) b ys = write (write m b ys) a xs := by
  unfold Apart at h
  funext x
  by_cases ha : a ≤ x ∧ x < a + xs.length
  · rw [write_apply_of_outside (a := b) (by omega),
      write_apply_of_inside ha.1 (by omega), write_apply_of_inside ha.1 (by omega)]
  · rw [write_apply_of_outside (a := a) (m := write m b ys) (by omega)]
    by_cases hb : b ≤ x ∧ x < b + ys.length
    · rw [write_apply_of_inside hb.1 (by omega), write_apply_of_inside hb.1 (by omega)]
    · rw [write_apply_of_outside (by omega), write_apply_of_outside (by omega),
        write_apply_of_outside (by omega)]

/-- The second of two copies reads what the memory held before the first, when the destination of
the first spares the source of the second. -/
theorem memmove_memmove {dst src dst' src' : ℕ} (h : Apart dst n src' k) :
    memmove (memmove m dst src n) dst' src' k =
      write (write m dst (read m src n)) dst' (read m src' k) := by
  unfold memmove
  rw [read_write_of_apart (by rwa [length_read])]

end FlatMemory
