import Mathlib.Data.Nat.Notation
import Mathlib.Algebra.Order.Monoid.NatCast
import Mathlib.Algebra.Ring.Nat
import Mathlib.Tactic.Common

/-!
# Arithmetic on object sizes

The words of an unsigned type such as `size_t`, whose operations wrap, and the guards that
programs put before them. Each guard has one lemma that says that the operation behind it is exact.

* `toNat_mul_of_guard`: a product behind the test `n > SIZE_MAX / size`.
* `toNat_add_of_guard`: a sum behind the test `n > SIZE_MAX - size`.
-/

/-- The width of an unsigned size type. The C standard asks for at least 16 bits. -/
structure SizeWidth where
  bits : ℕ
  bits_ge : 16 ≤ bits

namespace SizeWidth

variable (W : SizeWidth)

/-- The words of the type. -/
abbrev SizeT : Type := BitVec W.bits

/-- The largest word. -/
def sizeMax : W.SizeT := BitVec.allOnes W.bits

theorem bits_pos : 0 < W.bits := lt_of_lt_of_le (by decide) W.bits_ge

theorem two_pow_le : 2 ^ 16 ≤ 2 ^ W.bits := Nat.pow_le_pow_right (by decide) W.bits_ge

/-- Small constants are words. -/
theorem toNat_ofNat_small {n : ℕ} (h : n < 2 ^ 16) : (BitVec.ofNat W.bits n).toNat = n := by
  rw [BitVec.toNat_ofNat, Nat.mod_eq_of_lt (lt_of_lt_of_le h W.two_pow_le)]

@[simp] theorem toNat_sizeMax : W.sizeMax.toNat = 2 ^ W.bits - 1 := BitVec.toNat_allOnes

theorem le_sizeMax (n : W.SizeT) : n ≤ W.sizeMax := by
  rw [BitVec.le_def, toNat_sizeMax]
  have := n.isLt
  omega

variable {W}

/-- A count that passed the guard `n > SIZE_MAX / size` multiplies exactly. -/
theorem toNat_mul_of_guard {n size : W.SizeT} (hsize : 0#W.bits < size)
    (h : ¬W.sizeMax / size < n) : (n * size).toNat = n.toNat * size.toNat := by
  have hpos : 0 < size.toNat := by simpa [BitVec.lt_def] using hsize
  rw [BitVec.lt_def, BitVec.toNat_udiv, toNat_sizeMax, not_lt, Nat.le_div_iff_mul_le hpos] at h
  have := Nat.two_pow_pos W.bits
  exact BitVec.toNat_mul_of_lt (by omega)

/-- What is left of the range above a word. -/
theorem toNat_sizeMax_sub (n : W.SizeT) : (W.sizeMax - n).toNat = 2 ^ W.bits - 1 - n.toNat := by
  rw [BitVec.toNat_sub_of_le (W.le_sizeMax n), toNat_sizeMax]

/-- A word that passed the guard `n > SIZE_MAX - size` adds exactly. -/
theorem toNat_add_of_guard {n size : W.SizeT} (h : ¬W.sizeMax - size < n) :
    (n + size).toNat = n.toNat + size.toNat := by
  rw [BitVec.lt_def, toNat_sizeMax_sub] at h
  have := size.isLt
  exact BitVec.toNat_add_of_lt (by omega)

end SizeWidth
