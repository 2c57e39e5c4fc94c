import Mathlib.Data.Nat.Bitwise
import Mathlib.Data.Int.ModEq
import Mathlib.Tactic.NormNum

/-!
# Wrapping counters

A counter that only grows is stored in a machine word. `Width` says how: as an unbounded natural
number or in `w` bits. A program observes such counters through `wrap`, through equality of
wrapped values and through the sign of the modular difference (`signedCmp`).

* `signedCmp_wrap`: the sign of the modular difference of two wrapped counters is the order of
  the counters, as long as they differ by less than half the range.
* `notBehind_wrap_iff`: the one-sided test `a - b ≤ MAX / 2`.
* `wrap_inj_of_lt`: wrapped counters that are close are equal only if the counters are.
* `wrap_land_mask`: masking with a power of two sees through the wrapping.
-/

namespace WrapCounter

/-- How an ever-growing counter is represented. -/
inductive Width where
  /-- Unbounded natural numbers. -/
  | unbounded
  /-- A machine word of `w` bits. -/
  | bits (w : ℕ)
  deriving DecidableEq, Repr

/-- The stored value of a counter. -/
def Width.wrap : Width → ℕ → ℕ
  | .unbounded, n => n
  | .bits w, n => n % 2 ^ w

/-- The unsigned difference `a - b` in `w` bits. -/
def wordSub (w a b : ℕ) : ℕ := (a + (2 ^ w - b)) % 2 ^ w

/-- The sign of the difference `a - b` of two stored values: `eq` for zero, `lt` for a difference
above half of the largest value, which stands for a negative one, and `gt` otherwise. -/
def Width.signedCmp : Width → ℕ → ℕ → Ordering
  | .unbounded, a, b => compare a b
  | .bits w, a, b =>
    if wordSub w a b = 0 then .eq
    else if (2 ^ w - 1) / 2 < wordSub w a b then .lt
    else .gt

/-- The test `a - b ≤ MAX / 2` on stored values. -/
def Width.notBehind : Width → ℕ → ℕ → Bool
  | .unbounded, a, b => decide (b ≤ a)
  | .bits w, a, b => decide (wordSub w a b ≤ (2 ^ w - 1) / 2)

/-- Two counters are close when they differ by less than half the range of the word. -/
def Width.Close : Width → ℕ → ℕ → Prop
  | .unbounded, _, _ => True
  | .bits w, a, b => a < b + 2 ^ (w - 1) ∧ b < a + 2 ^ (w - 1)

/-- The modular difference of wrapped counters, lower counter second. -/
theorem wordSub_mod_of_le {w a b : ℕ} (hle : b ≤ a) (hlt : a < b + 2 ^ w) :
    wordSub w (a % 2 ^ w) (b % 2 ^ w) = a - b := by
  have hpos : 0 < 2 ^ w := Nat.two_pow_pos w
  have hb : b % 2 ^ w < 2 ^ w := Nat.mod_lt _ hpos
  have hsum : a % 2 ^ w + (2 ^ w - b % 2 ^ w) ≡ a - b [MOD 2 ^ w] := by
    have h : a % 2 ^ w + (2 ^ w - b % 2 ^ w) + b % 2 ^ w ≡ a - b + b % 2 ^ w [MOD 2 ^ w] := by
      calc a % 2 ^ w + (2 ^ w - b % 2 ^ w) + b % 2 ^ w
          = a % 2 ^ w + 2 ^ w := by omega
        _ ≡ a + 0 [MOD 2 ^ w] :=
            (Nat.mod_modEq a _).add (by simp [Nat.ModEq])
        _ = a - b + b := by omega
        _ ≡ a - b + b % 2 ^ w [MOD 2 ^ w] := (Nat.ModEq.refl _).add (Nat.mod_modEq b _).symm
    exact Nat.ModEq.add_right_cancel' _ h
  have hdiff : a - b < 2 ^ w := by omega
  rw [wordSub, hsum, Nat.mod_eq_of_lt hdiff]

/-- The modular difference of wrapped counters, lower counter first. -/
theorem wordSub_mod_of_lt {w a b : ℕ} (hlt : a < b) (hclose : b ≤ a + 2 ^ w) :
    wordSub w (a % 2 ^ w) (b % 2 ^ w) = (2 ^ w - (b - a)) % 2 ^ w := by
  have hpos : 0 < 2 ^ w := Nat.two_pow_pos w
  have hb : b % 2 ^ w < 2 ^ w := Nat.mod_lt _ hpos
  have h : a % 2 ^ w + (2 ^ w - b % 2 ^ w) + b % 2 ^ w ≡
      2 ^ w - (b - a) + b % 2 ^ w [MOD 2 ^ w] := by
    calc a % 2 ^ w + (2 ^ w - b % 2 ^ w) + b % 2 ^ w
        = a % 2 ^ w + 2 ^ w := by omega
      _ ≡ a + 2 ^ w [MOD 2 ^ w] := (Nat.mod_modEq a _).add (Nat.ModEq.refl _)
      _ = 2 ^ w - (b - a) + b := by omega
      _ ≡ 2 ^ w - (b - a) + b % 2 ^ w [MOD 2 ^ w] :=
          (Nat.ModEq.refl _).add (Nat.mod_modEq b _).symm
  exact Nat.ModEq.add_right_cancel' _ h

/-- Half of the largest word value is one below half the range. -/
theorem half_max {w : ℕ} (hw : 0 < w) : (2 ^ w - 1) / 2 = 2 ^ (w - 1) - 1 := by
  obtain ⟨k, rfl⟩ : ∃ k, w = k + 1 := ⟨w - 1, by omega⟩
  have hpos : 0 < 2 ^ k := Nat.two_pow_pos k
  simp only [Nat.add_sub_cancel, pow_succ]
  omega

/-- Doubling the half range gives the range. -/
theorem two_mul_half {w : ℕ} (hw : 0 < w) : 2 ^ w = 2 * 2 ^ (w - 1) := by
  obtain ⟨k, rfl⟩ : ∃ k, w = k + 1 := ⟨w - 1, by omega⟩
  simp only [Nat.add_sub_cancel, pow_succ]
  omega

/-- A word too narrow to hold two values has no close distinct counters. -/
theorem eq_of_close_zero {a b : ℕ} (h : Width.Close (.bits 0) a b) : a = b := by
  simp only [Width.Close] at h
  omega

/-- The sign of the modular difference of two close counters is their order. -/
theorem signedCmp_wrap {v : Width} {a b : ℕ} (h : v.Close a b) :
    v.signedCmp (v.wrap a) (v.wrap b) = compare a b := by
  cases v with
  | unbounded => rfl
  | bits w =>
    obtain rfl | hw := Nat.eq_zero_or_pos w
    · obtain rfl := eq_of_close_zero h
      simp [Width.signedCmp, Width.wrap, wordSub, Nat.mod_one]
    obtain ⟨hab, hba⟩ := h
    have hhalf := half_max hw
    have hrange := two_mul_half hw
    have hpos : 0 < 2 ^ (w - 1) := Nat.two_pow_pos _
    rcases Nat.lt_trichotomy a b with hlt | rfl | hgt
    · have hsub : wordSub w (a % 2 ^ w) (b % 2 ^ w) = 2 ^ w - (b - a) := by
        rw [wordSub_mod_of_lt hlt (by omega), Nat.mod_eq_of_lt (by omega)]
      have hne : ¬(2 ^ w - (b - a) = 0) := by omega
      have hbig : (2 ^ w - 1) / 2 < 2 ^ w - (b - a) := by omega
      simp [Width.signedCmp, Width.wrap, hsub, hne, hbig, Nat.compare_eq_lt.mpr hlt]
    · have hsub : wordSub w (a % 2 ^ w) (a % 2 ^ w) = 0 := by
        rw [wordSub_mod_of_le le_rfl (by omega), Nat.sub_self]
      simp [Width.signedCmp, Width.wrap, hsub]
    · have hsub : wordSub w (a % 2 ^ w) (b % 2 ^ w) = a - b := by
        rw [wordSub_mod_of_le hgt.le (by omega)]
      have hne : ¬(a - b = 0) := by omega
      have hsmall : ¬((2 ^ w - 1) / 2 < a - b) := by omega
      simp [Width.signedCmp, Width.wrap, hsub, hne, hsmall, Nat.compare_eq_gt.mpr hgt]

/-- The one-sided modular test decides the order of two close counters. -/
theorem notBehind_wrap_iff {v : Width} {a b : ℕ} (h : v.Close a b) :
    v.notBehind (v.wrap a) (v.wrap b) = true ↔ b ≤ a := by
  cases v with
  | unbounded => exact decide_eq_true_iff
  | bits w =>
    obtain rfl | hw := Nat.eq_zero_or_pos w
    · obtain rfl := eq_of_close_zero h
      simp [Width.notBehind, Width.wrap, wordSub, Nat.mod_one]
    obtain ⟨hab, hba⟩ := h
    have hhalf := half_max hw
    have hrange := two_mul_half hw
    have hpos : 0 < 2 ^ (w - 1) := Nat.two_pow_pos _
    rcases Nat.lt_or_ge a b with hlt | hge
    · have hsub : wordSub w (a % 2 ^ w) (b % 2 ^ w) = 2 ^ w - (b - a) := by
        rw [wordSub_mod_of_lt hlt (by omega), Nat.mod_eq_of_lt (by omega)]
      simp only [Width.notBehind, Width.wrap, hsub, decide_eq_true_eq]
      omega
    · have hsub : wordSub w (a % 2 ^ w) (b % 2 ^ w) = a - b := by
        rw [wordSub_mod_of_le hge (by omega)]
      simp only [Width.notBehind, Width.wrap, hsub, decide_eq_true_eq]
      omega

/-- The one-sided test never succeeds too early, however far the first counter is ahead. -/
theorem le_of_notBehind_wrap {v : Width} {a b : ℕ} (hclose : a < b → v.Close a b)
    (h : v.notBehind (v.wrap a) (v.wrap b) = true) : b ≤ a := by
  by_contra hlt
  exact hlt ((notBehind_wrap_iff (hclose (not_le.mp hlt))).mp h)

/-- Wrapped counters that differ by less than the range are equal only if the counters are. -/
theorem wrap_inj_of_close {v : Width} {a b : ℕ} (h : v.Close a b) :
    v.wrap a = v.wrap b ↔ a = b := by
  cases v with
  | unbounded => rfl
  | bits w =>
    constructor
    · intro heq
      have hcmp := signedCmp_wrap h
      rw [heq] at hcmp
      have hself : (Width.bits w).signedCmp ((Width.bits w).wrap b) ((Width.bits w).wrap b) =
          compare b b := signedCmp_wrap (by simp [Width.Close])
      rw [hself] at hcmp
      exact (Nat.compare_eq_eq.mp (by simpa using hcmp.symm))
    · rintro rfl
      rfl

/-- The capacity `2 ^ k` fits a position space: no bound for unbounded positions, and less than
half the range for words. -/
def Width.Fits : Width → ℕ → Prop
  | .unbounded, _ => True
  | .bits w, n => n ≤ (2 ^ w - 1) / 2

/-- Counters that differ by at most a value that fits are close. -/
theorem close_of_fits {v : Width} {n a b : ℕ} (hn : v.Fits n) (hab : a < b) (hba : b ≤ a + n) :
    v.Close a b := by
  cases v with
  | unbounded => trivial
  | bits w =>
    simp only [Width.Fits] at hn
    obtain rfl | hw := Nat.eq_zero_or_pos w
    · simp only [pow_zero, Nat.sub_self, Nat.zero_div, nonpos_iff_eq_zero] at hn
      omega
    have hhalf := half_max hw
    have hpos : 0 < 2 ^ (w - 1) := Nat.two_pow_pos _
    exact ⟨by omega, by omega⟩

/-- Masking a wrapped counter with `2 ^ k - 1` is reduction modulo `2 ^ k`. -/
theorem wrap_land_mask {v : Width} {k : ℕ} (hk : v.Fits (2 ^ k)) (n : ℕ) :
    v.wrap n &&& (2 ^ k - 1) = n % 2 ^ k := by
  cases v with
  | unbounded => simp [Width.wrap, Nat.and_two_pow_sub_one_eq_mod]
  | bits w =>
    have hkw : k ≤ w := by
      by_contra hlt
      have hpow : 2 ^ w < 2 ^ k := Nat.pow_lt_pow_right (by norm_num) (by omega)
      have hpos : 0 < 2 ^ w := Nat.two_pow_pos w
      simp only [Width.Fits] at hk
      omega
    rw [Width.wrap, Nat.and_two_pow_sub_one_eq_mod,
      Nat.mod_mod_of_dvd _ (Nat.pow_dvd_pow 2 hkw)]

end WrapCounter
