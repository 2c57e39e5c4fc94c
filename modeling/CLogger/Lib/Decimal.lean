import Mathlib.Data.UInt
import Mathlib.Tactic.Common
import Mathlib.Tactic.Ring

/-!
# Fixed-width decimal fields

Zero-padded decimal numbers as byte strings, and the lexicographic order of strings that are
sequences of such fields: it is the lexicographic order of the numbers.
-/

namespace Decimal

section Lex

variable {α : Type} [LT α] {a b x y : List α}

/-- The first of two fields of equal length decides. -/
theorem append_lt_append_of_lt (hlen : a.length = b.length) (h : a < b) : a ++ x < b ++ y := by
  induction a generalizing b with
  | nil =>
    rw [List.length_nil] at hlen
    rw [List.length_eq_zero_iff.mp hlen.symm] at h
    exact absurd h (List.not_lt_nil _)
  | cons c a ih =>
    cases b with
    | nil => exact absurd h (List.not_lt_nil _)
    | cons d b =>
      rw [List.cons_append, List.cons_append, List.cons_lt_cons_iff]
      rcases List.cons_lt_cons_iff.mp h with hcd | ⟨hcd, hab⟩
      · exact .inl hcd
      · exact .inr ⟨hcd, ih (by simpa using hlen) hab⟩

end Lex

/-- The digit `d` in ASCII. -/
def digit (d : ℕ) : UInt8 := UInt8.ofNat (48 + d)

/-- The last `w` decimal digits of `n`, zero padded. -/
def field : ℕ → ℕ → List UInt8
  | 0, _ => []
  | w + 1, n => field w (n / 10) ++ [digit (n % 10)]

/-- `n` in decimal with at least `w` digits, zero padded, as `%0wd` prints it. -/
def atLeast (w n : ℕ) : List UInt8 := field (max w (Nat.toDigits 10 n).length) n

@[simp]
theorem length_field (w n : ℕ) : (field w n).length = w := by
  induction w generalizing n with
  | zero => rfl
  | succ w ih => rw [field, List.length_append, ih, List.length_singleton]

@[simp]
theorem length_atLeast (w n : ℕ) :
    (atLeast w n).length = max w (Nat.toDigits 10 n).length := length_field _ _

theorem atLeast_eq_field {w n : ℕ} (hw : 0 < w) (h : n < 10 ^ w) : atLeast w n = field w n := by
  have hlen : (Nat.toDigits 10 n).length ≤ w :=
    (Nat.length_toDigits_le_iff (by decide) hw).mpr h
  rw [atLeast, max_eq_left hlen]

theorem atLeast_eq_field_of_length {w n k : ℕ} (h : (atLeast w n).length = k) :
    atLeast w n = field k n := by
  rw [length_atLeast] at h
  rw [atLeast, h]

theorem digit_lt {c d : ℕ} (h : c < d) (hd : d < 10) : digit c < digit d := by
  rw [UInt8.lt_iff_toNat_lt, digit, digit, UInt8.toNat_ofNat', UInt8.toNat_ofNat']
  omega

/-- A field is made of digits. -/
theorem digit_of_mem_field {w n : ℕ} {c : UInt8} (h : c ∈ field w n) : 48 ≤ c ∧ c ≤ 57 := by
  induction w generalizing n with
  | zero => exact absurd h List.not_mem_nil
  | succ w ih =>
    rw [field, List.mem_append, List.mem_singleton] at h
    rcases h with h | rfl
    · exact ih h
    · have hlt : n % 10 < 10 := Nat.mod_lt n (by decide)
      rw [UInt8.le_iff_toNat_le, UInt8.le_iff_toNat_le, digit, UInt8.toNat_ofNat']
      constructor
      · change 48 ≤ _
        omega
      · change _ ≤ 57
        omega

/-- The number that a string of digits writes. -/
def value (s : List UInt8) : ℕ := s.foldl (fun n c => 10 * n + (c.toNat - 48)) 0

@[simp]
theorem value_nil : value [] = 0 := rfl

theorem value_append_singleton (s : List UInt8) (c : UInt8) :
    value (s ++ [c]) = 10 * value s + (c.toNat - 48) := by
  rw [value, List.foldl_append]
  rfl

theorem toNat_digit {d : ℕ} (h : d < 10) : (digit d).toNat = 48 + d := by
  rw [digit, UInt8.toNat_ofNat']
  omega

/-- A field writes its number. -/
theorem value_field {w n : ℕ} (h : n < 10 ^ w) : value (field w n) = n := by
  induction w generalizing n with
  | zero =>
    rw [pow_zero] at h
    rw [field, value_nil]
    omega
  | succ w ih =>
    rw [pow_succ] at h
    rw [field, value_append_singleton, ih (by omega), toNat_digit (by omega)]
    omega

/-- Digits are the field of the number they write. -/
theorem field_value {s : List UInt8} (h : ∀ c ∈ s, 48 ≤ c ∧ c ≤ 57) :
    field s.length (value s) = s := by
  induction s using List.reverseRecOn with
  | nil => rfl
  | append_singleton s c ih =>
    obtain ⟨hlow, hhigh⟩ := h c (by simp)
    rw [UInt8.le_iff_toNat_le] at hlow hhigh
    have hlow : 48 ≤ c.toNat := hlow
    have hhigh : c.toNat ≤ 57 := hhigh
    have hdiv : (10 * value s + (c.toNat - 48)) / 10 = value s := by omega
    have hmod : (10 * value s + (c.toNat - 48)) % 10 = c.toNat - 48 := by omega
    have hdigit : digit (c.toNat - 48) = c := by
      rw [← UInt8.toNat_inj, toNat_digit (by omega)]
      omega
    rw [value_append_singleton, List.length_append, List.length_singleton, field, hdiv, hmod,
      hdigit, ih fun c hc => h c (List.mem_append_left _ hc)]

/-- Fields of one width are ordered as their numbers. -/
theorem field_lt_field {w n m : ℕ} (hm : m < 10 ^ w) (h : n < m) : field w n < field w m := by
  induction w generalizing n m with
  | zero =>
    rw [pow_zero] at hm
    omega
  | succ w ih =>
    rw [field, field]
    rcases Nat.lt_or_ge (n / 10) (m / 10) with hlt | hge
    · apply append_lt_append_of_lt
      · rw [length_field, length_field]
      · apply ih _ hlt
        rw [pow_succ] at hm
        omega
    · have heq : n / 10 = m / 10 := by omega
      rw [heq]
      apply List.append_left_lt
      rw [List.cons_lt_cons_iff]
      exact .inl (digit_lt (by omega) (by omega))

/-- A field followed by more fields: the first number that differs decides. -/
theorem field_append_lt {w n m : ℕ} {x y : List UInt8} (hm : m < 10 ^ w)
    (h : n < m ∨ n = m ∧ x < y) : field w n ++ x < field w m ++ y := by
  rcases h with hlt | ⟨rfl, hxy⟩
  · apply append_lt_append_of_lt
    · rw [length_field, length_field]
    · exact field_lt_field hm hlt
  · exact List.append_left_lt hxy

end Decimal
