import Mathlib.Algebra.BigOperators.Intervals
import Mathlib.Data.Nat.Count
import Mathlib.Logic.Function.Basic
import Mathlib.Tactic.Ring

/-!
# Bitmaps stored in words

An array of `w`-bit words seen as one set of bit numbers: bit `b` is bit `b % w` of word `b / w`.

* `bitAt_setBit` and `bitAt_clearBit`: what setting or clearing one bit of one word does.
* `sum_cpop_eq_count`: the population counts of the words add up to the number of bits set.
* `drain` and `drainWords`: the loop that takes the lowest bit of a word until none is left, and the
  same over an array; `mem_drainWords` and `drainWords_sorted` say that it meets every bit once.
-/

namespace BitWords

variable {w : ℕ}

/-- Bit `b` of a bitmap. -/
def bitAt (f : ℕ → BitVec w) (b : ℕ) : Bool := (f (b / w)).getLsbD (b % w)

/-- Set bit `bit` of word `word`, whose value is `f word`. -/
def setBit (f : ℕ → BitVec w) (word bit : ℕ) : ℕ → BitVec w :=
  Function.update f word (f word ||| (1#w <<< bit))

/-- Clear bit `b`. -/
def clearBit (f : ℕ → BitVec w) (b : ℕ) : ℕ → BitVec w :=
  Function.update f (b / w) (f (b / w) &&& ~~~(1#w <<< (b % w)))

theorem getLsbD_one_shiftLeft {bit i : ℕ} (hi : i < w) :
    (1#w <<< bit).getLsbD i = decide (i = bit) := by
  have hpos : 0 < w := by omega
  rw [BitVec.getLsbD_shiftLeft, BitVec.getLsbD_one]
  by_cases h : i = bit
  · simp [h, hpos, h ▸ hi]
  · by_cases hlt : i < bit
    · simp [h, hlt]
    · simp [h, hi, hpos, show ¬(i - bit = 0) by omega]

/-- Two bit numbers with the same word and the same place in it are equal. -/
theorem eq_of_div_mod {a b : ℕ} (hdiv : a / w = b / w) (hmod : a % w = b % w) : a = b := by
  rw [← Nat.div_add_mod a w, ← Nat.div_add_mod b w, hdiv, hmod]

theorem div_mul_add {word bit : ℕ} (hbit : bit < w) : (word * w + bit) / w = word := by
  rw [Nat.mul_comm, Nat.mul_add_div (by omega), Nat.div_eq_of_lt hbit, Nat.add_zero]

theorem mod_mul_add {word bit : ℕ} (hbit : bit < w) : (word * w + bit) % w = bit := by
  rw [Nat.mul_comm, Nat.mul_add_mod, Nat.mod_eq_of_lt hbit]

/-- Setting a bit adds that bit and nothing else. -/
theorem bitAt_setBit {f : ℕ → BitVec w} {word bit : ℕ} (hbit : bit < w) (b : ℕ) :
    bitAt (setBit f word bit) b = true ↔ b = word * w + bit ∨ bitAt f b = true := by
  have hmod : b % w < w := Nat.mod_lt _ (by omega)
  unfold bitAt setBit
  by_cases hword : b / w = word
  · subst hword
    rw [Function.update_self, BitVec.getLsbD_or, getLsbD_one_shiftLeft hmod, Bool.or_eq_true,
      decide_eq_true_eq, or_comm]
    refine or_congr_left ?_
    constructor
    · rintro rfl
      rw [Nat.mul_comm, Nat.div_add_mod]
    · intro h
      rw [h, mod_mul_add hbit]
  · rw [Function.update_of_ne hword]
    have hne : b ≠ word * w + bit := by
      rintro rfl
      exact hword (div_mul_add hbit)
    simp [hne]

/-- Clearing a bit removes that bit and nothing else. -/
theorem bitAt_clearBit (hw : 0 < w) (f : ℕ → BitVec w) (c b : ℕ) :
    bitAt (clearBit f c) b = true ↔ b ≠ c ∧ bitAt f b = true := by
  have hmod : b % w < w := Nat.mod_lt _ hw
  unfold bitAt clearBit
  by_cases hword : b / w = c / w
  · rw [hword, Function.update_self, BitVec.getLsbD_and, BitVec.getLsbD_not,
      getLsbD_one_shiftLeft hmod]
    have hiff : b = c ↔ b % w = c % w := ⟨fun h => h ▸ rfl, eq_of_div_mod hword⟩
    simp [hmod, hiff, and_comm]
  · rw [Function.update_of_ne hword]
    have hne : b ≠ c := by
      rintro rfl
      exact hword rfl
    simp [hne]

/-- Clearing a bit that was clear before it was set restores the bitmap. -/
theorem clearBit_setBit (hw : 0 < w) {f : ℕ → BitVec w} {b : ℕ} (hb : bitAt f b = false) :
    clearBit (setBit f (b / w) (b % w)) b = f := by
  have hself : b / w * w + b % w = b := by rw [Nat.mul_comm, Nat.div_add_mod]
  have hbits : ∀ b', bitAt (clearBit (setBit f (b / w) (b % w)) b) b' = bitAt f b' := by
    intro b'
    rw [Bool.eq_iff_iff, bitAt_clearBit hw, bitAt_setBit (Nat.mod_lt _ hw), hself]
    constructor
    · rintro ⟨hne, heq | hb'⟩
      · exact absurd heq hne
      · exact hb'
    · intro hb'
      refine ⟨?_, .inr hb'⟩
      rintro rfl
      rw [hb] at hb'
      cases hb'
  funext word
  refine BitVec.eq_of_getLsbD_eq fun i hi => ?_
  have h := hbits (word * w + i)
  rwa [bitAt, bitAt, div_mul_add hi, mod_mul_add hi] at h

/-- The population count of a word counts its bits. -/
theorem toNat_cpop_eq_count (x : BitVec w) :
    x.cpop.toNat = Nat.count (fun i => x.getLsbD i = true) w := by
  have hrec : ∀ n acc, x.cpopNatRec n acc = acc + Nat.count (fun i => x.getLsbD i = true) n := by
    intro n
    induction n with
    | zero => intro acc; simp [BitVec.cpopNatRec]
    | succ n ih =>
      intro acc
      rw [BitVec.cpopNatRec, ih, Nat.count_succ]
      cases x.getLsbD n <;> simp
      omega
  rw [BitVec.toNat_cpop, hrec, Nat.zero_add]

/-- The population counts of the first `n` words add up to the number of bits set in them. -/
theorem sum_cpop_eq_count (f : ℕ → BitVec w) (n : ℕ) :
    ∑ k ∈ Finset.range n, (f k).cpop.toNat = Nat.count (fun b => bitAt f b = true) (n * w) := by
  induction n with
  | zero => simp
  | succ n ih =>
    rw [Finset.sum_range_succ, ih, Nat.succ_mul, Nat.count_add, toNat_cpop_eq_count]
    congr 1
    -- The next `w` bits of the bitmap are the bits of word `n`.
    rw [Nat.count_eq_card_filter_range, Nat.count_eq_card_filter_range]
    congr 1
    refine Finset.filter_congr fun i hi => ?_
    have hi' : i < w := Finset.mem_range.mp hi
    rw [bitAt, div_mul_add hi', mod_mul_add hi']

/-! ## Enumerating the bits -/

/-- The number of trailing zeros of a word that is not zero is the number of a bit. -/
theorem ctz_toNat_lt {x : BitVec w} (hx : x ≠ 0#w) : x.ctz.toNat < w := by
  have hlt := BitVec.ctz_lt_iff_ne_zero.mpr hx
  rw [BitVec.lt_def] at hlt
  have hw : w < 2 ^ w := Nat.lt_two_pow_self
  simpa [Nat.mod_eq_of_lt hw] using hlt

/-- `x &&& (x - 1)` is `x` without its lowest bit. -/
theorem getLsbD_and_sub_one {x : BitVec w} (hx : x ≠ 0#w) (i : ℕ) :
    (x &&& (x - 1#w)).getLsbD i = (x.getLsbD i && decide (i ≠ x.ctz.toNat)) := by
  obtain ⟨t, ht⟩ : ∃ t, t = x.ctz.toNat := ⟨_, rfl⟩
  rw [← ht]
  have htw : t < w := ht ▸ ctz_toNat_lt hx
  have hbit : x.toNat.testBit t = true := by
    rw [ht]
    exact BitVec.getLsbD_true_ctz_of_ne_zero hx
  -- below the lowest bit there is nothing, so the word ends in that power of two
  have hlow : ∀ j < t, x.toNat.testBit j = false := fun j hj =>
    BitVec.getLsbD_false_of_lt_ctz (ht ▸ hj)
  have hmod : x.toNat % 2 ^ (t + 1) = 2 ^ t := by
    apply Nat.eq_of_testBit_eq
    intro j
    rw [Nat.testBit_mod_two_pow, Nat.testBit_two_pow]
    rcases Nat.lt_trichotomy j t with hj | rfl | hj
    · simp [hlow j hj, show t ≠ j by omega]
    · simp [hbit]
    · simp [show ¬ j < t + 1 by omega, show t ≠ j by omega]
  have hsplit : x.toNat = 2 ^ (t + 1) * (x.toNat / 2 ^ (t + 1)) + 2 ^ t := by
    have := Nat.div_add_mod x.toNat (2 ^ (t + 1))
    rw [hmod] at this
    exact this.symm
  have hpow : 0 < 2 ^ t := Nat.two_pow_pos t
  have hsucc : 2 ^ t < 2 ^ (t + 1) := Nat.pow_lt_pow_right (by decide) (Nat.lt_succ_self t)
  have hw : 1 < 2 ^ w := Nat.one_lt_two_pow (by omega)
  -- taking one away flips the bits up to the lowest one
  have hsub : (x - 1#w).toNat = 2 ^ (t + 1) * (x.toNat / 2 ^ (t + 1)) + (2 ^ t - 1) := by
    rw [BitVec.toNat_sub_of_le, BitVec.toNat_ofNat, Nat.mod_eq_of_lt hw]
    · omega
    · rw [BitVec.le_def, BitVec.toNat_ofNat, Nat.mod_eq_of_lt hw]
      omega
  -- and leaves the ones above it
  have hpred : (x - 1#w).getLsbD i = if i < t + 1 then decide (i < t) else x.getLsbD i := by
    rw [← BitVec.testBit_toNat, ← BitVec.testBit_toNat, hsub,
      Nat.testBit_two_pow_mul_add _ (by omega), Nat.testBit_two_pow_sub_one]
    by_cases hi : i < t + 1
    · rw [if_pos hi, if_pos hi]
    · rw [if_neg hi, if_neg hi, hsplit, Nat.testBit_two_pow_mul_add _ hsucc, if_neg hi, ← hsplit]
  rw [BitVec.getLsbD_and, hpred]
  rcases Nat.lt_trichotomy i t with hi | rfl | hi
  · have hzero : x.getLsbD i = false := hlow i hi
    simp [hzero]
  · simp
  · simp [show ¬ i < t + 1 by omega, show i ≠ t by omega]

/-- The bits of a word in the order in which clearing the lowest one over and over meets them, at
most `fuel` of them. -/
def drain : ℕ → BitVec w → List ℕ
  | 0, _ => []
  | fuel + 1, x => if x = 0#w then [] else x.ctz.toNat :: drain fuel (x &&& (x - 1#w))

/-- As many turns as there are places left see every bit once, in ascending order. -/
theorem drain_spec (fuel : ℕ) (x : BitVec w) (hx : ∀ i, i + fuel < w → x.getLsbD i = false) :
    (drain fuel x).Pairwise (· < ·) ∧ ∀ i, i ∈ drain fuel x ↔ x.getLsbD i = true := by
  induction fuel generalizing x with
  | zero =>
    refine ⟨List.Pairwise.nil, fun i => ?_⟩
    have hi : x.getLsbD i = false := by
      by_cases hi : i < w
      · exact hx i hi
      · exact BitVec.getLsbD_of_ge x i (by omega)
    simp [drain, hi]
  | succ fuel ih =>
    rw [drain]
    by_cases hzero : x = 0#w
    · simp [hzero]
    rw [if_neg hzero]
    have htop : x.getLsbD x.ctz.toNat = true := BitVec.getLsbD_true_ctz_of_ne_zero hzero
    have hrest := getLsbD_and_sub_one hzero
    -- The lowest bit is not below the places already passed, and the others lie above it.
    have hge : w ≤ x.ctz.toNat + (fuel + 1) := by
      by_contra hlt
      rw [hx _ (by omega)] at htop
      exact Bool.false_ne_true htop
    have habove : ∀ i, (x &&& (x - 1#w)).getLsbD i = true → x.ctz.toNat < i := by
      intro i hi
      rw [hrest, Bool.and_eq_true, decide_eq_true_eq] at hi
      by_contra hle
      rcases Nat.lt_or_eq_of_le (Nat.le_of_not_lt hle) with hlt | heq
      · rw [BitVec.getLsbD_false_of_lt_ctz hlt] at hi
        exact Bool.false_ne_true hi.1
      · exact hi.2 heq
    obtain ⟨hsorted, hmem⟩ := ih (x &&& (x - 1#w)) fun i hi => by
      by_contra hne
      have := habove i (by simpa using hne)
      omega
    refine ⟨List.pairwise_cons.mpr ⟨fun i hi => habove i ((hmem i).mp hi), hsorted⟩, fun i => ?_⟩
    rw [List.mem_cons, hmem, hrest, Bool.and_eq_true, decide_eq_true_eq]
    by_cases hi : i = x.ctz.toNat
    · simp [hi, htop]
    · simp [hi]

/-- The bits of the first `n` words, word by word. -/
def drainWords (f : ℕ → BitVec w) (n : ℕ) : List ℕ :=
  (List.range n).flatMap fun word => (drain w (f word)).map (word * w + ·)

theorem drainWords_succ (f : ℕ → BitVec w) (n : ℕ) :
    drainWords f (n + 1) = drainWords f n ++ (drain w (f n)).map (n * w + ·) := by
  rw [drainWords, List.range_succ, List.flatMap_append, List.flatMap_singleton, drainWords]

theorem drain_word (x : BitVec w) :
    (drain w x).Pairwise (· < ·) ∧ ∀ i, i ∈ drain w x ↔ x.getLsbD i = true :=
  drain_spec w x fun i hi => absurd hi (by omega)

/-- The bits found in the first words are the bits set there. -/
theorem mem_drainWords {f : ℕ → BitVec w} {n b : ℕ} :
    b ∈ drainWords f n ↔ b / w < n ∧ bitAt f b = true := by
  simp only [drainWords, List.mem_flatMap, List.mem_range, List.mem_map, (drain_word _).2]
  constructor
  · rintro ⟨word, hword, bit, hbit, rfl⟩
    have hlt : bit < w := BitVec.lt_of_getLsbD hbit
    rw [bitAt, div_mul_add hlt, mod_mul_add hlt]
    exact ⟨hword, hbit⟩
  · rintro ⟨hword, hbit⟩
    exact ⟨b / w, hword, b % w, hbit, by rw [Nat.mul_comm, Nat.div_add_mod]⟩

/-- No bit is found twice. -/
theorem drainWords_sorted (f : ℕ → BitVec w) (n : ℕ) : (drainWords f n).Pairwise (· < ·) := by
  induction n with
  | zero => exact List.Pairwise.nil
  | succ n ih =>
    rw [drainWords_succ, List.pairwise_append]
    refine ⟨ih, ?_, ?_⟩
    · rw [List.pairwise_map]
      exact (drain_word (f n)).1.imp fun h => Nat.add_lt_add_left h _
    · intro a ha b hb
      obtain ⟨bit, -, rfl⟩ := List.mem_map.mp hb
      have hword : a / w < n := (mem_drainWords.mp ha).1
      have hw : 0 < w := by
        by_contra hw
        obtain rfl : w = 0 := by omega
        have hbit := (mem_drainWords.mp ha).2
        rw [bitAt, BitVec.getLsbD_of_ge _ _ (Nat.zero_le _)] at hbit
        exact Bool.false_ne_true hbit
      calc a < n * w := (Nat.div_lt_iff_lt_mul hw).mp hword
        _ ≤ n * w + bit := Nat.le_add_right _ _

end BitWords
