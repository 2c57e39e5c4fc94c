import Mathlib.Tactic.IntervalCases
import Mathlib.Tactic.NormNum

/-!
# The ticket of the default binding

`g_ticket` packs a generation and a phase into one `uint64_t`, so that one compare-and-swap changes
both. The lemmas say what the packing functions of `logger_global.c` do to each half.
-/

namespace CLogger

/-- `enum global_phase`. -/
inductive GlobalPhase where
  | idle | running | stopping | broken
  deriving DecidableEq, Repr

/-- `struct global_ticket`: generation and phase in one atomic word. -/
abbrev GlobalTicket := BitVec 64

/-- The numeric value of a phase. -/
def GlobalPhase.code : GlobalPhase → BitVec 64
  | .idle => 0#64 | .running => 1#64 | .stopping => 2#64 | .broken => 3#64

/-- `PHASE_MASK`; the phase takes `PHASE_BITS = 3` bits. -/
def phaseMask : BitVec 64 := 7#64

/-- `phase_of`. -/
def phaseOf (ticket : GlobalTicket) : BitVec 64 := ticket &&& phaseMask

/-- `generation_of`. -/
def generationOf (ticket : GlobalTicket) : BitVec 64 := ticket >>> 3

/-- `with_phase`. -/
def withPhase (ticket : GlobalTicket) (phase : BitVec 64) : GlobalTicket :=
  (ticket &&& ~~~phaseMask) ||| phase

/-- `UINT64_MAX >> PHASE_BITS`, the last generation. -/
def generationMax : BitVec 64 := BitVec.allOnes 64 >>> 3

/-- The ticket published with the next generation. -/
def nextTicket (ticket : GlobalTicket) (phase : GlobalPhase) : GlobalTicket :=
  ((generationOf ticket + 1#64) <<< 3) ||| phase.code

theorem phaseOf_toNat (t : GlobalTicket) : (phaseOf t).toNat = t.toNat % 8 := by
  rw [phaseOf, phaseMask, BitVec.toNat_and]
  exact Nat.and_two_pow_sub_one_eq_mod t.toNat 3

theorem generationOf_toNat (t : GlobalTicket) : (generationOf t).toNat = t.toNat / 8 := by
  rw [generationOf, BitVec.toNat_ushiftRight, Nat.shiftRight_eq_div_pow]

/-- A ticket is determined by its phase and its generation. -/
theorem ticket_ext {t t' : GlobalTicket} (hphase : phaseOf t = phaseOf t')
    (hgen : generationOf t = generationOf t') : t = t' := by
  have h1 := congrArg BitVec.toNat hphase
  have h2 := congrArg BitVec.toNat hgen
  rw [phaseOf_toNat, phaseOf_toNat] at h1
  rw [generationOf_toNat, generationOf_toNat] at h2
  apply BitVec.eq_of_toNat_eq
  omega

theorem GlobalPhase.code_toNat_lt (p : GlobalPhase) : p.code.toNat < 8 := by
  cases p <;> decide

theorem GlobalPhase.code_inj {p q : GlobalPhase} : p.code = q.code ↔ p = q := by
  cases p <;> cases q <;> decide

/-- Clearing the phase bits of a ticket rounds it down to a multiple of 8. -/
theorem and_not_phaseMask_toNat (t : GlobalTicket) :
    (t &&& ~~~phaseMask).toNat = t.toNat / 8 * 8 := by
  have hshift : t &&& ~~~phaseMask = (t >>> 3) <<< 3 := by
    apply BitVec.eq_of_getLsbD_eq
    intro i hi
    rw [BitVec.getLsbD_and, BitVec.getLsbD_not, BitVec.getLsbD_shiftLeft,
      BitVec.getLsbD_ushiftRight]
    by_cases hlow : i < 3
    · have hset : phaseMask.getLsbD i = true := by interval_cases i <;> rfl
      simp [hlow, hset]
    · have hclear : phaseMask.getLsbD i = false := by
        rw [phaseMask, BitVec.getLsbD_ofNat]
        simp only [Bool.and_eq_false_imp, decide_eq_true_eq]
        intro _
        exact Nat.testBit_lt_two_pow (lt_of_lt_of_le (by norm_num : 7 < 2 ^ 3)
          (Nat.pow_le_pow_right (by norm_num) (by omega)))
      rw [hclear, show 3 + (i - 3) = i by omega]
      simp [hlow, hi]
  rw [hshift, BitVec.toNat_shiftLeft, BitVec.toNat_ushiftRight, Nat.shiftRight_eq_div_pow,
    Nat.shiftLeft_eq, Nat.mod_eq_of_lt (by have := t.isLt; omega)]

theorem withPhase_toNat (t : GlobalTicket) {p : BitVec 64} (hp : p.toNat < 8) :
    (withPhase t p).toNat = t.toNat / 8 * 8 + p.toNat := by
  rw [withPhase, BitVec.toNat_or, and_not_phaseMask_toNat, Nat.mul_comm,
    ← Nat.two_pow_add_eq_or_of_lt (i := 3) hp]

@[simp]
theorem phaseOf_withPhase (t : GlobalTicket) (p : GlobalPhase) :
    phaseOf (withPhase t p.code) = p.code := by
  have hp := p.code_toNat_lt
  apply BitVec.eq_of_toNat_eq
  rw [phaseOf_toNat, withPhase_toNat t hp]
  omega

@[simp]
theorem generationOf_withPhase (t : GlobalTicket) (p : GlobalPhase) :
    generationOf (withPhase t p.code) = generationOf t := by
  have hp := p.code_toNat_lt
  apply BitVec.eq_of_toNat_eq
  rw [generationOf_toNat, generationOf_toNat, withPhase_toNat t hp]
  omega

/-- Putting the old phase back restores the ticket. -/
@[simp]
theorem withPhase_phaseOf (t : GlobalTicket) (p : GlobalPhase) :
    withPhase (withPhase t p.code) (phaseOf t) = t := by
  have hp := p.code_toNat_lt
  have hold : (phaseOf t).toNat < 8 := by
    rw [phaseOf_toNat]
    omega
  apply BitVec.eq_of_toNat_eq
  rw [withPhase_toNat _ hold, withPhase_toNat t hp, phaseOf_toNat]
  omega

/-- Below the last generation the next ticket has the next generation. -/
theorem nextTicket_toNat {t : GlobalTicket} (p : GlobalPhase)
    (hmax : generationOf t ≠ generationMax) :
    (nextTicket t p).toNat = (t.toNat / 8 + 1) * 8 + p.code.toNat := by
  have hp := p.code_toNat_lt
  have hlt := t.isLt
  have hne : t.toNat / 8 ≠ 2 ^ 61 - 1 := by
    intro h
    apply hmax
    apply BitVec.eq_of_toNat_eq
    rw [generationOf_toNat, h]
    rfl
  have hsucc : (generationOf t + 1#64).toNat = t.toNat / 8 + 1 := by
    rw [BitVec.toNat_add, generationOf_toNat]
    exact Nat.mod_eq_of_lt (by simp; omega)
  rw [nextTicket, BitVec.toNat_or, BitVec.toNat_shiftLeft, hsucc, Nat.shiftLeft_eq,
    Nat.mod_eq_of_lt (by omega), Nat.mul_comm, ← Nat.two_pow_add_eq_or_of_lt (i := 3) hp]

theorem generationOf_nextTicket {t : GlobalTicket} (p : GlobalPhase)
    (hmax : generationOf t ≠ generationMax) :
    (generationOf (nextTicket t p)).toNat = (generationOf t).toNat + 1 := by
  have hp := p.code_toNat_lt
  rw [generationOf_toNat, generationOf_toNat, nextTicket_toNat p hmax]
  omega

theorem phaseOf_nextTicket {t : GlobalTicket} (p : GlobalPhase)
    (hmax : generationOf t ≠ generationMax) : phaseOf (nextTicket t p) = p.code := by
  have hp := p.code_toNat_lt
  apply BitVec.eq_of_toNat_eq
  rw [phaseOf_toNat, nextTicket_toNat p hmax]
  omega

end CLogger
