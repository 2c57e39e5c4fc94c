import Mathlib.Logic.Equiv.Basic
import Mathlib.Logic.ExistsUnique
import Mathlib.Tactic.Common

/-!
# Exclusive ownership

A pool of items, a predicate that says which of them are in use, and a relation that says who owns
what. `Exclusive used owns` says that the items in use are exactly the owned ones and that no item
has two owners. The lemmas are the moves a pool can make:

* `Exclusive.acquire`: an owner takes an unused item.
* `Exclusive.release`: an item is returned.
* `Exclusive.transfer`: an owner hands everything it owns to another.
* `Exclusive.swap`: two owners exchange what they own.
-/

namespace Ownership

variable {α β : Type*}

/-- The items in use are exactly the owned ones, and no item has two owners. -/
structure Exclusive (used : β → Prop) (owns : α → β → Prop) : Prop where
  used_iff : ∀ b, used b ↔ ∃ o, owns o b
  unique : ∀ b o o', owns o b → owns o' b → o = o'

variable {used used' : β → Prop} {owns owns' : α → β → Prop}

/-- An item is in use exactly when it has exactly one owner. -/
theorem Exclusive.used_iff_existsUnique (h : Exclusive used owns) (b : β) :
    used b ↔ ∃! o, owns o b := by
  rw [h.used_iff]
  constructor
  · rintro ⟨o, ho⟩
    exact ⟨o, ho, fun o' ho' => h.unique b o' o ho' ho⟩
  · exact ExistsUnique.exists

/-- Nothing changes. -/
theorem Exclusive.congr (h : Exclusive used owns) (hused : ∀ b, used' b ↔ used b)
    (howns : ∀ o b, owns' o b ↔ owns o b) : Exclusive used' owns' where
  used_iff b := by simp only [hused, howns, h.used_iff]
  unique b o o' ho ho' := h.unique b o o' ((howns o b).mp ho) ((howns o' b).mp ho')

/-- Owner `o₀` takes the unused item `b₀`. -/
theorem Exclusive.acquire (h : Exclusive used owns) (o₀ : α) (b₀ : β) (hfree : ¬used b₀)
    (hused : ∀ b, used' b ↔ b = b₀ ∨ used b)
    (howns : ∀ o b, owns' o b ↔ (o = o₀ ∧ b = b₀) ∨ owns o b) : Exclusive used' owns' where
  used_iff b := by
    simp only [hused, howns, h.used_iff]
    constructor
    · rintro (rfl | ⟨o, ho⟩)
      · exact ⟨o₀, .inl ⟨rfl, rfl⟩⟩
      · exact ⟨o, .inr ho⟩
    · rintro ⟨o, ⟨-, rfl⟩ | ho⟩
      · exact .inl rfl
      · exact .inr ⟨o, ho⟩
  unique b o o' ho ho' := by
    have hnone : ∀ o, ¬owns o b₀ := fun o ho => hfree ((h.used_iff b₀).mpr ⟨o, ho⟩)
    rcases (howns o b).mp ho with ⟨rfl, rfl⟩ | ho
    · rcases (howns o' b).mp ho' with ⟨rfl, -⟩ | ho'
      · rfl
      · exact absurd ho' (hnone o')
    · rcases (howns o' b).mp ho' with ⟨rfl, rfl⟩ | ho'
      · exact absurd ho (hnone o)
      · exact h.unique b o o' ho ho'

/-- Item `b₀` is returned to the pool. -/
theorem Exclusive.release (h : Exclusive used owns) (b₀ : β)
    (hused : ∀ b, used' b ↔ b ≠ b₀ ∧ used b) (howns : ∀ o b, owns' o b ↔ b ≠ b₀ ∧ owns o b) :
    Exclusive used' owns' where
  used_iff b := by simp only [hused, howns, h.used_iff, exists_and_left]
  unique b o o' ho ho' := h.unique b o o' ((howns o b).mp ho).2 ((howns o' b).mp ho').2

/-- Owner `o₁` hands what it owns to `o₂`. -/
theorem Exclusive.transfer (h : Exclusive used owns) (o₁ o₂ : α)
    (hused : ∀ b, used' b ↔ used b)
    (howns : ∀ o b, owns' o b ↔ (o = o₂ ∧ owns o₁ b) ∨ (o ≠ o₁ ∧ owns o b)) :
    Exclusive used' owns' where
  used_iff b := by
    simp only [hused, howns, h.used_iff]
    constructor
    · rintro ⟨o, ho⟩
      by_cases ho₁ : o = o₁
      · exact ⟨o₂, .inl ⟨rfl, ho₁ ▸ ho⟩⟩
      · exact ⟨o, .inr ⟨ho₁, ho⟩⟩
    · rintro ⟨o, ⟨-, ho⟩ | ⟨-, ho⟩⟩
      · exact ⟨o₁, ho⟩
      · exact ⟨o, ho⟩
  unique b o o' ho ho' := by
    rcases (howns o b).mp ho with ⟨rfl, ho⟩ | ⟨hne, ho⟩
    · rcases (howns o' b).mp ho' with ⟨rfl, -⟩ | ⟨hne', ho'⟩
      · rfl
      · exact absurd (h.unique b o' o₁ ho' ho) hne'
    · rcases (howns o' b).mp ho' with ⟨rfl, ho'⟩ | ⟨-, ho'⟩
      · exact absurd (h.unique b o o₁ ho ho') hne
      · exact h.unique b o o' ho ho'

/-- Two owners exchange what they own. -/
theorem Exclusive.swap [DecidableEq α] (h : Exclusive used owns) (o₁ o₂ : α)
    (hused : ∀ b, used' b ↔ used b) (howns : ∀ o b, owns' o b ↔ owns (Equiv.swap o₁ o₂ o) b) :
    Exclusive used' owns' where
  used_iff b := by
    simp only [hused, howns, h.used_iff]
    constructor
    · rintro ⟨o, ho⟩
      exact ⟨Equiv.swap o₁ o₂ o, by rw [Equiv.swap_apply_self]; exact ho⟩
    · rintro ⟨o, ho⟩
      exact ⟨_, ho⟩
  unique b o o' ho ho' := by
    have := h.unique b _ _ ((howns o b).mp ho) ((howns o' b).mp ho')
    exact (Equiv.swap o₁ o₂).injective this

end Ownership
