import Mathlib.Logic.Basic
import Mathlib.Tactic.Common

/-!
# Traces of events

A trace is a list of events to which new ones are added at the end. `FollowedBy P Q t` says that
every event of `t` in `P` has an event in `Q` after it, such as a write that a later `fsync` covers;
its negation says that something in `P` is still open. What a new event does to it is
`followedBy_snoc`.
-/

namespace EventTrace

variable {α : Type} {P Q : α → Bool} {t before after : List α} {e x : α}

/-- Where an event stands in a trace that grew by one. -/
theorem snoc_eq_split (h : t ++ [e] = before ++ x :: after) :
    (after = [] ∧ e = x ∧ t = before) ∨
      ∃ after', after = after' ++ [e] ∧ t = before ++ x :: after' := by
  rcases List.eq_nil_or_concat after with rfl | ⟨after', y, rfl⟩
  · obtain ⟨ht, hx⟩ := List.append_inj' h rfl
    exact .inl ⟨rfl, (List.cons.inj hx).1, ht⟩
  · right
    have hassoc : before ++ x :: (after' ++ [y]) = (before ++ x :: after') ++ [y] := by simp
    rw [List.concat_eq_append, hassoc] at h
    obtain ⟨ht, hy⟩ := List.append_inj' h rfl
    obtain rfl := (List.cons.inj hy).1
    exact ⟨after', List.concat_eq_append, ht⟩

theorem snoc_eq_split_of_ne (h : t ++ [e] = before ++ x :: after) (hne : e ≠ x) :
    ∃ after', after = after' ++ [e] ∧ t = before ++ x :: after' := by
  rcases snoc_eq_split h with ⟨-, heq, -⟩ | hsplit
  · exact absurd heq hne
  · exact hsplit

/-- Every event in `P` has an event in `Q` after it. -/
def FollowedBy (P Q : α → Bool) (t : List α) : Prop :=
  ∀ before e after, t = before ++ e :: after → P e → ∃ q ∈ after, Q q

/-- Nothing in `P` has happened. -/
theorem followedBy_of_forall (h : ∀ e ∈ t, P e = false) : FollowedBy P Q t := by
  rintro before e after rfl he
  rw [h e (by simp)] at he
  exact nomatch he

/-- A new event must not be in `P`, and either closes everything or leaves it as it was. -/
theorem followedBy_snoc :
    FollowedBy P Q (t ++ [x]) ↔ P x = false ∧ (Q x ∨ FollowedBy P Q t) := by
  constructor
  · intro h
    refine ⟨Bool.eq_false_iff.mpr fun hx => ?_, ?_⟩
    · obtain ⟨q, hq, -⟩ := h t x [] rfl hx
      exact nomatch hq
    · by_cases hx : Q x
      · exact .inl hx
      · right
        rintro before e after rfl he
        obtain ⟨q, hq, hQ⟩ := h before e (after ++ [x]) (by simp) he
        rcases List.mem_append.mp hq with hq | hq
        · exact ⟨q, hq, hQ⟩
        · rw [List.mem_singleton.mp hq] at hQ
          exact absurd hQ hx
  · rintro ⟨hP, hor⟩ before e after hsplit he
    rcases snoc_eq_split hsplit with ⟨-, rfl, -⟩ | ⟨after', rfl, ht⟩
    · rw [hP] at he
      exact nomatch he
    · rcases hor with hQ | h
      · exact ⟨x, by simp, hQ⟩
      · obtain ⟨q, hq, hQ⟩ := h before e after' ht he
        exact ⟨q, List.mem_append_left _ hq, hQ⟩

theorem FollowedBy.snoc (h : FollowedBy P Q t) (hx : P x = false) : FollowedBy P Q (t ++ [x]) :=
  followedBy_snoc.mpr ⟨hx, .inr h⟩

theorem FollowedBy.append {es : List α} (h : FollowedBy P Q t) (hes : ∀ e ∈ es, P e = false) :
    FollowedBy P Q (t ++ es) := by
  induction es generalizing t with
  | nil => rwa [List.append_nil]
  | cons x es ih =>
    rw [← List.singleton_append, ← List.append_assoc]
    exact ih (h.snoc (hes x List.mem_cons_self)) fun e he => hes e (List.mem_cons_of_mem _ he)

/-- An event that closes what is open. -/
theorem followedBy_close (hx : P x = false) (hQ : Q x) : FollowedBy P Q (t ++ [x]) :=
  followedBy_snoc.mpr ⟨hx, .inl hQ⟩

/-- An event that neither opens nor closes anything. -/
theorem followedBy_neutral (hP : P x = false) (hQ : Q x = false) :
    FollowedBy P Q (t ++ [x]) ↔ FollowedBy P Q t := by
  rw [followedBy_snoc, hP, hQ]
  simp

/-- An event that opens something. -/
theorem not_followedBy_open (hP : P x) : ¬ FollowedBy P Q (t ++ [x]) := by
  rw [followedBy_snoc, hP]
  simp

end EventTrace
