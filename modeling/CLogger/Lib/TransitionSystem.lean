import Mathlib.Logic.Relation
import Mathlib.Data.Option.Basic

/-!
# Labelled transition systems

Reachability for systems given by a step function `next : σ → α → Option σ`, where the action
carries the choice of the thread that moves and every outcome the environment decides. A side
condition `ok` on steps selects the runs a statement is about: runs without failing calls, runs
in which no thread sleeps too long, and so on.

* `Reachable next ok s₀ s`: `s` is reached from `s₀` by steps that satisfy `ok`.
* `Reachable.invariant`: the induction rule for invariants.
* `exec` runs a list of actions, so that concrete runs can be evaluated.
-/

namespace TransitionSystem

variable {σ α : Type*}

/-- One step of `next` that satisfies the side condition `ok`. -/
def Moves (next : σ → α → Option σ) (ok : σ → α → σ → Prop) (s s' : σ) : Prop :=
  ∃ a, next s a = some s' ∧ ok s a s'

/-- The side condition that admits every step. -/
def anyStep (_ : σ) (_ : α) (_ : σ) : Prop := True

/-- The states reached from `s₀` by any number of steps that satisfy `ok`. -/
def Reachable (next : σ → α → Option σ) (ok : σ → α → σ → Prop) (s₀ s : σ) : Prop :=
  Relation.ReflTransGen (Moves next ok) s₀ s

variable {next : σ → α → Option σ} {ok : σ → α → σ → Prop} {s₀ s s' : σ}

/-- The initial state is reachable. -/
theorem Reachable.refl : Reachable next ok s₀ s₀ := Relation.ReflTransGen.refl

/-- Reachability is closed under admitted steps. -/
theorem Reachable.tail {a : α} (h : Reachable next ok s₀ s) (hstep : next s a = some s')
    (hok : ok s a s') : Reachable next ok s₀ s' :=
  Relation.ReflTransGen.tail h ⟨a, hstep, hok⟩

/-- Runs compose. -/
theorem Reachable.trans {s₁ s₂ s₃ : σ} (h : Reachable next ok s₁ s₂)
    (h' : Reachable next ok s₂ s₃) : Reachable next ok s₁ s₃ :=
  Relation.ReflTransGen.trans h h'

/-- Invariant rule: a predicate that holds initially and is kept by every admitted step from a
reachable state holds in every reachable state. -/
theorem Reachable.invariant {I : σ → Prop} (h₀ : I s₀)
    (hstep : ∀ s a s', Reachable next ok s₀ s → I s → next s a = some s' → ok s a s' → I s')
    (h : Reachable next ok s₀ s) : I s := by
  induction h with
  | refl => exact h₀
  | tail hr hmove ih =>
    obtain ⟨a, hnext, hok⟩ := hmove
    exact hstep _ a _ hr ih hnext hok

/-- Weakening the side condition keeps a state reachable. -/
theorem Reachable.mono {ok' : σ → α → σ → Prop} (hok : ∀ s a s', ok s a s' → ok' s a s')
    (h : Reachable next ok s₀ s) : Reachable next ok' s₀ s := by
  refine Relation.ReflTransGen.mono ?_ _ _ h
  rintro s s' ⟨a, hnext, ha⟩
  exact ⟨a, hnext, hok s a s' ha⟩

/-- Run a list of actions, stopping at the first one that is not enabled. -/
def exec (next : σ → α → Option σ) : σ → List α → Option σ
  | s, [] => some s
  | s, a :: as => (next s a).bind fun s' => exec next s' as

/-- Every state a list of actions leads to is reachable when the steps of these actions are
admitted. -/
theorem reachable_of_exec {as : List α} (hok : ∀ a ∈ as, ∀ s s', ok s a s')
    (h : exec next s as = some s') : Reachable next ok s s' := by
  induction as generalizing s with
  | nil =>
    obtain rfl : s = s' := by simpa [exec] using h
    exact .refl
  | cons a as ih =>
    obtain ⟨t, hnext, hrest⟩ := Option.bind_eq_some_iff.mp h
    refine Relation.ReflTransGen.head ⟨a, hnext, hok a List.mem_cons_self _ _⟩ (ih ?_ hrest)
    exact fun b hb => hok b (List.mem_cons_of_mem a hb)

/-- The same for a side condition that depends on the states and can be checked at every step. -/
theorem reachable_of_exec_filter {check : σ → α → σ → Bool} {as : List α}
    (hok : ∀ s a s', check s a s' = true → ok s a s')
    (h : exec (fun s a => (next s a).filter (check s a)) s as = some s') :
    Reachable next ok s s' := by
  have hrun : Reachable (fun s a => (next s a).filter (check s a)) anyStep s s' :=
    reachable_of_exec (fun _ _ _ _ => trivial) h
  refine Relation.ReflTransGen.mono ?_ _ _ hrun
  rintro s s' ⟨a, hnext, -⟩
  obtain ⟨hstep, hcheck⟩ := Option.filter_eq_some_iff.mp hnext
  exact ⟨a, hstep, hok s a s' hcheck⟩

end TransitionSystem
