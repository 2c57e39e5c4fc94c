import CLogger.Lib.TransitionSystem
import Mathlib.Logic.Function.Basic
import Mathlib.Tactic.Common

/-!
# Concurrent programs

Threads that run programs over a shared state, one atomic operation at a time, in any order.

* `Code σ ω Λ α` is a program that returns `α`: atomic operations on the state `σ`, whose outcome
  an answer `ω` decides, and loops. Operations and loops carry a label `Λ`, so that statements
  can say where a thread stands.
* `System` is the shared state with the remaining program of every thread; `sysNext` lets one
  thread execute its next operation or enter a new call.
* `Verified` is the proof rule, after Owicki and Gries: every thread `i` has an auxiliary value
  `L i` that only its own operations change, an invariant `J` relates the shared state and all
  auxiliary values, and every operation of the thread keeps `J`. `System.sound` concludes that `J`
  holds in every reachable state.
* `Code.solo` runs one thread alone, and `reachable_of_solo` makes a run of it.
* `Quiet good ok π P c` says that no operation of `c` changes the part `π` of the state, so that
  code can be passed by every invariant about `π`.
-/

namespace Concurrent

variable {σ ω Λ ι κ ℓ τ : Type}

/-- A program of one thread. -/
inductive Code (σ ω Λ : Type) : Type → Type 1 where
  /-- Return a value. -/
  | ret {α : Type} (a : α) : Code σ ω Λ α
  /-- An atomic operation, which may have to wait, and what to do with its result. -/
  | op {α β : Type} (label : Λ) (act : σ → ω → Option (β × σ)) (k : β → Code σ ω Λ α) :
      Code σ ω Λ α
  /-- A loop whose body says whether to go on with new values or to leave with a result. -/
  | loop {α β γ : Type} (label : Λ) (body : β → Code σ ω Λ (β ⊕ γ)) (b : β)
      (k : γ → Code σ ω Λ α) : Code σ ω Λ α

namespace Code

/-- Sequential composition. -/
def bind {α β : Type} : Code σ ω Λ α → (α → Code σ ω Λ β) → Code σ ω Λ β
  | .ret a, f => f a
  | .op label act k, f => .op label act fun b => (k b).bind f
  | .loop label body b k, f => .loop label body b fun c => (k c).bind f

instance : Monad (Code σ ω Λ) where
  pure := .ret
  bind := .bind

/-- One atomic operation as a program. -/
def atomic {α : Type} (label : Λ) (act : σ → ω → Option (α × σ)) : Code σ ω Λ α :=
  .op label act .ret

/-- A loop as a program. -/
def iterate {β γ : Type} (label : Λ) (body : β → Code σ ω Λ (β ⊕ γ)) (b : β) : Code σ ω Λ γ :=
  .loop label body b .ret

/-- What a loop does first: its body, and then the loop again or the rest of the program. -/
def unfold {α β γ : Type} (label : Λ) (body : β → Code σ ω Λ (β ⊕ γ)) (b : β)
    (k : γ → Code σ ω Λ α) : Code σ ω Λ α :=
  (body b).bind fun r => r.elim (fun b' => .loop label body b' k) k

/-- Where a program stands; nowhere when it has returned. -/
def label {α : Type} : Code σ ω Λ α → Option Λ
  | .ret _ => none
  | .op label _ _ => some label
  | .loop label _ _ _ => some label

/-- One step of a program: an operation, or entering an iteration of a loop. -/
def next {α : Type} : Code σ ω Λ α → σ → ω → Option (σ × Code σ ω Λ α)
  | .ret _, _, _ => none
  | .op _ act k, s, a => (act s a).map fun r => (r.2, k r.1)
  | .loop label body b k, s, _ => some (s, unfold label body b k)

end Code

/-- The shared state and the remaining program of every thread. -/
structure System (σ ω Λ ι : Type) where
  shared : σ
  code : ι → Code σ ω Λ Unit

/-- A thread without a program enters a call, or a thread takes a step. -/
inductive Move (ω ι κ : Type) where
  | call (i : ι) (c : κ)
  | step (i : ι) (a : ω)

variable [DecidableEq ι]

/-- One step of a system whose threads can make the calls `api`. -/
def sysNext (api : ι → κ → Code σ ω Λ Unit) (S : System σ ω Λ ι) :
    Move ω ι κ → Option (System σ ω Λ ι)
  | .call i c =>
    match S.code i with
    | .ret _ => some { S with code := Function.update S.code i (api i c) }
    | _ => none
  | .step i a =>
    ((S.code i).next S.shared a).map fun r =>
      { shared := r.1, code := Function.update S.code i r.2 }

/-- The thread that moves. -/
def Move.thread : Move ω ι κ → ι
  | .call i _ => i
  | .step i _ => i

/-- A thread that does not move keeps its program. -/
theorem code_of_exec {api : ι → κ → Code σ ω Λ Unit} {S S' : System σ ω Λ ι}
    {moves : List (Move ω ι κ)} {i : ι} (hothers : ∀ m ∈ moves, m.thread ≠ i)
    (h : TransitionSystem.exec (sysNext api) S moves = some S') : S'.code i = S.code i := by
  induction moves generalizing S with
  | nil => rw [Option.some.inj h]
  | cons m moves ih =>
    obtain ⟨S₁, hnext, hrest⟩ := Option.bind_eq_some_iff.mp h
    have hne : i ≠ m.thread := (hothers m List.mem_cons_self).symm
    rw [ih (fun m' hm' => hothers m' (List.mem_cons_of_mem _ hm')) hrest]
    cases m with
    | call j c =>
      rw [sysNext] at hnext
      split at hnext
      · rw [← Option.some.inj hnext]
        exact Function.update_of_ne hne _ _
      · cases hnext
    | step j a =>
      obtain ⟨r, -, rfl⟩ := Option.map_eq_some_iff.mp hnext
      exact Function.update_of_ne hne _ _

/-- The moves of thread `i`. -/
def movesOf (i : ι) (_ : System σ ω Λ ι) (m : Move ω ι κ) (_ : System σ ω Λ ι) : Prop :=
  match m with
  | .call j _ => j = i
  | .step j _ => j = i

/-! ## Running one thread alone -/

namespace Code

theorem pure_bind {α β : Type} (a : α) (f : α → Code σ ω Λ β) : (pure a >>= f) = f a := rfl

theorem bind_assoc {α β γ : Type} (c : Code σ ω Λ α) (f : α → Code σ ω Λ β)
    (g : β → Code σ ω Λ γ) : (c >>= f) >>= g = c >>= fun a => f a >>= g := by
  change (c.bind f).bind g = c.bind fun a => (f a).bind g
  induction c with
  | ret a => rfl
  | op label act k ih => exact congrArg (Code.op label act) (funext fun b => ih b f)
  | loop label body b k _ ihk => exact congrArg (Code.loop label body b) (funext fun c => ihk c f)

/-- Run a program with these answers, without interference. -/
def solo {α : Type} : List ω → Code σ ω Λ α → σ → Option (σ × Code σ ω Λ α)
  | [], c, s => some (s, c)
  | a :: as, c, s => (c.next s a).bind fun r => solo as r.2 r.1

theorem solo_nil {α : Type} {c : Code σ ω Λ α} {s : σ} : solo [] c s = some (s, c) := rfl

theorem label_atomic {α β : Type} {label : Λ} {act : σ → ω → Option (β × σ)}
    {f : β → Code σ ω Λ α} : (atomic label act >>= f).label = some label := rfl

theorem solo_atomic {α β : Type} {label : Λ} {act : σ → ω → Option (β × σ)}
    {f : β → Code σ ω Λ α} {a : ω} {as : List ω} {s : σ} :
    solo (a :: as) (atomic label act >>= f) s = (act s a).bind fun r => solo as (f r.1) r.2 := by
  show ((act s a).map fun r => (r.2, f r.1)).bind _ = _
  cases act s a with
  | none => rfl
  | some r => rfl

theorem solo_last {β : Type} {label : Λ} {act : σ → ω → Option (β × σ)} {a : ω} {s : σ} :
    solo [a] (atomic label act) s = (act s a).map fun r => (r.2, .ret r.1) := by
  show ((act s a).map fun r => (r.2, Code.ret r.1)).bind _ = _
  cases act s a with
  | none => rfl
  | some r => rfl

end Code

/-- What a thread does alone is a run of the system. -/
theorem reachable_of_solo {api : ι → κ → Code σ ω Λ Unit} {S : System σ ω Λ ι} {i : ι}
    {as : List ω} {c c' : Code σ ω Λ Unit} {s' : σ} (hcode : S.code i = c)
    (h : c.solo as S.shared = some (s', c')) :
    TransitionSystem.Reachable (sysNext api) (movesOf i) S
      { shared := s', code := Function.update S.code i c' } := by
  induction as generalizing S c with
  | nil =>
    obtain ⟨rfl, rfl⟩ := Prod.mk.inj (Option.some.inj h)
    rw [← hcode, Function.update_eq_self]
    exact .refl
  | cons a as ih =>
    obtain ⟨⟨s₁, c₁⟩, hnext, hrest⟩ := Option.bind_eq_some_iff.mp h
    have hstep : sysNext api S (.step i a) =
        some { shared := s₁, code := Function.update S.code i c₁ } := by
      rw [sysNext, hcode, hnext]
      rfl
    have htail := ih (S := { shared := s₁, code := Function.update S.code i c₁ })
      (Function.update_self _ _ _) hrest
    rw [Function.update_idem] at htail
    exact Relation.ReflTransGen.head ⟨.step i a, hstep, rfl⟩ htail

/-- A condition on the calls and the steps of threads, as a side condition on the steps of a
system. -/
def stepOk (okCall : κ → Prop) (ok : σ → ι → ω → σ → Prop) (S : System σ ω Λ ι) (m : Move ω ι κ)
    (S' : System σ ω Λ ι) : Prop :=
  match m with
  | .call _ c => okCall c
  | .step i a => ok S.shared i a S'.shared

/-! ## Verification -/

section Verified

variable (J : σ → (ι → ℓ) → Prop) (R : ℓ → Λ → Prop) (ok : σ → ι → ω → σ → Prop) (i : ι)

/-- Thread `i` can run the program from the auxiliary value `l`: its value fits the labels it
passes (`R`), every operation keeps the invariant for some new value, and it returns in `Q`. -/
def Verified {α : Type} : Code σ ω Λ α → ℓ → (α → ℓ → Prop) → Prop
  | .ret a, l, Q => Q a l
  | .op label act k, l, Q => R l label ∧ ∀ s L a b s', L i = l → J s L →
      act s a = some (b, s') → ok s i a s' →
      ∃ l', J s' (Function.update L i l') ∧ Verified (k b) l' Q
  | .loop (β := β) label body b k, l, Q => ∃ I : β → ℓ → Prop, I b l ∧ ∀ b' l', I b' l' →
      R l' label ∧
      Verified (body b') l' fun r l'' =>
        r.elim (fun b'' => I b'' l'') (fun c => Verified (k c) l'' Q)

variable {J R ok i}

theorem Verified.mono {α : Type} {c : Code σ ω Λ α} {l : ℓ} {Q Q' : α → ℓ → Prop}
    (h : Verified J R ok i c l Q) (hQ : ∀ a l', Q a l' → Q' a l') :
    Verified J R ok i c l Q' := by
  induction c generalizing l with
  | ret a => exact hQ a l h
  | op label act k ih =>
    refine ⟨h.1, fun s L a b s' hl hJ hact hok => ?_⟩
    obtain ⟨l', hJ', hk⟩ := h.2 s L a b s' hl hJ hact hok
    exact ⟨l', hJ', ih b hk hQ⟩
  | loop label body b k ihbody ihk =>
    obtain ⟨I, hI, hbody⟩ := h
    refine ⟨I, hI, fun b' l' hb' => ⟨(hbody b' l' hb').1, ihbody b' (hbody b' l' hb').2 ?_⟩⟩
    rintro (b'' | c) l'' hr
    · exact hr
    · exact ihk c hr hQ

theorem Verified.bind {α β : Type} {c : Code σ ω Λ α} {f : α → Code σ ω Λ β} {l : ℓ}
    {Q : β → ℓ → Prop}
    (h : Verified J R ok i c l fun a l' => Verified J R ok i (f a) l' Q) :
    Verified J R ok i (c >>= f) l Q := by
  change Verified J R ok i (c.bind f) l Q
  induction c generalizing l with
  | ret a => exact h
  | op label act k ih =>
    refine ⟨h.1, fun s L a b s' hl hJ hact hok => ?_⟩
    obtain ⟨l', hJ', hk⟩ := h.2 s L a b s' hl hJ hact hok
    exact ⟨l', hJ', ih b hk⟩
  | loop label body b k ihbody ihk =>
    obtain ⟨I, hI, hbody⟩ := h
    refine ⟨I, hI, fun b' l' hb' => ⟨(hbody b' l' hb').1, (hbody b' l' hb').2.mono ?_⟩⟩
    rintro (b'' | c) l'' hr
    · exact hr
    · exact ihk c hr

theorem Verified.pure {α : Type} {a : α} {l : ℓ} {Q : α → ℓ → Prop} (h : Q a l) :
    Verified J R ok i (Pure.pure a : Code σ ω Λ α) l Q := h

theorem Verified.atomic {α : Type} {label : Λ} {act : σ → ω → Option (α × σ)} {l : ℓ}
    {Q : α → ℓ → Prop} (hR : R l label)
    (h : ∀ s L a b s', L i = l → J s L → act s a = some (b, s') → ok s i a s' →
      ∃ l', J s' (Function.update L i l') ∧ Q b l') :
    Verified J R ok i (Code.atomic label act) l Q := ⟨hR, h⟩

theorem Verified.iterate {β γ : Type} {label : Λ} {body : β → Code σ ω Λ (β ⊕ γ)} {b : β} {l : ℓ}
    {Q : γ → ℓ → Prop} (I : β → ℓ → Prop) (h : I b l) (hR : ∀ b l, I b l → R l label)
    (hbody : ∀ b l, I b l → Verified J R ok i (body b) l fun r l' =>
      r.elim (fun b' => I b' l') (fun c => Q c l')) :
    Verified J R ok i (Code.iterate label body b) l Q :=
  ⟨I, h, fun b' l' hb' => ⟨hR b' l' hb', hbody b' l' hb'⟩⟩

theorem Verified.ite {α : Type} {p : Prop} [Decidable p] {c c' : Code σ ω Λ α} {l : ℓ}
    {Q : α → ℓ → Prop} (h : p → Verified J R ok i c l Q) (h' : ¬ p → Verified J R ok i c' l Q) :
    Verified J R ok i (if p then c else c') l Q := by
  by_cases hp : p
  · rw [if_pos hp]
    exact h hp
  · rw [if_neg hp]
    exact h' hp

/-- A verified thread stands where its auxiliary value says. -/
theorem Verified.label {α : Type} {c : Code σ ω Λ α} {l : ℓ} {Q : α → ℓ → Prop} {label : Λ}
    (h : Verified J R ok i c l Q) (hlabel : c.label = some label) : R l label := by
  cases c with
  | ret a => exact absurd hlabel nofun
  | op label' act k =>
    rw [← Option.some.inj hlabel]
    exact h.1
  | loop label' body b k =>
    rw [← Option.some.inj hlabel]
    obtain ⟨I, hI, hbody⟩ := h
    exact (hbody b l hI).1

/-- One step of a verified thread. -/
theorem Verified.step {α : Type} {c c' : Code σ ω Λ α} {l : ℓ} {Q : α → ℓ → Prop} {s s' : σ}
    {L : ι → ℓ} {a : ω} (h : Verified J R ok i c l Q) (hl : L i = l) (hJ : J s L)
    (hnext : c.next s a = some (s', c')) (hok : ok s i a s') :
    ∃ l', J s' (Function.update L i l') ∧ Verified J R ok i c' l' Q := by
  cases c with
  | ret a => exact absurd hnext nofun
  | op label act k =>
    obtain ⟨⟨b, t⟩, hact, heq⟩ := Option.map_eq_some_iff.mp hnext
    obtain ⟨rfl, rfl⟩ := Prod.mk.inj heq
    exact h.2 s L a b t hl hJ hact hok
  | loop label body b k =>
    obtain ⟨rfl, rfl⟩ := Prod.mk.inj (Option.some.inj hnext)
    obtain ⟨I, hI, hbody⟩ := h
    refine ⟨l, ?_, Verified.bind ((hbody b l hI).2.mono ?_)⟩
    · rw [← hl, Function.update_eq_self]
      exact hJ
    · rintro (b' | c) l' hr
      · exact ⟨I, hr, hbody⟩
      · exact hr

end Verified

/-- Soundness: when every call of every thread is verified, the invariant holds in every reachable
state, for auxiliary values from which every thread can go on. Thread `i` has the value at `e i`;
there may be further values that belong to no thread. -/
theorem System.sound {ζ : Type} [DecidableEq ζ] {e : ι → ζ} (he : Function.Injective e)
    {api : ι → κ → Code σ ω Λ Unit} {J : σ → (ζ → ℓ) → Prop} {R : ι → ℓ → Λ → Prop}
    {okCall : κ → Prop} {ok : σ → ι → ω → σ → Prop} {ok' : σ → ζ → ω → σ → Prop}
    (hok' : ∀ s i a s', ok s i a s' → ok' s (e i) a s') {W : ι → ℓ → Prop}
    {S₀ S : System σ ω Λ ι}
    (hinit : ∃ L, J S₀.shared L ∧
      ∀ i, Verified J (R i) ok' (e i) (S₀.code i) (L (e i)) fun _ l => W i l)
    (hapi : ∀ i c l, okCall c → W i l →
      Verified J (R i) ok' (e i) (api i c) l fun _ l' => W i l')
    (h : TransitionSystem.Reachable (sysNext api) (stepOk okCall ok) S₀ S) :
    ∃ L, J S.shared L ∧
      ∀ i, Verified J (R i) ok' (e i) (S.code i) (L (e i)) fun _ l => W i l := by
  refine TransitionSystem.Reachable.invariant (I := fun S => ∃ L, J S.shared L ∧
    ∀ i, Verified J (R i) ok' (e i) (S.code i) (L (e i)) fun _ l => W i l) hinit ?_ h
  rintro S m S' - ⟨L, hJ, hcode⟩ hnext hok
  cases m with
  -- a call gives an idle thread code that is verified from where it stands
  | call i c =>
    rw [sysNext] at hnext
    split at hnext
    · rename_i a hret
      obtain rfl := Option.some.inj hnext
      have hidle := hcode i
      rw [hret] at hidle
      refine ⟨L, hJ, fun j => ?_⟩
      by_cases hj : j = i
      · subst hj
        simp only [Function.update_self]
        exact hapi j c (L (e j)) hok hidle
      · simp only [Function.update_of_ne hj]
        exact hcode j
    · exact absurd hnext nofun
  -- the step moves one thread and the part of the state that it owns
  | step i a =>
    obtain ⟨⟨s', c'⟩, hstep, rfl⟩ := Option.map_eq_some_iff.mp hnext
    obtain ⟨l', hJ', hc'⟩ := (hcode i).step rfl hJ hstep (hok' _ _ _ _ hok)
    -- the others keep their code and their place
    refine ⟨Function.update L (e i) l', hJ', fun j => ?_⟩
    by_cases hj : j = i
    · subst hj
      simp only [Function.update_self]
      exact hc'
    · simp only [Function.update_of_ne hj, Function.update_of_ne (he.ne hj)]
      exact hcode j

/-! ## Code that leaves a part of the state alone -/

/-- No operation of the program changes the part `π` of the state as long as the answers are `ok`.
Its labels are `good`, and it returns values in `P`. -/
def Quiet (good : Λ → Prop) (ok : ω → Prop) (π : σ → τ) {α : Type} (P : α → Prop) :
    Code σ ω Λ α → Prop
  | .ret a => P a
  | .op label act k => good label ∧ ∀ s a b s', act s a = some (b, s') → ok a →
      π s' = π s ∧ Quiet good ok π P (k b)
  | .loop label body _ k => good label ∧ ∀ b,
      Quiet good ok π (Sum.elim (fun _ => True) fun c => Quiet good ok π P (k c)) (body b)

section Quiet

variable {π : σ → τ} {good : Λ → Prop} {okAnswer : ω → Prop}

theorem Quiet.pure {α : Type} {P : α → Prop} {a : α} (h : P a) :
    Quiet good okAnswer π P (Pure.pure a : Code σ ω Λ α) := h

theorem Quiet.mono {α : Type} {P P' : α → Prop} {c : Code σ ω Λ α}
    (h : Quiet good okAnswer π P c) (hP : ∀ a, P a → P' a) : Quiet good okAnswer π P' c := by
  induction c with
  | ret a => exact hP a h
  | op label act k ih =>
    refine ⟨h.1, fun s a b s' hact hok => ?_⟩
    obtain ⟨hπ, hk⟩ := h.2 s a b s' hact hok
    exact ⟨hπ, ih b hk hP⟩
  | loop label body b k ihbody ihk =>
    refine ⟨h.1, fun b => ihbody b (h.2 b) ?_⟩
    rintro (b' | c) hr
    · exact hr
    · exact ihk c hr hP

/-- Code that leaves a part alone leaves every part of that part alone. -/
theorem Quiet.part {υ α : Type} {π' : σ → υ} {good' : Λ → Prop} {P : α → Prop} {c : Code σ ω Λ α}
    (h : Quiet good okAnswer π P c) (hgood : ∀ label, good label → good' label)
    (hπ : ∀ s s', π s' = π s → π' s' = π' s) : Quiet good' okAnswer π' P c := by
  induction c with
  | ret a => exact h
  | op label act k ih =>
    refine ⟨hgood label h.1, fun s a b s' hact hok => ?_⟩
    obtain ⟨hsame, hk⟩ := h.2 s a b s' hact hok
    exact ⟨hπ s s' hsame, ih b hk⟩
  | loop label body b k ihbody ihk =>
    refine ⟨hgood label h.1, fun b => (ihbody b (h.2 b)).mono ?_⟩
    rintro (b' | c) hr
    · exact hr
    · exact ihk c hr

theorem Quiet.bind {α β : Type} {P : α → Prop} {P' : β → Prop} {c : Code σ ω Λ α}
    {f : α → Code σ ω Λ β} (h : Quiet good okAnswer π P c)
    (hf : ∀ a, P a → Quiet good okAnswer π P' (f a)) : Quiet good okAnswer π P' (c >>= f) := by
  change Quiet good okAnswer π P' (c.bind f)
  induction c with
  | ret a => exact hf a h
  | op label act k ih =>
    refine ⟨h.1, fun s a b s' hact hok => ?_⟩
    obtain ⟨hπ, hk⟩ := h.2 s a b s' hact hok
    exact ⟨hπ, ih b hk hf⟩
  | loop label body b k ihbody ihk =>
    refine ⟨h.1, fun b => (h.2 b).mono ?_⟩
    rintro (b' | c) hr
    · exact hr
    · exact ihk c hr hf

theorem Quiet.atomic {α : Type} {P : α → Prop} {label : Λ} {act : σ → ω → Option (α × σ)}
    (hgood : good label)
    (h : ∀ s a b s', act s a = some (b, s') → okAnswer a → π s' = π s ∧ P b) :
    Quiet good okAnswer π P (Code.atomic label act) := ⟨hgood, h⟩

theorem Quiet.iterate {β γ : Type} {P : γ → Prop} {label : Λ} {body : β → Code σ ω Λ (β ⊕ γ)}
    {b : β} (hgood : good label)
    (h : ∀ b, Quiet good okAnswer π (Sum.elim (fun _ => True) P) (body b)) :
    Quiet good okAnswer π P (Code.iterate label body b) := ⟨hgood, h⟩

theorem Quiet.ite {α : Type} {P : α → Prop} {p : Prop} [Decidable p] {c c' : Code σ ω Λ α}
    (h : p → Quiet good okAnswer π P c) (h' : ¬ p → Quiet good okAnswer π P c') :
    Quiet good okAnswer π P (if p then c else c') := by
  by_cases hp : p
  · rw [if_pos hp]
    exact h hp
  · rw [if_neg hp]
    exact h' hp

/-- Quiet code keeps an invariant about the part it leaves alone. -/
theorem Quiet.verified {α : Type} {P : α → Prop} {J : σ → (ι → ℓ) → Prop} {R : ℓ → Λ → Prop}
    {ok : σ → ι → ω → σ → Prop} {i : ι} {c : Code σ ω Λ α} {l : ℓ}
    (h : Quiet good okAnswer π P c) (hok : ∀ s a s', ok s i a s' → okAnswer a)
    (hJ : ∀ s s' L, π s' = π s → J s L → J s' L) (hR : ∀ label, good label → R l label) :
    Verified J R ok i c l fun a l' => P a ∧ l' = l := by
  induction c with
  | ret a => exact ⟨h, rfl⟩
  | op label act k ih =>
    refine ⟨hR label h.1, fun s L a b s' hl hJs hact hoks => ?_⟩
    obtain ⟨hπ, hk⟩ := h.2 s a b s' hact (hok s a s' hoks)
    refine ⟨l, ?_, ih b hk⟩
    rw [← hl, Function.update_eq_self]
    exact hJ s s' L hπ hJs
  | loop label body b k ihbody ihk =>
    refine ⟨fun _ l' => l' = l, rfl, ?_⟩
    rintro b' l' rfl
    refine ⟨hR label h.1, (ihbody b' (h.2 b')).mono ?_⟩
    rintro (b'' | c) l'' ⟨hr, rfl⟩
    · rfl
    · exact ihk c hr

end Quiet

end Concurrent
