import Mathlib.Logic.Basic
import Mathlib.Tactic.Common

/-!
# Programs that call an environment

Sequential programs over a state `σ` whose calls to the environment are answered by `ω`. A run on a
tape of answers either returns, or stops at the call for which the tape has no answer left. Since
every prefix of a tape is a tape, the states in which the runs of a program stop are the states it
is in at its calls: a statement about every tape is a statement about every moment of every run.

* `Prog σ ω α` with its calls `ask` and its loop `iterate`, and `Prog.run`.
* `Safe C D m Q s`: from `s`, the program `m` returns in `Q`, stands in `C` at each of its calls
  and in `D` after each change of the state. `wp C` is a Hoare logic with a crash condition,
  `wpStep D` one for a program whose every step can be seen.
* `Returns m s a s'`: what `m` may return, by its strongest specification `wp_returns`.
* `Keeps π P m`: the program never changes the part `π` of the state, and returns values in `P`.
* `Ends A m Q s`: from `s`, the runs of `m` on answers in `A` that return do so in `Q`.
* `Matches RS RA m m'`: on every tape `m` and `m'` do the same, up to the relations.
* `Sees π m`: what `m` does depends on the state through `π` only.
* `Prog.onFst m`: the program `m` on the first component of a larger state.
-/

namespace TapeProgram

variable {σ ω τ α β γ : Type}

/-- A program over the state `σ` whose calls are answered by `ω`. -/
inductive Prog (σ ω : Type) : Type → Type 1 where
  /-- Return a value. -/
  | ret {α : Type} (a : α) : Prog σ ω α
  /-- Read the state. -/
  | getThen {α : Type} (k : σ → Prog σ ω α) : Prog σ ω α
  /-- Change the state. -/
  | setThen {α : Type} (g : σ → σ) (k : Prog σ ω α) : Prog σ ω α
  /-- A call: the answer decides the result and the state after it. -/
  | askThen {α β : Type} (call : σ → ω → β × σ) (k : β → Prog σ ω α) : Prog σ ω α
  /-- A loop whose body says whether to go on with new values or to leave with a result. -/
  | loopThen {α β γ : Type} (body : β → Prog σ ω (β ⊕ γ)) (b : β) (k : γ → Prog σ ω α) :
      Prog σ ω α

/-- How a run on a finite tape ends. -/
inductive Outcome (σ ω α : Type) where
  /-- The program returned `a` in state `s`, with `tape` left. -/
  | done (a : α) (s : σ) (tape : List ω)
  /-- The program stands in state `s` at a call that has no answer yet. -/
  | waiting (s : σ)

/-- The state at the end of a run. -/
def Outcome.state : Outcome σ ω α → σ
  | .done _ s _ => s
  | .waiting s => s

/-- Go on after a run that returned. -/
def Outcome.andThen : Outcome σ ω α → (α → σ → List ω → Outcome σ ω β) → Outcome σ ω β
  | .done a s tape, f => f a s tape
  | .waiting s, _ => .waiting s

namespace Prog

/-- Sequential composition. -/
protected def bind {α β : Type} : Prog σ ω α → (α → Prog σ ω β) → Prog σ ω β
  | .ret a, f => f a
  | .getThen k, f => .getThen fun s => (k s).bind f
  | .setThen g k, f => .setThen g (k.bind f)
  | .askThen call k, f => .askThen call fun b => (k b).bind f
  | .loopThen body b k, f => .loopThen body b fun c => (k c).bind f

instance : Monad (Prog σ ω) where
  pure := .ret
  bind := .bind

/-- The current state. -/
def get : Prog σ ω σ := .getThen .ret

/-- An assignment to the state. -/
def modify (g : σ → σ) : Prog σ ω Unit := .setThen g (.ret ())

/-- A call as a program. -/
def ask (call : σ → ω → α × σ) : Prog σ ω α := .askThen call .ret

/-- A loop as a program. -/
def iterate (body : β → Prog σ ω (β ⊕ γ)) (b : β) : Prog σ ω γ := .loopThen body b .ret

/-- The iterations of a loop, of which `body` is the run of one, as far as the bound goes. -/
def runLoop (body : β → σ → List ω → Outcome σ ω (β ⊕ γ)) : ℕ → β → σ → List ω → Outcome σ ω γ
  | 0, _, s, _ => .waiting s
  | n + 1, b, s, tape => (body b s tape).andThen fun r s' tape' =>
      match r with
      | .inl b' => runLoop body n b' s' tape'
      | .inr c => .done c s' tape'

/-- The run of a program on a tape. Every iteration of a loop makes at least one call, so that the
length of the tape bounds the iterations that the run can complete. -/
def run {α : Type} : Prog σ ω α → σ → List ω → Outcome σ ω α
  | .ret a, s, tape => .done a s tape
  | .getThen k, s, tape => (k s).run s tape
  | .setThen g k, s, tape => k.run (g s) tape
  | .askThen _ _, s, [] => .waiting s
  | .askThen call k, s, a :: tape => (k (call s a).1).run (call s a).2 tape
  | .loopThen body b k, s, tape =>
    (runLoop (fun b => (body b).run) (tape.length + 1) b s tape).andThen fun c => (k c).run

end Prog

open Prog

/-- Three outcomes in sequence. -/
theorem Outcome.andThen_assoc (o : Outcome σ ω α) (f : α → σ → List ω → Outcome σ ω β)
    (g : β → σ → List ω → Outcome σ ω γ) :
    (o.andThen f).andThen g = o.andThen fun a s tape => (f a s tape).andThen g := by
  cases o <;> rfl

/-- The run of a sequential composition. -/
theorem run_bind {α β : Type} (m : Prog σ ω α) (f : α → Prog σ ω β) (s : σ) (tape : List ω) :
    (m >>= f).run s tape = (m.run s tape).andThen fun a => (f a).run := by
  change (m.bind f).run s tape = _
  induction m generalizing s tape with
  | ret a => rfl
  | getThen k ih => exact ih s f s tape
  | setThen g k ih => exact ih f (g s) tape
  | askThen call k ih =>
    cases tape with
    | nil => rfl
    | cons a tape => exact ih _ f _ tape
  | loopThen body b k ihbody ihk =>
    simp only [Prog.bind, Prog.run]
    rw [Outcome.andThen_assoc]
    congr 1
    ext c s' tape'
    exact ihk c f s' tape'

/-! ## Hoare logic -/

/-- From `s`, every run of `m` returns in `Q`, stands in `C` at each call, and in `D` after each
change of the state. -/
def Safe (C D : σ → Prop) {α : Type} : Prog σ ω α → (α → σ → Prop) → σ → Prop
  | .ret a, Q, s => Q a s
  | .getThen k, Q, s => Safe C D (k s) Q s
  | .setThen g k, Q, s => D (g s) ∧ Safe C D k Q (g s)
  | .askThen call k, Q, s => C s ∧ ∀ a, D (call s a).2 ∧ Safe C D (k (call s a).1) Q (call s a).2
  | .loopThen (β := β) body b k, Q, s => ∃ I : β → σ → Prop, I b s ∧ ∀ b' s', I b' s' →
      C s' ∧ Safe C D (body b') (fun r s'' =>
        r.elim (fun b'' => I b'' s'') (fun c => Safe C D (k c) Q s'')) s'

/-- A weakest precondition with a crash condition: `C` holds whenever the program calls. -/
abbrev wp (C : σ → Prop) (m : Prog σ ω α) (Q : α → σ → Prop) (s : σ) : Prop :=
  Safe C (fun _ => True) m Q s

/-- A weakest precondition with a condition on every state the program passes. -/
abbrev wpStep (D : σ → Prop) (m : Prog σ ω α) (Q : α → σ → Prop) (s : σ) : Prop :=
  Safe (fun _ => True) D m Q s

variable {C D : σ → Prop} {Q : α → σ → Prop} {s : σ}

/-- The rule of a program that returns. -/
theorem wp_pure {a : α} (h : Q a s) : Safe C D (pure a : Prog σ ω α) Q s := h

/-- The rule of consequence. -/
theorem wp_mono {α : Type} {Q R : α → σ → Prop} {s : σ} {m : Prog σ ω α} (h : Safe C D m Q s)
    (hQR : ∀ a s', Q a s' → R a s') : Safe C D m R s := by
  induction m generalizing s with
  | ret a => exact hQR a s h
  | getThen k ih => exact ih s h hQR
  | setThen g k ih => exact ⟨h.1, ih h.2 hQR⟩
  | askThen call k ih => exact ⟨h.1, fun a => ⟨(h.2 a).1, ih _ (h.2 a).2 hQR⟩⟩
  | loopThen body b k ihbody ihk =>
    obtain ⟨I, hI, hbody⟩ := h
    refine ⟨I, hI, fun b' s' hb' => ⟨(hbody b' s' hb').1, ihbody b' (hbody b' s' hb').2 ?_⟩⟩
    rintro (b'' | c) s'' hr
    · exact hr
    · exact ihk c hr hQR

/-- A crash condition may be weakened. -/
theorem Safe.weaken {α : Type} {C' : σ → Prop} {Q : α → σ → Prop} {s : σ} {m : Prog σ ω α}
    (h : Safe C D m Q s) (hC : ∀ s, C s → C' s) : Safe C' D m Q s := by
  induction m generalizing s with
  | ret a => exact h
  | getThen k ih => exact ih s h
  | setThen g k ih => exact ⟨h.1, ih h.2⟩
  | askThen call k ih => exact ⟨hC s h.1, fun a => ⟨(h.2 a).1, ih _ (h.2 a).2⟩⟩
  | loopThen body b k ihbody ihk =>
    obtain ⟨I, hI, hbody⟩ := h
    refine ⟨I, hI, fun b' s' hb' => ⟨hC s' (hbody b' s' hb').1, ?_⟩⟩
    refine wp_mono (ihbody b' (hbody b' s' hb').2) ?_
    rintro (b'' | c) s'' hr
    · exact hr
    · exact ihk c hr

/-- The rule of sequence. -/
theorem wp_bind {α β : Type} {m : Prog σ ω α} {f : α → Prog σ ω β} {R : β → σ → Prop} {s : σ}
    (h : Safe C D m (fun a => Safe C D (f a) R) s) : Safe C D (m >>= f) R s := by
  change Safe C D (m.bind f) R s
  induction m generalizing s with
  | ret a => exact h
  | getThen k ih => exact ih s h
  | setThen g k ih => exact ⟨h.1, ih h.2⟩
  | askThen call k ih => exact ⟨h.1, fun a => ⟨(h.2 a).1, ih _ (h.2 a).2⟩⟩
  | loopThen body b k ihbody ihk =>
    obtain ⟨I, hI, hbody⟩ := h
    refine ⟨I, hI, fun b' s' hb' => ⟨(hbody b' s' hb').1, wp_mono (hbody b' s' hb').2 ?_⟩⟩
    rintro (b'' | c) s'' hr
    · exact hr
    · exact ihk c hr

/-- The rule of a look at the state. -/
theorem wp_get {Q : σ → σ → Prop} (h : Q s s) : Safe C D (get : Prog σ ω σ) Q s := h

/-- The rule of an update, which also has to respect the condition on updates. -/
theorem Safe.modify {g : σ → σ} {Q : Unit → σ → Prop} (h : Q () (g s)) (hD : D (g s)) :
    Safe C D (modify g : Prog σ ω Unit) Q s := ⟨hD, h⟩

/-- The rule of an update without such a condition. -/
theorem wp_modify {g : σ → σ} {Q : Unit → σ → Prop} (h : Q () (g s)) :
    wp C (modify g : Prog σ ω Unit) Q s := Safe.modify h trivial

/-- A call may be the last thing that happens, so the crash condition has to hold before it. -/
theorem Safe.ask {call : σ → ω → α × σ} (hC : C s) (h : ∀ a : ω, Q (call s a).1 (call s a).2)
    (hD : ∀ a : ω, D (call s a).2) : Safe C D (ask call) Q s :=
  ⟨hC, fun a => ⟨hD a, h a⟩⟩

/-- The rule of a question to the environment: the postcondition for every answer. -/
theorem wp_ask {call : σ → ω → α × σ} (hC : C s) (h : ∀ a : ω, Q (call s a).1 (call s a).2) :
    wp C (ask call) Q s := Safe.ask hC h fun _ => trivial

/-- The rule of a test. -/
theorem wp_ite {c : Prop} [Decidable c] {m m' : Prog σ ω α} (h : c → Safe C D m Q s)
    (h' : ¬ c → Safe C D m' Q s) : Safe C D (if c then m else m') Q s := by
  by_cases hc : c
  · rw [if_pos hc]
    exact h hc
  · rw [if_neg hc]
    exact h' hc

/-- Loop rule: an invariant that implies the crash condition and is kept by every iteration that
goes on. -/
theorem wp_iterate {body : β → Prog σ ω (β ⊕ γ)} {R : γ → σ → Prop} (I : β → σ → Prop)
    (hC : ∀ b s, I b s → C s)
    (hbody : ∀ b s, I b s →
      Safe C D (body b) (fun r s' => r.elim (fun b' => I b' s') (fun c => R c s')) s)
    {b : β} (h : I b s) : Safe C D (iterate body b) R s :=
  ⟨I, h, fun b' s' hb' => ⟨hC b' s' hb', hbody b' s' hb'⟩⟩

/-- What the logic says of one run. -/
def Outcome.Sound (C : σ → Prop) (Q : α → σ → Prop) : Outcome σ ω α → Prop
  | .done a s _ => Q a s
  | .waiting s => C s

/-- Sound outcomes in sequence are sound. -/
theorem Outcome.Sound.andThen {R : β → σ → Prop} {o : Outcome σ ω α}
    {f : α → σ → List ω → Outcome σ ω β} (h : o.Sound C Q)
    (hf : ∀ a s tape, Q a s → (f a s tape).Sound C R) : (o.andThen f).Sound C R := by
  cases o with
  | done a s tape => exact hf a s tape h
  | waiting s => exact h

/-- A loop with an invariant is sound, for every bound on its rounds. -/
theorem runLoop_sound {body : β → σ → List ω → Outcome σ ω (β ⊕ γ)} {R : γ → σ → Prop}
    {I : β → σ → Prop} (hC : ∀ b s, I b s → C s)
    (hbody : ∀ b s tape, I b s →
      (body b s tape).Sound C (fun r s' => r.elim (fun b' => I b' s') (fun c => R c s')))
    (n : ℕ) {b : β} {s : σ} (h : I b s) (tape : List ω) : (runLoop body n b s tape).Sound C R := by
  induction n generalizing b s tape with
  | zero => exact hC b s h
  | succ n ih =>
    refine (hbody b s tape h).andThen ?_
    rintro (b' | c) s' tape' hr
    · exact ih hr tape'
    · exact hr

/-- The rules are sound: a program that satisfies them runs soundly on every tape. -/
theorem Safe.run {α : Type} {m : Prog σ ω α} {Q : α → σ → Prop} {s : σ} (h : Safe C D m Q s)
    (tape : List ω) : (m.run s tape).Sound C Q := by
  induction m generalizing s tape with
  | ret a => exact h
  | getThen k ih => exact ih s h tape
  | setThen g k ih => exact ih h.2 tape
  | askThen call k ih =>
    cases tape with
    | nil => exact h.1
    | cons a tape => exact ih _ (h.2 a).2 tape
  | loopThen body b k ihbody ihk =>
    obtain ⟨I, hI, hbody⟩ := h
    have hloop := runLoop_sound (R := fun c s => Safe C D (k c) _ s)
      (fun b' s' hb' => (hbody b' s' hb').1)
      (fun b' s' tape' hb' => ihbody b' (hbody b' s' hb').2 tape') (tape.length + 1) hI tape
    exact hloop.andThen fun c s' tape' hc => ihk c hc tape'

/-- A crash condition that also holds on return holds wherever a run ends. -/
theorem wp_state {m : Prog σ ω α} (h : Safe C D m (fun _ s' => C s') s) (tape : List ω) :
    C (m.run s tape).state := by
  have hrun := h.run tape
  cases hm : m.run s tape with
  | done a s' tape' =>
    rw [hm] at hrun
    exact hrun
  | waiting s' =>
    rw [hm] at hrun
    exact hrun

/-! ## What a program may return -/

/-- Every specification of the program lets it return `a` in `s'` when it starts in `s`. -/
def Returns (m : Prog σ ω α) (s : σ) (a : α) (s' : σ) : Prop :=
  ∀ Q : α → σ → Prop, wp (fun _ => True) m Q s → Q a s'

section Returns

/-- What is left of a specification when nothing is said about the states on the way. -/
theorem Safe.forget {α : Type} {m : Prog σ ω α} {Q : α → σ → Prop} {s : σ} (h : Safe C D m Q s) :
    wp (fun _ => True) m Q s := by
  induction m generalizing s with
  | ret a => exact h
  | getThen k ih => exact ih s h
  | setThen g k ih => exact ⟨trivial, ih h.2⟩
  | askThen call k ih => exact ⟨trivial, fun a => ⟨trivial, ih _ (h.2 a).2⟩⟩
  | loopThen body b k ihbody ihk =>
    obtain ⟨I, hI, hbody⟩ := h
    refine ⟨I, hI, fun b' s' hb' => ⟨trivial, wp_mono (ihbody b' (hbody b' s' hb').2) ?_⟩⟩
    rintro (b'' | c) s'' hr
    · exact hr
    · exact ihk c hr

/-- What a program returns satisfies its postcondition. -/
theorem Returns.spec {m : Prog σ ω α} {a : α} {s' : σ} (h : Returns m s a s')
    (hm : Safe C D m Q s) : Q a s' := h Q hm.forget

/-- One iteration of a loop. -/
theorem wp_loop_body {α β γ : Type} {body : β → Prog σ ω (β ⊕ γ)} {k : γ → Prog σ ω α} {b : β}
    {Q : α → σ → Prop} {s : σ} (h : Safe C D (.loopThen body b k) Q s) :
    Safe C D (body b) (fun r s' => r.elim (fun b' => Safe C D (.loopThen body b' k) Q s')
      fun c => Safe C D (k c) Q s') s := by
  obtain ⟨I, hI, hbody⟩ := h
  refine wp_mono (hbody b s hI).2 ?_
  rintro (b' | c) s' hr
  · exact ⟨I, hr, hbody⟩
  · exact hr

/-- The strongest specification. -/
theorem wp_returns {α : Type} (m : Prog σ ω α) (s : σ) :
    wp (fun _ => True) m (Returns m s) s := by
  induction m generalizing s with
  | ret a => exact fun _ hQ => hQ
  | getThen k ih => exact ih s s
  | setThen g k ih => exact ⟨trivial, wp_mono (ih (g s)) fun a s' h Q hQ => h Q hQ.2⟩
  | askThen call k ih =>
    exact ⟨trivial, fun a => ⟨trivial, wp_mono (ih _ _) fun b s' h Q hQ => h Q (hQ.2 a).2⟩⟩
  | loopThen body b k ihbody ihk =>
    -- the loop stands where whatever is specified of it from the start can still be shown
    refine ⟨fun b' s' => ∀ Q, wp (fun _ => True) (.loopThen body b k) Q s →
      wp (fun _ => True) (.loopThen body b' k) Q s', fun Q hQ => hQ, fun b' s' hI => ⟨trivial, ?_⟩⟩
    refine wp_mono (ihbody b' s') ?_
    rintro (b'' | c) s'' hr
    · exact fun Q hQ => hr _ (wp_loop_body (hI Q hQ))
    · exact wp_mono (ihk c s'') fun a s₁ h Q hQ => h Q (hr _ (wp_loop_body (hI Q hQ)))

end Returns

/-! ## Programs that leave a part of the state alone -/

/-- At every moment of every run of `m`, the part `π` of the state is what it was before, and `m`
returns values in `P`. -/
def Keeps (π : σ → τ) {α : Type} (P : α → Prop) : Prog σ ω α → Prop
  | .ret a => P a
  | .getThen k => ∀ s, Keeps π P (k s)
  | .setThen g k => (∀ s, π (g s) = π s) ∧ Keeps π P k
  | .askThen call k => ∀ s a, π (call s a).2 = π s ∧ Keeps π P (k (call s a).1)
  | .loopThen body _ k => ∀ b, Keeps π (Sum.elim (fun _ => True) fun c => Keeps π P (k c)) (body b)

section Keeps

variable {π : σ → τ} {P : α → Prop}

/-- A program that returns keeps everything. -/
theorem Keeps.pure {a : α} (h : P a) : Keeps π P (Pure.pure a : Prog σ ω α) := h

/-- A weaker condition on the result is kept. -/
theorem Keeps.mono {α : Type} {P P' : α → Prop} {m : Prog σ ω α} (h : Keeps π P m)
    (hP : ∀ a, P a → P' a) : Keeps π P' m := by
  induction m with
  | ret a => exact hP a h
  | getThen k ih => exact fun s => ih s (h s) hP
  | setThen g k ih => exact ⟨h.1, ih h.2 hP⟩
  | askThen call k ih => exact fun s a => ⟨(h s a).1, ih _ (h s a).2 hP⟩
  | loopThen body b k ihbody ihk =>
    refine fun b => ihbody b (h b) ?_
    rintro (b' | c) hr
    · exact hr
    · exact ihk c hr hP

/-- Programs in sequence keep what both of them keep. -/
theorem Keeps.bind {α β : Type} {P : α → Prop} {P' : β → Prop} {m : Prog σ ω α}
    {f : α → Prog σ ω β} (hm : Keeps π P m) (hf : ∀ a, P a → Keeps π P' (f a)) :
    Keeps π P' (m >>= f) := by
  change Keeps π P' (m.bind f)
  induction m with
  | ret a => exact hf a hm
  | getThen k ih => exact fun s => ih s (hm s) hf
  | setThen g k ih => exact ⟨hm.1, ih hm.2 hf⟩
  | askThen call k ih => exact fun s a => ⟨(hm s a).1, ih _ (hm s a).2 hf⟩
  | loopThen body b k ihbody ihk =>
    refine fun b => (hm b).mono ?_
    rintro (b' | c) hr
    · exact hr
    · exact ihk c hr hf

/-- A look at the state keeps it. -/
theorem Keeps.get {P : σ → Prop} (h : ∀ s, P s) : Keeps π P (Prog.get : Prog σ ω σ) := h

/-- An update keeps a view that does not see it. -/
theorem Keeps.modify {g : σ → σ} (h : ∀ s, π (g s) = π s) :
    Keeps π (fun _ => True) (Prog.modify g : Prog σ ω Unit) := ⟨h, trivial⟩

/-- A question keeps a view that sees none of its answers. -/
theorem Keeps.ask {call : σ → ω → α × σ} (h : ∀ s a, π (call s a).2 = π s)
    (hP : ∀ s a, P (call s a).1) : Keeps π P (Prog.ask call) := fun s a => ⟨h s a, hP s a⟩

/-- A test keeps what both branches keep. -/
theorem Keeps.ite {c : Prop} [Decidable c] {m m' : Prog σ ω α} (h : c → Keeps π P m)
    (h' : ¬ c → Keeps π P m') : Keeps π P (if c then m else m') := by
  by_cases hc : c
  · rw [if_pos hc]
    exact h hc
  · rw [if_neg hc]
    exact h' hc

/-- A loop keeps what each of its rounds keeps. -/
theorem Keeps.iterate {body : β → Prog σ ω (β ⊕ γ)} {P : γ → Prop} (b : β)
    (h : ∀ b, Keeps π (Sum.elim (fun _ => True) P) (body b)) :
    Keeps π P (Prog.iterate body b) := h

/-- What a program that leaves `π` alone also leaves alone. -/
theorem Keeps.comp {α : Type} {P : α → Prop} {υ : Type} (f : τ → υ) {m : Prog σ ω α}
    (h : Keeps π P m) : Keeps (f ∘ π) P m := by
  induction m with
  | ret a => exact h
  | getThen k ih => exact fun s => ih s (h s)
  | setThen g k ih => exact ⟨fun s => congrArg f (h.1 s), ih h.2⟩
  | askThen call k ih => exact fun s a => ⟨congrArg f (h s a).1, ih _ (h s a).2⟩
  | loopThen body b k ihbody ihk =>
    refine fun b => (ihbody b (h b)).mono ?_
    rintro (b' | c) hr
    · exact hr
    · exact ihk c hr

/-- A program that leaves `π` alone can be passed by an assertion about `π`. -/
theorem wp_of_keeps {α : Type} {P : α → Prop} {m : Prog σ ω α} {Q : α → σ → Prop} {s : σ}
    (hm : Keeps π P m) (hC : ∀ s', π s' = π s → C s') (hD : ∀ s', π s' = π s → D s')
    (hQ : ∀ a s', P a → π s' = π s → Q a s') : Safe C D m Q s := by
  -- stated for the states that agree with a fixed one, so that the induction goes through
  suffices hfrom : ∀ s', π s' = π s → Safe C D m Q s' from hfrom s rfl
  induction m with
  | ret a => exact fun s' hs' => hQ a s' hm hs'
  | getThen k ih => exact fun s' hs' => ih s' (hm s') hQ s' hs'
  | setThen g k ih =>
    intro s' hs'
    have hg : π (g s') = π s := (hm.1 s').trans hs'
    exact ⟨hD _ hg, ih hm.2 hQ _ hg⟩
  | askThen call k ih =>
    intro s' hs'
    refine ⟨hC s' hs', fun a => ?_⟩
    have hcall : π (call s' a).2 = π s := (hm s' a).1.trans hs'
    exact ⟨hD _ hcall, ih _ (hm s' a).2 hQ _ hcall⟩
  | loopThen body b k ihbody ihk =>
    intro s' hs'
    refine ⟨fun _ s'' => π s'' = π s, hs', fun b' s'' hs'' => ⟨hC s'' hs'', ?_⟩⟩
    refine ihbody b' (hm b') ?_ s'' hs''
    rintro (b'' | c) s₁ hr hs₁
    · exact hs₁
    · exact ihk c hr hQ s₁ hs₁

/-- What a program returns in any case can be added to its specification. -/
theorem Safe.and_keeps {α : Type} {P : α → Prop} {m : Prog σ ω α} {Q : α → σ → Prop} {s : σ}
    (h : Safe C D m Q s) (hm : Keeps π P m) : Safe C D m (fun a s' => Q a s' ∧ P a) s := by
  induction m generalizing s with
  | ret a => exact ⟨h, hm⟩
  | getThen k ih => exact ih s h (hm s)
  | setThen g k ih => exact ⟨h.1, ih h.2 hm.2⟩
  | askThen call k ih => exact ⟨h.1, fun a => ⟨(h.2 a).1, ih _ (h.2 a).2 (hm s a).2⟩⟩
  | loopThen body b k ihbody ihk =>
    obtain ⟨I, hI, hbody⟩ := h
    refine ⟨I, hI, fun b' s' hb' => ⟨(hbody b' s' hb').1, ?_⟩⟩
    refine wp_mono (ihbody b' (hbody b' s' hb').2 (hm b')) ?_
    rintro (b'' | c) s'' hr
    · exact hr.1
    · exact ihk c hr.1 hr.2

end Keeps

/-! ## Runs on answers of a kind -/

/-- The tape that a run leaves is the end of the one it started with. -/
def Outcome.LeftFrom (tape : List ω) : Outcome σ ω α → Prop
  | .done _ _ rest => rest <:+ tape
  | .waiting _ => True

/-- What is left of a tape after two outcomes is a rest of it. -/
theorem Outcome.LeftFrom.andThen {o : Outcome σ ω α} {f : α → σ → List ω → Outcome σ ω β}
    {tape : List ω} (h : o.LeftFrom tape) (hf : ∀ a s rest, (f a s rest).LeftFrom rest) :
    (o.andThen f).LeftFrom tape := by
  cases o with
  | done a s rest =>
    have hrest := hf a s rest
    change (f a s rest).LeftFrom tape
    cases hrun : f a s rest with
    | done b s' rest' =>
      rw [hrun] at hrest
      exact List.IsSuffix.trans hrest h
    | waiting s' => trivial
  | waiting s => trivial

/-- What a loop leaves of a tape is a rest of it. -/
theorem runLoop_leftFrom {body : β → σ → List ω → Outcome σ ω (β ⊕ γ)}
    (hbody : ∀ b s tape, (body b s tape).LeftFrom tape) (n : ℕ) (b : β) (s : σ) (tape : List ω) :
    (runLoop body n b s tape).LeftFrom tape := by
  induction n generalizing b s tape with
  | zero => trivial
  | succ n ih =>
    refine (hbody b s tape).andThen ?_
    rintro (b' | c) s' rest
    · exact ih b' s' rest
    · exact List.suffix_refl rest

/-- What a program leaves of a tape is a rest of it. -/
theorem run_leftFrom {α : Type} (m : Prog σ ω α) (s : σ) (tape : List ω) :
    (m.run s tape).LeftFrom tape := by
  induction m generalizing s tape with
  | ret a => exact List.suffix_refl tape
  | getThen k ih => exact ih s s tape
  | setThen g k ih => exact ih (g s) tape
  | askThen call k ih =>
    cases tape with
    | nil => trivial
    | cons a tape =>
      have hrest := ih (call s a).1 (call s a).2 tape
      change ((k (call s a).1).run (call s a).2 tape).LeftFrom (a :: tape)
      cases hrun : (k (call s a).1).run (call s a).2 tape with
      | done b s' rest =>
        rw [hrun] at hrest
        exact List.IsSuffix.trans hrest (List.suffix_cons a tape)
      | waiting s' => trivial
  | loopThen body b k ihbody ihk =>
    exact (runLoop_leftFrom ihbody (tape.length + 1) b s tape).andThen ihk

/-- From `s`, every run of `m` whose answers are all in `A` and that returns does so in `Q`. -/
def Ends (A : ω → Prop) (m : Prog σ ω α) (Q : α → σ → Prop) (s : σ) : Prop :=
  ∀ tape, (∀ a ∈ tape, A a) → ∀ r s' rest, m.run s tape = .done r s' rest → Q r s'

section Ends

variable {A : ω → Prop}

/-- What holds for all answers holds for those in a set. -/
theorem Safe.ends {m : Prog σ ω α} (h : Safe C D m Q s) : Ends A m Q s := by
  intro tape _ r s' rest hrun
  have hsound := h.run tape
  rw [hrun] at hsound
  exact hsound

/-- A program that returns ends at once. -/
theorem Ends.pure {a : α} (h : Q a s) : Ends A (Pure.pure a) Q s :=
  Safe.ends (wp_pure (C := fun _ => True) (D := fun _ => True) h)

/-- It ends with a weaker postcondition too. -/
theorem Ends.mono {R : α → σ → Prop} {m : Prog σ ω α} (h : Ends A m Q s)
    (hQR : ∀ a s', Q a s' → R a s') : Ends A m R s :=
  fun tape htape r s' rest hrun => hQR r s' (h tape htape r s' rest hrun)

/-- Programs in sequence end when each of them does. -/
theorem Ends.bind {m : Prog σ ω α} {f : α → Prog σ ω β} {R : β → σ → Prop}
    (h : Ends A m (fun a => Ends A (f a) R) s) : Ends A (m >>= f) R s := by
  intro tape htape r s' rest hrun
  rw [run_bind] at hrun
  cases hm : m.run s tape with
  | done a s₁ rest₁ =>
    rw [hm] at hrun
    have hleft := run_leftFrom m s tape
    rw [hm] at hleft
    have hsuffix : rest₁ <:+ tape := hleft
    exact h tape htape a s₁ rest₁ hm rest₁ (fun b hb => htape b (hsuffix.subset hb)) r s' rest hrun
  | waiting s₁ =>
    rw [hm] at hrun
    exact nomatch hrun

/-- The answer to a call is of the kind. -/
theorem Ends.ask {call : σ → ω → α × σ} (h : ∀ a, A a → Q (call s a).1 (call s a).2) :
    Ends A (Prog.ask call) Q s := by
  intro tape htape r s' rest hrun
  cases tape with
  | nil => exact nomatch hrun
  | cons a tape =>
    obtain ⟨rfl, rfl, -⟩ := Outcome.done.inj hrun
    exact h a (htape a List.mem_cons_self)

/-- A test ends when its branch does. -/
theorem Ends.ite {c : Prop} [Decidable c] {m m' : Prog σ ω α} (h : c → Ends A m Q s)
    (h' : ¬ c → Ends A m' Q s) : Ends A (if c then m else m') Q s := by
  by_cases hc : c
  · rw [if_pos hc]
    exact h hc
  · rw [if_neg hc]
    exact h' hc

/-- A program that leaves `π` alone can be passed by an assertion about `π`. -/
theorem Keeps.ends {π : σ → τ} {P : α → Prop} {m : Prog σ ω α} (h : Keeps π P m)
    (hQ : ∀ a s', P a → π s' = π s → Q a s') : Ends A m Q s :=
  Safe.ends (C := fun _ => True) (D := fun _ => True)
    (wp_of_keeps h (fun _ _ => trivial) (fun _ _ => trivial) hQ)

end Ends

/-! ## Programs that do the same -/

section Matches

variable {σ' α' β' γ' : Type} {RS : σ → σ' → Prop}

/-- Two runs end the same way, up to the relations, with the same tape left. -/
def Outcome.Matches (RS : σ → σ' → Prop) (RA : α → α' → Prop) :
    Outcome σ ω α → Outcome σ' ω α' → Prop
  | .done a s rest, .done a' s' rest' => RA a a' ∧ RS s s' ∧ rest = rest'
  | .waiting s, .waiting s' => RS s s'
  | _, _ => False

/-- On every tape the programs make as many calls and end the same way, up to the relations. -/
def Matches (RS : σ → σ' → Prop) (RA : α → α' → Prop) (m : Prog σ ω α) (m' : Prog σ' ω α') : Prop :=
  ∀ s s' tape, RS s s' → (m.run s tape).Matches RS RA (m'.run s' tape)

/-- Outcomes in sequence match when their parts do. -/
theorem Outcome.Matches.andThen {RA : α → α' → Prop} {RB : β → β' → Prop} {o : Outcome σ ω α}
    {o' : Outcome σ' ω α'} {f : α → σ → List ω → Outcome σ ω β}
    {f' : α' → σ' → List ω → Outcome σ' ω β'} (h : o.Matches RS RA o')
    (hf : ∀ a a' s s' tape, RA a a' → RS s s' → (f a s tape).Matches RS RB (f' a' s' tape)) :
    (o.andThen f).Matches RS RB (o'.andThen f') := by
  cases o with
  | done a s rest =>
    cases o' with
    | done a' s' rest' =>
      obtain ⟨ha, hs, rfl⟩ := h
      exact hf a a' s s' rest ha hs
    | waiting s' => exact False.elim h
  | waiting s =>
    cases o' with
    | done a' s' rest' => exact False.elim h
    | waiting s' => exact h

/-- Outcomes match for a weaker relation of their results. -/
theorem Outcome.Matches.mono {RA RA' : α → α' → Prop} {o : Outcome σ ω α} {o' : Outcome σ' ω α'}
    (h : o.Matches RS RA o') (hRA : ∀ a a', RA a a' → RA' a a') : o.Matches RS RA' o' := by
  cases o with
  | done a s rest =>
    cases o' with
    | done a' s' rest' => exact ⟨hRA a a' h.1, h.2⟩
    | waiting s' => exact False.elim h
  | waiting s =>
    cases o' with
    | done a' s' rest' => exact False.elim h
    | waiting s' => exact h

/-- Programs that return match when their results do. -/
theorem Matches.pure {RA : α → α' → Prop} {a : α} {a' : α'} (h : RA a a') :
    Matches RS RA (Pure.pure a : Prog σ ω α) (Pure.pure a') := fun _ _ _ hs => ⟨h, hs, rfl⟩

/-- Programs in sequence match when their parts do. -/
theorem Matches.bind {RA : α → α' → Prop} {RB : β → β' → Prop} {m : Prog σ ω α}
    {m' : Prog σ' ω α'} {f : α → Prog σ ω β} {f' : α' → Prog σ' ω β'} (h : Matches RS RA m m')
    (hf : ∀ a a', RA a a' → Matches RS RB (f a) (f' a')) :
    Matches RS RB (m >>= f) (m' >>= f') := by
  intro s s' tape hs
  rw [run_bind, run_bind]
  exact (h s s' tape hs).andThen fun a a' s₁ s₁' rest ha hs₁ => hf a a' ha s₁ s₁' rest hs₁

/-- The second program goes on where the first returns. -/
theorem Matches.bind_right {RA : α → α' → Prop} {RB : α → β' → Prop} {m : Prog σ ω α}
    {m' : Prog σ' ω α'} {f' : α' → Prog σ' ω β'} (h : Matches RS RA m m')
    (hf : ∀ a a', RA a a' → Matches RS RB (Pure.pure a) (f' a')) : Matches RS RB m (m' >>= f') := by
  intro s s' tape hs
  have hreturn : (m.run s tape).andThen (fun a => (Pure.pure a : Prog σ ω α).run) =
    m.run s tape := by
    cases m.run s tape <;> rfl
  rw [run_bind, ← hreturn]
  exact (h s s' tape hs).andThen fun a a' s₁ s₁' rest ha hs₁ => hf a a' ha s₁ s₁' rest hs₁

/-- A change of the state that the relation does not see. -/
theorem Matches.modify_bind {RB : β → β' → Prop} {g : σ → σ} {f : Unit → Prog σ ω β}
    {m' : Prog σ' ω β'} (hg : ∀ s s', RS s s' → RS (g s) s') (hf : Matches RS RB (f ()) m') :
    Matches RS RB (Prog.modify g >>= f) m' := fun s s' tape hs => hf (g s) s' tape (hg s s' hs)

/-- Questions match when their updates do, for every answer. -/
theorem Matches.ask {RA : α → α' → Prop} {call : σ → ω → α × σ} {call' : σ' → ω → α' × σ'}
    (h : ∀ s s' a, RS s s' → RA (call s a).1 (call' s' a).1 ∧ RS (call s a).2 (call' s' a).2) :
    Matches RS RA (Prog.ask call) (Prog.ask call') := by
  intro s s' tape hs
  cases tape with
  | nil => exact hs
  | cons a tape => exact ⟨(h s s' a hs).1, (h s s' a hs).2, rfl⟩

/-- A program matches itself. -/
theorem Matches.refl (m : Prog σ ω α) : Matches Eq Eq m m := by
  rintro s _ tape rfl
  cases m.run s tape with
  | done a s' rest => exact ⟨rfl, rfl, rfl⟩
  | waiting s' => exact rfl

/-- Tests of one condition match when their branches do. -/
theorem Matches.ite {RA : α → α' → Prop} {c : Prop} [Decidable c] {m₁ m₂ : Prog σ ω α}
    {m₁' m₂' : Prog σ' ω α'} (h : c → Matches RS RA m₁ m₁') (h' : ¬ c → Matches RS RA m₂ m₂') :
    Matches RS RA (if c then m₁ else m₂) (if c then m₁' else m₂') := by
  by_cases hc : c
  · rw [if_pos hc, if_pos hc]
    exact h hc
  · rw [if_neg hc, if_neg hc]
    exact h' hc

/-- Loops whose iterations do the same. -/
theorem Matches.iterate {RB : β → β' → Prop} {RC : γ → γ' → Prop} {body : β → Prog σ ω (β ⊕ γ)}
    {body' : β' → Prog σ' ω (β' ⊕ γ')}
    (hbody : ∀ b b', RB b b' → Matches RS (Sum.LiftRel RB RC) (body b) (body' b')) {b : β} {b' : β'}
    (hb : RB b b') : Matches RS RC (Prog.iterate body b) (Prog.iterate body' b') := by
  intro s s' tape hs
  -- the iterations stay in step as far as the bound goes
  have hloop : ∀ n b b' s s' tape, RB b b' → RS s s' →
      (runLoop (fun b => (body b).run) n b s tape).Matches RS RC
        (runLoop (fun b => (body' b).run) n b' s' tape) := by
    intro n
    induction n with
    | zero => exact fun _ _ _ _ _ _ hs => hs
    | succ n ih =>
      intro b b' s s' tape hb hs
      refine (hbody b b' hb s s' tape hs).andThen ?_
      intro r r' s₁ s₁' rest hr hs₁
      cases hr with
      | inl hb₁ => exact ih _ _ s₁ s₁' rest hb₁ hs₁
      | inr hc => exact ⟨hc, hs₁, rfl⟩
  refine (hloop (tape.length + 1) b b' s s' tape hb hs).andThen ?_
  exact fun c c' s₁ s₁' rest hc hs₁ => ⟨hc, hs₁, rfl⟩

end Matches

/-! ## Programs that depend on a part of the state -/

/-- The program reads the state through `π` only, and keeps states alike that are alike in `π`. -/
def Sees (π : σ → τ) {α : Type} : Prog σ ω α → Prop
  | .ret _ => True
  | .getThen k => (∀ s s', π s = π s' → k s = k s') ∧ ∀ s, Sees π (k s)
  | .setThen g k => (∀ s s', π s = π s' → π (g s) = π (g s')) ∧ Sees π k
  | .askThen call k => (∀ s s' a, π s = π s' →
      (call s a).1 = (call s' a).1 ∧ π (call s a).2 = π (call s' a).2) ∧ ∀ b, Sees π (k b)
  | .loopThen body _ k => (∀ b, Sees π (body b)) ∧ ∀ c, Sees π (k c)

section Sees

variable {π : σ → τ}

/-- A program that returns looks at nothing. -/
theorem Sees.pure {a : α} : Sees π (Pure.pure a : Prog σ ω α) := trivial

/-- Programs in sequence look at no more than their parts. -/
theorem Sees.bind {α β : Type} {m : Prog σ ω α} {f : α → Prog σ ω β} (hm : Sees π m)
    (hf : ∀ a, Sees π (f a)) : Sees π (m >>= f) := by
  change Sees π (m.bind f)
  induction m with
  | ret a => exact hf a
  | getThen k ih =>
    exact ⟨fun s s' hs => congrArg (fun m => Prog.bind m f) (hm.1 s s' hs),
      fun s => ih s (hm.2 s) hf⟩
  | setThen g k ih => exact ⟨hm.1, ih hm.2 hf⟩
  | askThen call k ih => exact ⟨hm.1, fun b => ih b (hm.2 b) hf⟩
  | loopThen body b k ihbody ihk => exact ⟨hm.1, fun c => ihk c (hm.2 c) hf⟩

/-- Reading something that `π` determines. -/
theorem Sees.read {f : σ → α} (h : ∀ s s', π s = π s' → f s = f s') :
    Sees π (do let s ← Prog.get; return f s : Prog σ ω α) :=
  ⟨fun s s' hs => congrArg Prog.ret (h s s' hs), fun _ => trivial⟩

/-- An update whose visible effect depends on the view sees no more than it. -/
theorem Sees.modify {g : σ → σ} (h : ∀ s s', π s = π s' → π (g s) = π (g s')) :
    Sees π (Prog.modify g : Prog σ ω Unit) := ⟨h, trivial⟩

/-- So does a question. -/
theorem Sees.ask {call : σ → ω → α × σ} (h : ∀ s s' a, π s = π s' →
    (call s a).1 = (call s' a).1 ∧ π (call s a).2 = π (call s' a).2) : Sees π (Prog.ask call) :=
  ⟨h, fun _ => trivial⟩

/-- A test sees no more than its branches. -/
theorem Sees.ite {c : Prop} [Decidable c] {m m' : Prog σ ω α} (h : c → Sees π m)
    (h' : ¬ c → Sees π m') : Sees π (if c then m else m') := by
  by_cases hc : c
  · rw [if_pos hc]
    exact h hc
  · rw [if_neg hc]
    exact h' hc

/-- A loop sees no more than its rounds. -/
theorem Sees.iterate {body : β → Prog σ ω (β ⊕ γ)} (b : β) (h : ∀ b, Sees π (body b)) :
    Sees π (Prog.iterate body b) := ⟨h, fun _ => trivial⟩

/-- Two runs of the program from states that are alike in `π` are alike. -/
theorem Sees.matches {α : Type} {m : Prog σ ω α} (h : Sees π m) :
    Matches (fun s s' => π s = π s') Eq m m := by
  -- the program reads only what the view shows, so both runs answer alike
  induction m with
  | ret a => exact Matches.pure rfl
  | getThen k ih =>
    intro s s' tape hs
    have hk : (Prog.getThen k).run s' tape = (k s).run s' tape := by rw [h.1 s s' hs]; rfl
    rw [hk]
    exact ih s (h.2 s) s s' tape hs
  | setThen g k ih => exact fun s s' tape hs => ih h.2 (g s) (g s') tape (h.1 s s' hs)
  | askThen call k ih =>
    intro s s' tape hs
    cases tape with
    | nil => exact hs
    | cons a tape =>
      obtain ⟨hresult, hstate⟩ := h.1 s s' a hs
      have hk : (Prog.askThen call k).run s' (a :: tape) =
          (k (call s a).1).run (call s' a).2 tape := by rw [hresult]; rfl
      rw [hk]
      exact ih _ (h.2 _) _ _ tape hstate
  | loopThen body b k ihbody ihk =>
    have hloop : Matches (fun s s' => π s = π s') Eq (Prog.iterate body b)
      (Prog.iterate body b) := by
      have hbody : ∀ b b', b = b' →
          Matches (fun s s' => π s = π s') (Sum.LiftRel Eq Eq) (body b) (body b') := by
        rintro b _ rfl s s' tape hs
        refine (ihbody b (h.1 b) s s' tape hs).mono ?_
        rintro r _ rfl
        cases r with
        | inl b' => exact .inl rfl
        | inr c => exact .inr rfl
      exact Matches.iterate hbody rfl
    refine Matches.bind (m := Prog.iterate body b) (f := k) hloop ?_
    rintro c _ rfl
    exact ihk c (h.2 c)

end Sees

/-! ## Programs on a component of the state -/

/-- The program on the first component of the state, by the first component of the answers. -/
def Prog.onFst {υ : Type} {α : Type} : Prog σ ω α → Prog (σ × τ) (ω × υ) α
  | .ret a => .ret a
  | .getThen k => .getThen fun s => (k s.1).onFst
  | .setThen g k => .setThen (fun s => (g s.1, s.2)) k.onFst
  | .askThen call k =>
    .askThen (fun s a => ((call s.1 a.1).1, (call s.1 a.1).2, s.2)) fun b => (k b).onFst
  | .loopThen body b k => .loopThen (fun b => (body b).onFst) b fun c => (k c).onFst

/-- What a program does on the first component, it does with the second one left alone. -/
theorem Safe.onFst {υ : Type} {α : Type} {C' D' : σ × τ → Prop} {m : Prog σ ω α}
    {Q : α → σ → Prop} {s : σ} {t : τ} (h : Safe C D m Q s) (hC : ∀ s', C s' → C' (s', t))
    (hD : ∀ s', D s' → D' (s', t)) : Safe C' D' (m.onFst : Prog (σ × τ) (ω × υ) α)
      (fun a s' => Q a s'.1 ∧ s'.2 = t) (s, t) := by
  induction m generalizing s with
  | ret a => exact ⟨h, rfl⟩
  | getThen k ih => exact ih s h
  | setThen g k ih => exact ⟨hD _ h.1, ih h.2⟩
  | askThen call k ih => exact ⟨hC s h.1, fun a => ⟨hD _ (h.2 a.1).1, ih _ (h.2 a.1).2⟩⟩
  | loopThen body b k ihbody ihk =>
    obtain ⟨I, hI, hbody⟩ := h
    refine ⟨fun b s' => I b s'.1 ∧ s'.2 = t, ⟨hI, rfl⟩, ?_⟩
    rintro b' ⟨s', _⟩ ⟨hb', rfl⟩
    refine ⟨hC s' (hbody b' s' hb').1, wp_mono (ihbody b' (hbody b' s' hb').2) ?_⟩
    rintro (b'' | c) ⟨s'', _⟩ ⟨hr, rfl⟩
    · exact ⟨hr, rfl⟩
    · exact ihk c hr

end TapeProgram
