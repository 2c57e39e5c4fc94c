import CLogger.Lib.Concurrent
import CLogger.Lib.TapeProgram

/-!
# Rely-guarantee reasoning

A proof system for the threads of `Concurrent`, in which what a thread knows is an assertion about
the shared state. A `Logic` fixes an invariant, a relation `Guar` that every step satisfies, and for
every thread `t` a relation `Rely t` that the steps of all other threads satisfy. An assertion of
`t` has to be stable under both; an operation of `t` has to keep the invariant, to satisfy `Guar`,
and to satisfy what the others rely on.

* `Logic.Triple t P c Q`: from states in `P`, thread `t` can run `c` and ends in `Q`.
* `Logic.sound`: the invariant and what is known at each label hold in every reachable state, and
  every step satisfies what the other threads rely on.
* `Code.embed` runs a sequential program over a part of the state, one step at a time;
  `triple_embed` carries what a Hoare proof says about it over to a thread that has that part of
  the state to itself; `triple_run` is for programs of which nothing is specified.
-/

namespace Concurrent

open TapeProgram

variable {σ ω Λ ι κ τ : Type}

/-- The setting of a rely-guarantee proof. -/
structure Logic (σ ω Λ ι : Type) where
  Inv : σ → Prop
  /-- What every step satisfies. -/
  Guar : σ → σ → Prop
  guar_refl : ∀ s, Guar s s
  guar_trans : ∀ {s s' s''}, Guar s s' → Guar s' s'' → Guar s s''
  /-- What the steps of the other threads satisfy. -/
  Rely : ι → σ → σ → Prop
  rely_refl : ∀ t s, Rely t s s
  rely_trans : ∀ {t s s' s''}, Rely t s s' → Rely t s' s'' → Rely t s s''
  /-- What is known when a thread stands at a label. -/
  At : ι → Λ → σ → Prop
  /-- The steps that the proof is about. -/
  ok : σ → ι → ω → σ → Prop

namespace Logic

variable {M : Logic σ ω Λ ι} {t : ι}

/-- What a thread sees of the steps of the others; `none` is an onlooker that takes no steps. -/
def Sees (M : Logic σ ω Λ ι) : Option ι → σ → σ → Prop
  | none => M.Guar
  | some t => fun s s' => M.Guar s s' ∧ M.Rely t s s'

theorem sees_refl (v : Option ι) (s : σ) : M.Sees v s s := by
  cases v with
  | none => exact M.guar_refl s
  | some t => exact ⟨M.guar_refl s, M.rely_refl t s⟩

theorem sees_trans {v : Option ι} {s s' s'' : σ} (h : M.Sees v s s') (h' : M.Sees v s' s'') :
    M.Sees v s s'' := by
  cases v with
  | none => exact M.guar_trans h h'
  | some t => exact ⟨M.guar_trans h.1 h'.1, M.rely_trans h.2 h'.2⟩

/-- The others cannot make the assertion false. -/
def StableFor (M : Logic σ ω Λ ι) (v : Option ι) (P : σ → Prop) : Prop :=
  ∀ s s', M.Sees v s s' → P s → P s'

/-- The other threads cannot make the assertion of thread `t` false. -/
abbrev Stable (M : Logic σ ω Λ ι) (t : ι) (P : σ → Prop) : Prop := M.StableFor (some t) P

/-- The invariant, with an assertion for every thread and for the onlooker. -/
def Agree (M : Logic σ ω Λ ι) (s : σ) (L : Option ι → σ → Prop) : Prop :=
  M.Inv s ∧ ∀ v, L v s ∧ M.StableFor v (L v)

/-- The side condition on steps, for the threads among the viewers. -/
def okFor (M : Logic σ ω Λ ι) (s : σ) (v : Option ι) (a : ω) (s' : σ) : Prop :=
  ∀ t ∈ v, M.ok s t a s'

/-- The assertion gives what is to be known at the label. -/
def Stands (M : Logic σ ω Λ ι) (t : ι) (P : σ → Prop) (label : Λ) : Prop :=
  ∀ s, M.Inv s → P s → M.At t label s

variable [DecidableEq ι]

/-- From every stable assertion that implies `P`, thread `t` can run the program and end in a
stable assertion that implies `Q`. -/
def Triple (M : Logic σ ω Λ ι) (t : ι) {α : Type} (P : σ → Prop) (c : Code σ ω Λ α)
    (Q : α → σ → Prop) : Prop :=
  ∀ P₀, M.Stable t P₀ → (∀ s, M.Inv s → P₀ s → P s) →
    Verified M.Agree (M.Stands t) M.okFor (some t) c P₀
      fun a P' => M.Stable t P' ∧ ∀ s, M.Inv s → P' s → Q a s

/-! ## Rules -/

theorem triple_pure {α : Type} {P : σ → Prop} {a : α} {Q : α → σ → Prop}
    (h : ∀ s, M.Inv s → P s → Q a s) : M.Triple t P (pure a : Code σ ω Λ α) Q :=
  fun _ hstable hP => ⟨hstable, fun s hs hs₀ => h s hs (hP s hs hs₀)⟩

theorem Triple.conseq {α : Type} {P P' : σ → Prop} {c : Code σ ω Λ α} {Q Q' : α → σ → Prop}
    (h : M.Triple t P c Q) (hpre : ∀ s, M.Inv s → P' s → P s)
    (hpost : ∀ a s, M.Inv s → Q a s → Q' a s) : M.Triple t P' c Q' := by
  intro P₀ hstable hP
  refine (h P₀ hstable fun s hs hs₀ => hpre s hs (hP s hs hs₀)).mono ?_
  rintro a P₁ ⟨hstable₁, hQ⟩
  exact ⟨hstable₁, fun s hs hs₁ => hpost a s hs (hQ s hs hs₁)⟩

theorem Triple.pre {α : Type} {P P' : σ → Prop} {c : Code σ ω Λ α} {Q : α → σ → Prop}
    (h : M.Triple t P c Q) (hpre : ∀ s, M.Inv s → P' s → P s) : M.Triple t P' c Q :=
  h.conseq hpre fun _ _ _ hQ => hQ

theorem Triple.post {α : Type} {P : σ → Prop} {c : Code σ ω Λ α} {Q Q' : α → σ → Prop}
    (h : M.Triple t P c Q) (hpost : ∀ a s, M.Inv s → Q a s → Q' a s) : M.Triple t P c Q' :=
  h.conseq (fun _ _ hP => hP) hpost

theorem Triple.bind {α β : Type} {P : σ → Prop} {c : Code σ ω Λ α} {f : α → Code σ ω Λ β}
    {Q : α → σ → Prop} {R : β → σ → Prop} (h : M.Triple t P c Q)
    (hf : ∀ a, M.Triple t (Q a) (f a) R) : M.Triple t P (c >>= f) R := by
  intro P₀ hstable hP
  refine Verified.bind ((h P₀ hstable hP).mono ?_)
  rintro a P₁ ⟨hstable₁, hQ⟩
  exact hf a P₁ hstable₁ hQ

theorem triple_ite {α : Type} {P : σ → Prop} {p : Prop} [Decidable p] {c c' : Code σ ω Λ α}
    {Q : α → σ → Prop} (h : p → M.Triple t P c Q) (h' : ¬ p → M.Triple t P c' Q) :
    M.Triple t P (if p then c else c') Q :=
  fun P₀ hstable hP => Verified.ite (fun hp => h hp P₀ hstable hP) fun hp => h' hp P₀ hstable hP

/-- An operation keeps the invariant, satisfies what every step has to and what the others rely on,
and ends in a stable assertion. -/
theorem triple_atomic {α : Type} {P : σ → Prop} {label : Λ} {act : σ → ω → Option (α × σ)}
    {Q : α → σ → Prop} (hat : ∀ s, M.Inv s → P s → M.At t label s)
    (hstable : ∀ b, M.Stable t (Q b))
    (h : ∀ s a b s', M.Inv s → P s → act s a = some (b, s') → M.ok s t a s' →
      M.Inv s' ∧ M.Guar s s' ∧ (∀ u, u ≠ t → M.Rely u s s') ∧ Q b s') :
    M.Triple t P (Code.atomic label act) Q := by
  intro P₀ hstable₀ hP
  refine Verified.atomic (fun s hs hs₀ => hat s hs (hP s hs hs₀)) ?_
  intro s L a b s' hl hJ hact hok
  have hs₀ : P₀ s := hl ▸ (hJ.2 (some t)).1
  obtain ⟨hinv, hguar, hrely, hQ⟩ := h s a b s' hJ.1 (hP s hJ.1 hs₀) hact (hok t rfl)
  refine ⟨Q b, ⟨hinv, fun v => ?_⟩, hstable b, fun _ _ hq => hq⟩
  by_cases hv : v = some t
  · subst hv
    rw [Function.update_self]
    exact ⟨hQ, hstable b⟩
  · rw [Function.update_of_ne hv]
    refine ⟨(hJ.2 v).2 s s' ?_ (hJ.2 v).1, (hJ.2 v).2⟩
    cases v with
    | none => exact hguar
    | some u => exact ⟨hguar, hrely u fun hu => hv (congrArg some hu)⟩

theorem triple_iterate {β γ : Type} {label : Λ} {body : β → Code σ ω Λ (β ⊕ γ)} {b : β}
    {Q : γ → σ → Prop} (I : β → σ → Prop) (hat : ∀ b s, M.Inv s → I b s → M.At t label s)
    (hbody : ∀ b, M.Triple t (I b) (body b) fun r s =>
      r.elim (fun b' => I b' s) (fun c => Q c s)) :
    M.Triple t (I b) (Code.iterate label body b) Q := by
  intro P₀ hstable hP
  refine Verified.iterate (fun b l => M.Stable t l ∧ ∀ s, M.Inv s → l s → I b s) ⟨hstable, hP⟩
    (fun b l hl s hs hls => hat b s hs (hl.2 s hs hls)) ?_
  rintro b l ⟨hl, hI⟩
  refine (hbody b l hl hI).mono ?_
  rintro (b' | c) l' hr
  · exact hr
  · exact hr

/-- An assertion may be split into cases, also by values that depend on the state. -/
theorem verified_of_exists {X : Type} {P₀ : σ → Prop} {P : X → σ → Prop} {α : Type}
    {c : Code σ ω Λ α} {Q : α → (σ → Prop) → Prop} {W : X → α → (σ → Prop) → Prop}
    (hstable : ∀ x, M.Stable t (P x)) (hex : ∀ s, M.Inv s → P₀ s → ∃ x, P x s)
    (hmono : ∀ x a l, W x a l → Q a l) (hret : ∀ a, (∀ x, W x a (P x)) → Q a P₀)
    (h : ∀ x, Verified M.Agree (M.Stands t) M.okFor (some t) c (P x) (W x)) :
    Verified M.Agree (M.Stands t) M.okFor (some t) c P₀ Q := by
  induction c with
  | ret a => exact hret a h
  | op label act k ih =>
    -- an operation finds its witness in the state before it
    refine ⟨fun s hs hs₀ => ?_, fun s L a b s' hl hJ hact hok => ?_⟩
    · obtain ⟨x, hx⟩ := hex s hs hs₀
      exact (h x).1 s hs hx
    · obtain ⟨x, hx⟩ := hex s hJ.1 (hl ▸ (hJ.2 (some t)).1)
      have hJ' : M.Agree s (Function.update L (some t) (P x)) := by
        refine ⟨hJ.1, fun v => ?_⟩
        by_cases hv : v = some t
        · subst hv
          rw [Function.update_self]
          exact ⟨hx, hstable x⟩
        · rw [Function.update_of_ne hv]
          exact hJ.2 v
      obtain ⟨l', hl', hk⟩ := (h x).2 s _ a b s' (Function.update_self _ _ _) hJ' hact hok
      rw [Function.update_idem] at hl'
      exact ⟨l', hl', hk.mono (hmono x)⟩
  | loop label body b k ihbody ihk =>
    -- the loop may still be in the state it began with, so both cases go into its invariant
    choose I hI hbody using h
    refine ⟨fun b' l' => (∃ x, I x b' l') ∨ l' = P₀ ∧ ∀ x, I x b' (P x), .inr ⟨rfl, hI⟩, ?_⟩
    rintro b' l' (⟨x, hx⟩ | ⟨rfl, hx⟩)
    · refine ⟨(hbody x b' l' hx).1, (hbody x b' l' hx).2.mono ?_⟩
      rintro (b'' | c) l'' hr
      · exact .inl ⟨x, hr⟩
      · exact hr.mono (hmono x)
    · refine ⟨fun s hs hs₀ => ?_, ?_⟩
      · obtain ⟨x, hxs⟩ := hex s hs hs₀
        exact (hbody x b' _ (hx x)).1 s hs hxs
      · refine ihbody b' ?_ ?_ fun x => (hbody x b' _ (hx x)).2
        · rintro x (b'' | c) l'' hr
          · exact .inl ⟨x, hr⟩
          · exact hr.mono (hmono x)
        · rintro (b'' | c) hr
          · exact .inr ⟨rfl, hr⟩
          · exact ihk c hmono hret hr

/-- The state before a program may be named; the others lead from it to what the program finds. -/
theorem triple_snapshot {α : Type} {P : σ → Prop} {c : Code σ ω Λ α} {Q : α → σ → Prop}
    (h : ∀ s₀, M.Inv s₀ → P s₀ → M.Triple t (fun s => P s ∧ M.Sees (some t) s₀ s) c Q) :
    M.Triple t P c Q := by
  intro P₀ hstable hP
  refine verified_of_exists (X := { s₀ // M.Inv s₀ ∧ P₀ s₀ })
    (P := fun s₀ s => P₀ s ∧ M.Sees (some t) s₀ s)
    (W := fun _ a P' => M.Stable t P' ∧ ∀ s, M.Inv s → P' s → Q a s) ?_ ?_ (fun _ _ _ hQ => hQ)
    ?_ ?_
  · exact fun s₀ s s' hrely hs => ⟨hstable s s' hrely hs.1, sees_trans hs.2 hrely⟩
  · exact fun s hs hs₀ => ⟨⟨s, hs, hs₀⟩, hs₀, sees_refl _ s⟩
  · refine fun a ha => ⟨hstable, fun s hs hs₀ => ?_⟩
    exact (ha ⟨s, hs, hs₀⟩).2 s hs ⟨hs₀, sees_refl _ s⟩
  · rintro ⟨s₀, hs₀, hP₀⟩
    refine h s₀ hs₀ (hP s₀ hs₀ hP₀) _ ?_ fun s hs hs' => ⟨hP s hs hs'.1, hs'.2⟩
    exact fun s s' hrely hs => ⟨hstable s s' hrely hs.1, sees_trans hs.2 hrely⟩

/-- Nothing has to be shown of code that is never reached. -/
theorem triple_false {α : Type} {P : σ → Prop} {c : Code σ ω Λ α} {Q : α → σ → Prop}
    (h : ∀ s, M.Inv s → ¬ P s) : M.Triple t P c Q :=
  triple_snapshot fun s₀ hs₀ hP => absurd hP (h s₀ hs₀)

/-- A fact that the assertion implies may be used. -/
theorem triple_fact {α : Type} {P : σ → Prop} {c : Code σ ω Λ α} {Q : α → σ → Prop} {p : Prop}
    (hp : ∀ s, M.Inv s → P s → p) (h : p → M.Triple t P c Q) : M.Triple t P c Q :=
  triple_snapshot fun s₀ hs₀ hP => (h (hp s₀ hs₀ hP)).pre fun _ _ hs => hs.1

/-- Code that leaves a part of the state alone can be passed by every assertion, when the invariant
and what the threads rely on are about that part. -/
theorem triple_of_quiet {α : Type} {π : σ → τ} {good : Λ → Prop} {okAnswer : ω → Prop}
    {P : σ → Prop} {R : α → Prop} {c : Code σ ω Λ α} (h : Quiet good okAnswer π R c)
    (hok : ∀ s a s', M.ok s t a s' → okAnswer a)
    (hinv : ∀ s s', π s' = π s → M.Inv s → M.Inv s')
    (hsees : ∀ v s s', π s' = π s → M.Sees v s s')
    (hat : ∀ label, good label → ∀ s, M.Inv s → P s → M.At t label s) :
    M.Triple t P c fun a s => R a ∧ P s := by
  intro P₀ hstable hP
  have hverified : Verified M.Agree (M.Stands t) M.okFor (some t) c P₀ fun a P' => R a ∧ P' = P₀ :=
    h.verified (fun s a s' hoks => hok s a s' (hoks t rfl)) ?_ ?_
  · refine hverified.mono ?_
    rintro a P₁ ⟨hR, rfl⟩
    exact ⟨hstable, fun s hs hs₀ => ⟨hR, hP s hs hs₀⟩⟩
  · intro s s' L hπ hJ
    exact ⟨hinv s s' hπ hJ.1, fun v => ⟨(hJ.2 v).2 s s' (hsees v s s' hπ) (hJ.2 v).1, (hJ.2 v).2⟩⟩
  · exact fun label hgood s hs hs₀ => hat label hgood s hs (hP s hs hs₀)

/-! ## Soundness -/

section Sound

variable {api : ι → κ → Code σ ω Λ Unit} {okCall : κ → Prop} {Idle : ι → σ → Prop}
  {S₀ S S' : System σ ω Λ ι}

/-- A system whose threads start in stable assertions from which their programs are verified. -/
def Starts (M : Logic σ ω Λ ι) (Idle : ι → σ → Prop) (S₀ : System σ ω Λ ι) : Prop :=
  M.Inv S₀.shared ∧ ∀ t, ∃ P, M.Stable t P ∧ P S₀.shared ∧
    M.Triple t P (S₀.code t) fun _ => Idle t

/-- Every call is verified. -/
def Serves (M : Logic σ ω Λ ι) (Idle : ι → σ → Prop) (okCall : κ → Prop)
    (api : ι → κ → Code σ ω Λ Unit) : Prop :=
  ∀ t c, okCall c → M.Triple t (Idle t) (api t c) fun _ => Idle t

theorem sound_verified (hstart : M.Starts Idle S₀) (hserve : M.Serves Idle okCall api)
    (h : TransitionSystem.Reachable (sysNext api) (stepOk okCall M.ok) S₀ S) :
    ∃ L, M.Agree S.shared L ∧ ∀ t, Verified M.Agree (M.Stands t) M.okFor (some t) (S.code t)
      (L (some t)) fun _ P => M.Stable t P ∧ ∀ s, M.Inv s → P s → Idle t s := by
  have hok : ∀ s t a s', M.ok s t a s' → M.okFor s (some t) a s' := by
    rintro s t a s' hok u ⟨⟩
    exact hok
  refine System.sound (Option.some_injective ι) (R := M.Stands) hok
    (W := fun t P => M.Stable t P ∧ ∀ s, M.Inv s → P s → Idle t s) ?_ ?_ h
  · choose P hstable hP htriple using hstart.2
    refine ⟨fun v => v.elim (fun _ => True) P, ⟨hstart.1, fun v => ?_⟩, fun t => ?_⟩
    · cases v with
      | none => exact ⟨trivial, fun _ _ _ _ => trivial⟩
      | some t => exact ⟨hP t, hstable t⟩
    · exact htriple t (P t) (hstable t) fun _ _ hs => hs
  · rintro t c P hc ⟨hstable, hP⟩
    exact hserve t c hc P hstable hP

/-- The invariant holds in every reachable state, with what is known at the labels of the threads
and of those without a program. -/
theorem sound (hstart : M.Starts Idle S₀) (hserve : M.Serves Idle okCall api)
    (h : TransitionSystem.Reachable (sysNext api) (stepOk okCall M.ok) S₀ S) :
    M.Inv S.shared ∧ (∀ t label, (S.code t).label = some label → M.At t label S.shared) ∧
      ∀ t, (S.code t).label = none → Idle t S.shared := by
  obtain ⟨L, hagree, hverified⟩ := sound_verified hstart hserve h
  refine ⟨hagree.1, fun t label hlabel => ?_, fun t hlabel => ?_⟩
  · exact (hverified t).label hlabel S.shared hagree.1 (hagree.2 (some t)).1
  · have ht := hverified t
    cases hcode : S.code t with
    | ret a =>
      rw [hcode] at ht
      exact ht.2 S.shared hagree.1 (hagree.2 (some t)).1
    | op label act k =>
      rw [hcode] at hlabel
      exact absurd hlabel nofun
    | loop label body b k =>
      rw [hcode] at hlabel
      exact absurd hlabel nofun

/-- Every viewer but the thread that moves sees what it may rely on. -/
theorem sound_sees (hstart : M.Starts Idle S₀) (hserve : M.Serves Idle okCall api)
    (h : TransitionSystem.Reachable (sysNext api) (stepOk okCall M.ok) S₀ S) {a : ω}
    (hnext : sysNext api S (.step t a) = some S') (hok : M.ok S.shared t a S'.shared)
    {v : Option ι} (hv : v ≠ some t) : M.Sees v S.shared S'.shared := by
  obtain ⟨L, hagree, hverified⟩ := sound_verified hstart hserve h
  obtain ⟨⟨s', c'⟩, hstep, rfl⟩ := Option.map_eq_some_iff.mp hnext
  -- the others may hold the strongest stable assertion, that they lead here from this state
  let L' : Option ι → σ → Prop :=
    Function.update (fun v s => M.Sees v S.shared s) (some t) (L (some t))
  have hagree' : M.Agree S.shared L' := by
    refine ⟨hagree.1, fun w => ?_⟩
    by_cases hw : w = some t
    · subst hw
      simp only [L', Function.update_self]
      exact hagree.2 (some t)
    · simp only [L', Function.update_of_ne hw]
      exact ⟨sees_refl w _, fun s s' hrely hs => sees_trans hs hrely⟩
  have hself : L' (some t) = L (some t) := Function.update_self _ _ _
  have hok' : M.okFor S.shared (some t) a s' := by
    rintro u ⟨⟩
    exact hok
  obtain ⟨l', hl', -⟩ := (hverified t).step hself hagree' hstep hok'
  have hother := (hl'.2 v).1
  simp only [Function.update_of_ne hv, L'] at hother
  exact hother

/-- Every step of a run satisfies the guarantee. -/
theorem sound_guar (hstart : M.Starts Idle S₀) (hserve : M.Serves Idle okCall api)
    (h : TransitionSystem.Reachable (sysNext api) (stepOk okCall M.ok) S₀ S) {m : Move ω ι κ}
    (hnext : sysNext api S m = some S') (hok : stepOk okCall M.ok S m S') :
    M.Guar S.shared S'.shared := by
  cases m with
  | call i c =>
    rw [sysNext] at hnext
    split at hnext
    · obtain rfl := Option.some.inj hnext
      exact M.guar_refl _
    · exact absurd hnext (by rintro ⟨⟩)
  | step t a => exact sound_sees hstart hserve h hnext hok (v := none) (by rintro ⟨⟩)

/-- A run that goes on satisfies the guarantee. -/
theorem sound_run (hstart : M.Starts Idle S₀) (hserve : M.Serves Idle okCall api)
    (h : TransitionSystem.Reachable (sysNext api) (stepOk okCall M.ok) S₀ S)
    (hrun : TransitionSystem.Reachable (sysNext api) (stepOk okCall M.ok) S S') :
    M.Guar S.shared S'.shared := by
  induction hrun with
  | refl => exact M.guar_refl _
  | tail hr hmove ih =>
    obtain ⟨m, hnext, hok⟩ := hmove
    exact M.guar_trans ih (sound_guar hstart hserve (h.trans hr) hnext hok)

end Sound

end Logic

/-! ## Sequential programs inside a thread -/

/-- Run a sequential program over the part `view` of the state. -/
def Code.embed {ω' : Type} (label : Λ) (view : σ → τ) (put : σ → τ → σ) (answer : ω → ω')
    {α : Type} : Prog τ ω' α → Code σ ω Λ α
  | .ret a => .ret a
  | .getThen k => .op label (fun s _ => some (view s, s)) fun w =>
      embed label view put answer (k w)
  | .setThen g k => .op label (fun s _ => some ((), put s (g (view s)))) fun _ =>
      embed label view put answer k
  | .askThen call k => .op label (fun s a =>
        some ((call (view s) (answer a)).1, put s (call (view s) (answer a)).2)) fun b =>
      embed label view put answer (k b)
  | .loopThen body b k => .loop label (fun b => embed label view put answer (body b)) b fun c =>
      embed label view put answer (k c)

theorem quiet_embed {ω' : Type} {π : σ → τ} {υ : Type} {good : Λ → Prop} {ok : ω → Prop} {label : Λ}
    {view : σ → υ} {put : σ → υ → σ} {answer : ω → ω'} {α : Type} (hgood : good label)
    (hput : ∀ s w, π (put s w) = π s) (m : Prog υ ω' α) :
    Quiet good ok π (fun _ => True) (Code.embed label view put answer m) := by
  induction m with
  | ret a => exact trivial
  | getThen k ih =>
    refine ⟨hgood, fun s a b s' hact _ => ?_⟩
    obtain ⟨rfl, rfl⟩ := Prod.mk.inj (Option.some.inj hact)
    exact ⟨rfl, ih _⟩
  | setThen g k ih =>
    refine ⟨hgood, fun s a b s' hact _ => ?_⟩
    obtain ⟨rfl, rfl⟩ := Prod.mk.inj (Option.some.inj hact)
    exact ⟨hput _ _, ih⟩
  | askThen call k ih =>
    refine ⟨hgood, fun s a b s' hact _ => ?_⟩
    obtain ⟨rfl, rfl⟩ := Prod.mk.inj (Option.some.inj hact)
    exact ⟨hput _ _, ih _⟩
  | loopThen body b k ihbody ihk =>
    refine ⟨hgood, fun b => (ihbody b).mono ?_⟩
    rintro (b' | c) -
    · trivial
    · exact ihk c

/-- A thread that has a part of the state to itself can run a sequential program on it: `A` says
that it has, and that whatever the program does to the part is fine with the others. -/
theorem triple_embed [DecidableEq ι] {M : Logic σ ω Λ ι} {t : ι} {ω' : Type} {label : Λ}
    {view : σ → τ} {put : σ → τ → σ} {answer : ω → ω'} {D : τ → Prop} {A : σ → Prop} {α : Type}
    (m : Prog τ ω' α) (Q : α → τ → Prop)
    (hA : ∀ s s', M.Sees (some t) s s' → A s → A s' ∧ view s' = view s)
    (hat : ∀ s, M.Inv s → A s → M.At t label s) (hview : ∀ s w, view (put s w) = w)
    (hput : ∀ s w, M.Inv s → A s → D w →
      M.Inv (put s w) ∧ M.Guar s (put s w) ∧ (∀ u, u ≠ t → M.Rely u s (put s w)) ∧
        A (put s w)) :
    M.Triple t (fun s => A s ∧ wpStep D m Q (view s)) (Code.embed label view put answer m)
      fun a s => A s ∧ Q a (view s) := by
  -- an assertion about the part is stable as long as the thread has it to itself
  have hstable : ∀ R : τ → Prop, M.Stable t fun s => A s ∧ R (view s) := by
    intro R s s' hrely hs
    obtain ⟨hA', hview'⟩ := hA s s' hrely hs.1
    exact ⟨hA', hview' ▸ hs.2⟩
  induction m with
  | ret a => exact Logic.triple_pure fun _ _ hs => hs
  | getThen k ih =>
    change M.Triple t _ (Code.atomic label (fun s _ => some (view s, s)) >>= fun w =>
      Code.embed label view put answer (k w)) _
    refine Logic.Triple.bind (Q := fun w s => A s ∧ (view s = w ∧ wpStep D (k w) Q (view s)))
      (Logic.triple_atomic (fun s hs hP => ?_) (fun w => ?_) ?_) fun w => ?_
    · exact hat s hs hP.1
    · exact hstable fun v => v = w ∧ wpStep D (k w) Q v
    · intro s a b s' hs hP hact _
      obtain ⟨rfl, rfl⟩ := Prod.mk.inj (Option.some.inj hact)
      exact ⟨hs, M.guar_refl s, fun u _ => M.rely_refl u s, hP.1, rfl, hP.2⟩
    · exact (ih w Q).pre fun s _ hs => ⟨hs.1, hs.2.2⟩
  | setThen g k ih =>
    change M.Triple t _ (Code.atomic label (fun s _ => some ((), put s (g (view s)))) >>= fun _ =>
      Code.embed label view put answer k) _
    refine Logic.Triple.bind (Q := fun _ s => A s ∧ wpStep D k Q (view s))
      (Logic.triple_atomic (fun s hs hP => ?_) (fun _ => hstable _) ?_) fun _ => ih Q
    · exact hat s hs hP.1
    · intro s a b s' hs hP hact _
      obtain ⟨rfl, rfl⟩ := Prod.mk.inj (Option.some.inj hact)
      obtain ⟨hinv, hguar, hrely, hA'⟩ := hput s _ hs hP.1 hP.2.1
      exact ⟨hinv, hguar, hrely, hA', (hview s _).symm ▸ hP.2.2⟩
  | askThen call k ih =>
    change M.Triple t _ (Code.atomic label (fun s a =>
      some ((call (view s) (answer a)).1, put s (call (view s) (answer a)).2)) >>= fun b =>
      Code.embed label view put answer (k b)) _
    refine Logic.Triple.bind (Q := fun b s => A s ∧ wpStep D (k b) Q (view s))
      (Logic.triple_atomic (fun s hs hP => ?_) (fun _ => hstable _) ?_) fun b => ih b Q
    · exact hat s hs hP.1
    · intro s a b s' hs hP hact _
      obtain ⟨rfl, rfl⟩ := Prod.mk.inj (Option.some.inj hact)
      obtain ⟨hinv, hguar, hrely, hA'⟩ := hput s _ hs hP.1 (hP.2.2 (answer a)).1
      exact ⟨hinv, hguar, hrely, hA', (hview s _).symm ▸ (hP.2.2 (answer a)).2⟩
  | loopThen body b k ihbody ihk =>
    change M.Triple t _ (Code.iterate label (fun b => Code.embed label view put answer (body b)) b
      >>= fun c => Code.embed label view put answer (k c)) _
    refine Logic.Triple.bind (Q := fun c s => A s ∧ wpStep D (k c) Q (view s))
      (Logic.triple_iterate (fun b s => A s ∧ wpStep D (.loopThen body b k) Q (view s))
        (fun b s hs hI => hat s hs hI.1) fun b => ?_) fun c => ihk c Q
    refine (ihbody b fun r w => r.elim (fun b' => wpStep D (.loopThen body b' k) Q w)
      (fun c => wpStep D (k c) Q w)).conseq ?_ ?_
    · rintro s hs ⟨hAs, I, hI, hbody⟩
      refine ⟨hAs, wp_mono (hbody b _ hI).2 ?_⟩
      rintro (b' | c) w hr
      · exact ⟨I, hr, hbody⟩
      · exact hr
    · rintro (b' | c) s - hr
      · exact hr
      · exact hr

/-- A thread that has a part of the state to itself can run any program on it, and finds what the
program may return. -/
theorem triple_run [DecidableEq ι] {M : Logic σ ω Λ ι} {t : ι} {ω' : Type} {label : Λ}
    {view : σ → τ} {put : σ → τ → σ} {answer : ω → ω'} {A : σ → Prop} {α : Type}
    (m : Prog τ ω' α) (w : τ)
    (hA : ∀ s s', M.Sees (some t) s s' → A s → A s' ∧ view s' = view s)
    (hat : ∀ s, M.Inv s → A s → M.At t label s) (hview : ∀ s w, view (put s w) = w)
    (hput : ∀ s w, M.Inv s → A s →
      M.Inv (put s w) ∧ M.Guar s (put s w) ∧ (∀ u, u ≠ t → M.Rely u s (put s w)) ∧
        A (put s w)) :
    M.Triple t (fun s => A s ∧ view s = w) (Code.embed label view put answer m)
      fun a s => A s ∧ Returns m w a (view s) := by
  refine (triple_embed (D := fun _ => True) m (Returns m w) hA hat hview
    fun s w hs hAs _ => hput s w hs hAs).pre ?_
  rintro s - ⟨hAs, rfl⟩
  exact ⟨hAs, wp_returns m (view s)⟩

end Concurrent
