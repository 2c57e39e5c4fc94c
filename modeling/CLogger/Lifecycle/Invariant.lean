import CLogger.Lifecycle.Model

/-!
# The invariant of an instance's life

* `LifeInv`: the invariant of the words and the history. With `timely`, it is about the runs in
  which no failed unlock is recorded after a rollback has looked at the error word.
* `LifeGuar`: what every step satisfies; the words only move forward.
* `Alive t`: thread `t` is somewhere in its program; `LifeRely t`: what it can rely on then. The
  constructor and the disposer find nothing changed when no other thread is alive.
* `lifeLogic`: the proof setting, and what a step of an alive thread has to show (`Acts`).
-/

namespace CLogger.Lifecycle

open Concurrent

/-- Nothing has been freed or given back, and no success has been reported. -/
structure Teardown.Kept (d : Teardown) : Prop where
  workspace : d.workspaceFreed = false
  spills : d.spillsFreed = false
  slots : d.slotsFreed = false
  object : d.instanceFreed = false
  released : d.released = false
  failed : ∀ rc, d.returned = some rc → rc ≠ 0

/-- A teardown that looked at or joined with a recorded error has kept everything. -/
def Teardown.Proved (d : Teardown) : Prop :=
  ∀ e, e ≠ 0 → d.looked = some e ∨ d.joined = some e → d.Kept

variable (timely : Prop)

/-- The invariant of the words. -/
structure LifeInv (s : Life) : Prop where
  entered : s.history.entered ≤ 1
  enteredOf : s.state = .running ∨ s.history.created = some true → s.history.entered = 1
  notEntered : s.state = .created → s.history.entered = 0
  running : s.state = .running → s.asyncMode = true → s.running = true
  cleared : s.history.cleared = true → s.running = false
  direct : s.asyncMode = false → s.running = false ∧ s.history.spawned = false
  marked : s.synchronizationError ≠ 0 → s.history.marking = none →
    s.lifecycleError ≠ 0 ∧ 2 ≤ s.state.toNat ∧ s.history.cleared = true
  marking : s.history.marking ≠ none → s.synchronizationError ≠ 0
  borrowed : ∀ n ∈ s.history.borrowers, s.history.created = some true
  disposing : s.history.disposing = true →
    s.history.created = some true ∧ s.history.borrowers = ∅
  ended : s.history.ended = true →
    s.history.disposing = true ∧ (s.history.spawned = true → s.history.workerDone = true)
  stopped : s.state = .stopped → s.history.ended = true
  untouched : s.history.created = some true → s.history.disposing = false →
    s.history.teardown = {}
  proved : timely → s.history.teardown.Proved

/-- What every step satisfies. -/
structure LifeGuar (s s' : Life) : Prop where
  asyncMode : s'.asyncMode = s.asyncMode
  state : s.state.toNat ≤ s'.state.toNat
  entering : s'.state = .running → s.state = .running ∨ s.state = .created
  lifecycleError : s.lifecycleError ≠ 0 → s'.lifecycleError ≠ 0
  synchronizationError : s.synchronizationError ≠ 0 →
    s'.synchronizationError = s.synchronizationError
  cleared : s.history.cleared = true → s'.history.cleared = true
  spawned : s.history.spawned = true → s'.history.spawned = true
  workerDone : s.history.workerDone = true → s'.history.workerDone = true
  created : s.history.created = some true → s'.history.created = some true

/-- Thread `t` is somewhere in its program. -/
def Alive (t : LifeThread) (s : Life) : Prop :=
  match t with
  | .constructor => s.history.created = none
  | .worker => s.history.spawned = true ∧ s.history.workerDone = false
  | .caller n => n ∈ s.history.borrowers
  | .disposer => s.history.disposing = true ∧ s.history.ended = false

/-- The worker, if there is one, has returned. -/
def WorkerGone (s : Life) : Prop := s.history.spawned = true → s.history.workerDone = true

/-- What the constructor can rely on. -/
structure CtorRely (s s' : Life) : Prop where
  created : s'.history.created = s.history.created
  spawned : s'.history.spawned = s.history.spawned
  entered : s'.history.entered = s.history.entered
  teardown : s.history.created = none → s'.history.teardown = s.history.teardown
  /-- Nobody else is there before the worker starts and after it has been joined. -/
  alone : s.history.created = none → WorkerGone s → s' = s
  running : s.running = true → s'.running = true ∨ 2 ≤ s'.state.toNat
  notEntering : s'.state = .running → s.state = .running
  timely : timely → s.history.created = none → s.history.teardown.looked.isSome →
    s'.synchronizationError = s.synchronizationError

/-- What the disposer can rely on. -/
structure DisposerRely (s s' : Life) : Prop where
  disposing : s'.history.disposing = s.history.disposing
  ended : s'.history.ended = s.history.ended
  spawned : s.history.created = some true → s'.history.spawned = s.history.spawned
  teardown : s.history.disposing = true → s'.history.teardown = s.history.teardown
  alone : s.history.disposing = true → WorkerGone s → s' = s

/-- What thread `t` can rely on when others take steps. -/
structure LifeRely (t : LifeThread) (s s' : Life) : Prop where
  marking : s'.history.marking = some t ↔ s.history.marking = some t
  constructor : t = .constructor → CtorRely timely s s'
  worker : t = .worker → s'.history.workerDone = s.history.workerDone
  caller : ∀ n, t = .caller n → (n ∈ s'.history.borrowers ↔ n ∈ s.history.borrowers)
  disposer : t = .disposer → DisposerRely s s'

variable {timely}

theorem LoggerState.eq_created_of_toNat {state : LoggerState} (h : state.toNat ≤ 0) :
    state = .created := by
  cases state with
  | created => rfl
  | running | stopping | stopped => exact absurd h (by decide)

theorem LifeGuar.refl (s : Life) : LifeGuar s s :=
  ⟨rfl, le_rfl, .inl, id, fun _ => rfl, id, id, id, id⟩

theorem LifeGuar.trans {s s' s'' : Life} (h : LifeGuar s s') (h' : LifeGuar s' s'') :
    LifeGuar s s'' where
  asyncMode := h'.asyncMode.trans h.asyncMode
  state := h.state.trans h'.state
  entering hrunning := by
    rcases h'.entering hrunning with hr | hc
    · exact h.entering hr
    · have hle := h.state
      rw [hc] at hle
      exact .inr (LoggerState.eq_created_of_toNat hle)
  lifecycleError he := h'.lifecycleError (h.lifecycleError he)
  synchronizationError he := by
    have heq := h.synchronizationError he
    exact (h'.synchronizationError (heq ▸ he)).trans heq
  cleared hc := h'.cleared (h.cleared hc)
  spawned hs := h'.spawned (h.spawned hs)
  workerDone hd := h'.workerDone (h.workerDone hd)
  created hc := h'.created (h.created hc)

theorem CtorRely.refl (s : Life) : CtorRely timely s s :=
  ⟨rfl, rfl, rfl, fun _ => rfl, fun _ _ => rfl, .inl, id, fun _ _ _ => rfl⟩

theorem CtorRely.trans {s s' s'' : Life} (h : CtorRely timely s s') (h' : CtorRely timely s' s'')
    (hstate : s'.state.toNat ≤ s''.state.toNat) : CtorRely timely s s'' where
  created := h'.created.trans h.created
  spawned := h'.spawned.trans h.spawned
  entered := h'.entered.trans h.entered
  teardown hc := (h'.teardown (h.created.trans hc)).trans (h.teardown hc)
  alone hc hgone := by
    have heq := h.alone hc hgone
    subst heq
    exact h'.alone hc hgone
  running hr := by
    rcases h.running hr with hr' | hstop
    · exact h'.running hr'
    · exact .inr (hstop.trans hstate)
  notEntering hr := h.notEntering (h'.notEntering hr)
  timely ht hc hl :=
    (h'.timely ht (h.created.trans hc) ((h.teardown hc).symm ▸ hl)).trans (h.timely ht hc hl)

theorem DisposerRely.refl (s : Life) : DisposerRely s s :=
  ⟨rfl, rfl, fun _ => rfl, fun _ => rfl, fun _ _ => rfl⟩

theorem DisposerRely.trans {s s' s'' : Life} (h : DisposerRely s s') (h' : DisposerRely s' s'')
    (hcreated : s.history.created = some true → s'.history.created = some true) :
    DisposerRely s s'' where
  disposing := h'.disposing.trans h.disposing
  ended := h'.ended.trans h.ended
  spawned hc := (h'.spawned (hcreated hc)).trans (h.spawned hc)
  teardown hd := (h'.teardown (h.disposing.trans hd)).trans (h.teardown hd)
  alone hd hgone := by
    have heq := h.alone hd hgone
    subst heq
    exact h'.alone hd hgone

variable (timely) in
/-- The proof setting. -/
def lifeLogic : Logic Life LifeReply Unit LifeThread where
  Inv := LifeInv timely
  Guar := LifeGuar
  guar_refl := LifeGuar.refl
  guar_trans := LifeGuar.trans
  Rely t s s' := LifeGuar s s' ∧ LifeRely timely t s s'
  rely_refl t s := ⟨.refl s, Iff.rfl, fun _ => .refl s, fun _ => rfl, fun _ _ => Iff.rfl,
    fun _ => .refl s⟩
  rely_trans := by
    rintro t s s' s'' ⟨hg, h⟩ ⟨hg', h'⟩
    refine ⟨hg.trans hg', h'.marking.trans h.marking, fun ht => ?_, fun ht => ?_, fun n hn => ?_,
      fun ht => ?_⟩
    · exact (h.constructor ht).trans (h'.constructor ht) hg'.state
    · exact (h'.worker ht).trans (h.worker ht)
    · exact (h'.caller n hn).trans (h.caller n hn)
    · exact (h.disposer ht).trans (h'.disposer ht) hg.created
  At _ _ _ := True
  ok s _ _ s' := timely → s.history.created = none → s.history.teardown.looked.isSome →
    s'.synchronizationError = s.synchronizationError

variable {t : LifeThread} {s s' : Life}

/-- What a step of thread `t` has to show. -/
def Acts (timely : Prop) (t : LifeThread) (s s' : Life) : Prop :=
  LifeInv timely s' ∧ LifeGuar s s' ∧ ∀ u, u ≠ t → LifeRely timely u s s'

theorem Acts.refl (h : LifeInv timely s) : Acts timely t s s :=
  ⟨h, .refl s, fun u _ => ((lifeLogic timely).rely_refl u s).2⟩

section Alive

/-- No thread is alive once the instance has ended. -/
theorem LifeInv.not_ended (h : LifeInv timely s) (ht : Alive t s) : s.history.ended = false := by
  rw [← Bool.not_eq_true]
  intro hended
  obtain ⟨hdisposing, hgone⟩ := h.ended hended
  obtain ⟨hcreated, hnone⟩ := h.disposing hdisposing
  cases t with
  | constructor => exact absurd (ht.symm.trans hcreated) nofun
  | worker => exact absurd ((hgone ht.1).symm.trans ht.2) nofun
  | caller n =>
    have hmem : n ∈ s.history.borrowers := ht
    rw [hnone] at hmem
    exact absurd hmem (Finset.notMem_empty n)
  | disposer => exact absurd (hended.symm.trans ht.2) nofun

theorem LifeInv.not_stopped (h : LifeInv timely s) (ht : Alive t s) : s.state ≠ .stopped :=
  fun hstopped => absurd ((h.stopped hstopped).symm.trans (h.not_ended ht)) nofun

/-- Before the worker starts and after it has been joined, the constructor is the only thread. -/
theorem LifeInv.ctor_alone (h : LifeInv timely s) (ht : Alive t s) (hne : .constructor ≠ t)
    (hcreated : s.history.created = none) (hgone : WorkerGone s) : False := by
  cases t with
  | constructor => exact hne rfl
  | worker => exact absurd ((hgone ht.1).symm.trans ht.2) nofun
  | caller n => exact absurd (hcreated.symm.trans (h.borrowed n ht)) nofun
  | disposer => exact absurd (hcreated.symm.trans (h.disposing ht.1).1) nofun

/-- Once the worker has been joined, the disposer is the only thread. -/
theorem LifeInv.disposer_alone (h : LifeInv timely s) (ht : Alive t s) (hne : .disposer ≠ t)
    (hdisposing : s.history.disposing = true) (hgone : WorkerGone s) : False := by
  obtain ⟨hcreated, hnone⟩ := h.disposing hdisposing
  cases t with
  | constructor => exact absurd (ht.symm.trans hcreated) nofun
  | worker => exact absurd ((hgone ht.1).symm.trans ht.2) nofun
  | caller n =>
    have hmem : n ∈ s.history.borrowers := ht
    rw [hnone] at hmem
    exact absurd hmem (Finset.notMem_empty n)
  | disposer => exact hne rfl

end Alive

/-- The history without the parts that go with the words. -/
def LifeHistory.role (h : LifeHistory) : LifeHistory := { h with cleared := false, marking := none }

theorem LifeHistory.role_inj {h h' : LifeHistory} (heq : h'.role = h.role) :
    h'.spawned = h.spawned ∧ h'.workerDone = h.workerDone ∧ h'.created = h.created ∧
      h'.entered = h.entered ∧ h'.borrowers = h.borrowers ∧ h'.disposing = h.disposing ∧
      h'.ended = h.ended ∧ h'.teardown = h.teardown := by
  simpa [LifeHistory.role] using heq

/-- A change of the words by an alive thread. -/
structure WordStep (t : LifeThread) (s s' : Life) : Prop where
  asyncMode : s'.asyncMode = s.asyncMode
  role : s'.history.role = s.history.role
  state : s'.state = s.state ∨ s'.state = .stopping
  running : s'.running = s.running ∨ s'.running = false ∧ 2 ≤ s'.state.toNat
  lifecycleError : s.lifecycleError ≠ 0 → s'.lifecycleError ≠ 0
  synchronizationError : s.synchronizationError ≠ 0 →
    s'.synchronizationError = s.synchronizationError
  cleared : s.history.cleared = true → s'.history.cleared = true
  clearedRunning : s'.history.cleared = true → s'.running = false
  marking : ∀ u, u ≠ t → (s'.history.marking = some u ↔ s.history.marking = some u)
  marked : s'.synchronizationError ≠ 0 → s'.history.marking = none →
    s'.lifecycleError ≠ 0 ∧ 2 ≤ s'.state.toNat ∧ s'.history.cleared = true
  markingSet : s'.history.marking ≠ none → s'.synchronizationError ≠ 0

theorem WordStep.acts (h : WordStep t s s') (hs : LifeInv timely s) (ht : Alive t s)
    (hok : timely → s.history.created = none → s.history.teardown.looked.isSome →
      s'.synchronizationError = s.synchronizationError) : Acts timely t s s' := by
  obtain ⟨hspawned, hdone, hcreated, hentered, hborrowers, hdisposing, hended, hteardown⟩ :=
    LifeHistory.role_inj h.role
  -- The only state that is stored is stopping, and no thread is alive after the last one.
  have hof : ∀ state, state ≠ .stopping → s'.state = state → s.state = state := by
    intro state hne hstate
    rcases h.state with heq | heq
    · exact heq.symm.trans hstate
    · exact absurd (hstate.symm.trans heq) hne
  have hmono : s.state.toNat ≤ s'.state.toNat := by
    rcases h.state with heq | heq
    · rw [heq]
    · have hne := hs.not_stopped ht
      rw [heq]
      cases hstate : s.state with
      | stopped => exact absurd hstate hne
      | created | running | stopping => decide
  refine ⟨?_, ?_, fun u hu => ?_⟩
  · refine ⟨?_, ?_, ?_, ?_, h.clearedRunning, ?_, h.marked, h.markingSet, ?_, ?_, ?_, ?_, ?_, ?_⟩
    · rw [hentered]
      exact hs.entered
    · rw [hentered, hcreated]
      exact fun hor => hs.enteredOf (hor.imp (hof _ (by decide)) id)
    · rw [hentered]
      exact fun hstate => hs.notEntered (hof _ (by decide) hstate)
    · intro hstate hasync
      rcases h.running with heq | ⟨-, hstop⟩
      · rw [heq]
        exact hs.running (hof _ (by decide) hstate) (h.asyncMode.symm.trans hasync)
      · rw [hstate] at hstop
        exact absurd hstop (by decide)
    · intro hasync
      obtain ⟨hrun, hspawn⟩ := hs.direct (h.asyncMode.symm.trans hasync)
      refine ⟨?_, hspawned.trans hspawn⟩
      rcases h.running with heq | ⟨hfalse, -⟩
      · exact heq.trans hrun
      · exact hfalse
    · rw [hborrowers, hcreated]
      exact hs.borrowed
    · rw [hdisposing, hcreated, hborrowers]
      exact hs.disposing
    · rw [hended, hdisposing, hspawned, hdone]
      exact hs.ended
    · rw [hended]
      exact fun hstate => hs.stopped (hof _ (by decide) hstate)
    · rw [hcreated, hdisposing, hteardown]
      exact hs.untouched
    · rw [hteardown]
      exact hs.proved
  · refine ⟨h.asyncMode, hmono, fun hstate => .inl (hof _ (by decide) hstate), h.lifecycleError,
      h.synchronizationError, h.cleared, ?_, ?_, ?_⟩
    · exact hspawned.trans
    · exact hdone.trans
    · exact hcreated.trans
  · refine ⟨h.marking u hu, ?_, fun _ => hdone, fun n _ => by rw [hborrowers], ?_⟩
    · rintro rfl
      refine ⟨hcreated, hspawned, hentered, fun _ => hteardown, fun hnone hgone => ?_, fun hr => ?_,
        hof _ (by decide), hok⟩
      · exact (hs.ctor_alone ht hu hnone hgone).elim
      · rcases h.running with heq | ⟨-, hstop⟩
        · exact .inl (heq.trans hr)
        · exact .inr hstop
    · rintro rfl
      refine ⟨hdisposing, hended, fun _ => hspawned, fun _ => hteardown, fun hd hgone => ?_⟩
      exact (hs.disposer_alone ht hu hd hgone).elim

end CLogger.Lifecycle
