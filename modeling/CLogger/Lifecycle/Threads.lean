import CLogger.Lifecycle.Notes

/-!
# The threads of an instance

Every thread of the model keeps the invariant: the callers and the worker, the constructor with its
rollback, and `dispose_body`. The two teardowns are at a `TearPlace` when they release something:
nothing they looked at or joined with was an error.
-/

namespace CLogger.Lifecycle

open Concurrent

variable {timely : Prop} {t : LifeThread} {s : Life} {P : Life → Prop}

section Callers

/-- A borrower keeps its place through all of its calls. -/
theorem caller_place (n : ℕ) : FreePlace timely (.caller n) (Alive (.caller n)) := by
  refine FreePlace.of_role (fun s s' hsees hs => ?_) (fun _ _ hs => hs) fun s s' hrole hs => ?_
  · exact (hsees.2.2.caller n rfl).mpr hs
  · obtain ⟨-, -, -, -, hborrowers, -⟩ := LifeHistory.role_inj hrole
    show n ∈ s'.history.borrowers
    rw [hborrowers]
    exact hs

/-- A caller enters an instance that has been returned and is not being disposed of. -/
theorem enter_acts (hs : LifeInv timely s) {n : ℕ} (hcreated : s.history.created = some true)
    (hdisposing : ¬ s.history.disposing = true) :
    Acts timely (.caller n) s
      { s with history := { s.history with borrowers := insert n s.history.borrowers } } := by
  have hnone : s.history.created ≠ none := by
    rw [hcreated]
    nofun
  refine ⟨{ hs with
      borrowed := fun _ _ => hcreated
      disposing := fun hd => absurd hd hdisposing }, { LifeGuar.refl s with }, fun u hu => ?_⟩
  refine ⟨Iff.rfl, fun _ => { CtorRely.refl s with alone := fun hc => absurd hc hnone },
    fun _ => rfl, fun m hm => ?_,
    fun _ => { DisposerRely.refl s with alone := fun hd => absurd hd hdisposing }⟩
  have hne : m ≠ n := by
    rintro rfl
    exact hu hm
  exact Finset.mem_insert.trans (or_iff_right hne)

/-- A caller leaves. -/
theorem leave_acts (hs : LifeInv timely s) {n : ℕ} (hn : Alive (.caller n) s) :
    Acts timely (.caller n) s
      { s with history := { s.history with borrowers := s.history.borrowers.erase n } } := by
  have hnone : s.history.created ≠ none := by
    rw [hs.borrowed n hn]
    nofun
  have hdisposing : ¬ s.history.disposing = true := by
    intro hd
    have hmem : n ∈ s.history.borrowers := hn
    rw [(hs.disposing hd).2] at hmem
    exact absurd hmem (Finset.notMem_empty n)
  refine ⟨{ hs with
      borrowed := fun m hm => hs.borrowed m (Finset.mem_of_mem_erase hm)
      disposing := fun hd => absurd hd hdisposing }, { LifeGuar.refl s with }, fun u hu => ?_⟩
  refine ⟨Iff.rfl, fun _ => { CtorRely.refl s with alone := fun hc => absurd hc hnone },
    fun _ => rfl, fun m hm => ?_,
    fun _ => { DisposerRely.refl s with alone := fun hd => absurd hd hdisposing }⟩
  have hne : m ≠ n := by
    rintro rfl
    exact hu hm
  exact Finset.mem_erase.trans (and_iff_right hne)

/-- Every call of a borrower is served, whatever its locks answer. -/
theorem lifeApi_triple (call : LifeCall) :
    (lifeLogic timely).Triple t (fun _ => True) (lifeApi t call) fun _ _ => True := by
  have hstable : (lifeLogic timely).Stable t fun _ => True := fun _ _ _ _ => trivial
  cases t with
  | constructor | worker | disposer => exact stay_triple
  | caller n =>
    refine Logic.Triple.bind (Q := fun _ => Alive (.caller n)) (triple_act
      (fun _ => (caller_place n).stable) ?_) fun _ => ?_
    · intro s a b s' hs _ hact _
      split at hact
      · rename_i hguard
        obtain ⟨rfl, rfl⟩ := Prod.mk.inj (Option.some.inj hact)
        exact ⟨enter_acts hs hguard.1 hguard.2, Finset.mem_insert_self n _⟩
      · exact absurd hact nofun
    · refine Logic.Triple.bind (callBody_triple (caller_place n) call) fun _ => ?_
      exact triple_store hstable fun s hs hn _ => ⟨leave_acts hs hn, trivial⟩

end Callers

section Worker

/-- The worker returns. -/
theorem workerDone_acts (hs : LifeInv timely s) (ht : Alive .worker s) :
    Acts timely .worker s { s with history := { s.history with workerDone := true } } := by
  have hgone : ¬ WorkerGone s := fun hgone => absurd ((hgone ht.1).symm.trans ht.2) nofun
  refine ⟨{ hs with ended := fun he => ⟨(hs.ended he).1, fun _ => rfl⟩ },
    { LifeGuar.refl s with workerDone := fun _ => rfl }, fun u hu => ?_⟩
  exact ⟨Iff.rfl, fun _ => { CtorRely.refl s with alone := fun _ h => absurd h hgone },
    fun hw => absurd hw hu, fun _ _ => Iff.rfl,
    fun _ => { DisposerRely.refl s with alone := fun _ h => absurd h hgone }⟩

/-- The worker has not returned. -/
theorem notDone_stable :
    (lifeLogic timely).Stable .worker fun s => s.history.workerDone = false :=
  fun _ _ hsees hs => (hsees.2.2.worker rfl).trans hs

/-- The worker runs to its end once. -/
theorem loggerWorkerMain_triple :
    (lifeLogic timely).Triple .worker (fun s => s.history.workerDone = false) loggerWorkerMain
      fun _ _ => True := by
  have hP : FreePlace timely .worker (Alive .worker) := worker_place
  refine Logic.Triple.bind (Q := fun _ => Alive .worker) (triple_act (fun _ => hP.stable) ?_)
    fun _ => ?_
  · intro s a b s' hs hdone hact _
    split at hact
    · rename_i hspawned
      obtain ⟨rfl, rfl⟩ := Prod.mk.inj (Option.some.inj hact)
      exact ⟨.refl hs, hspawned, hdone⟩
    · exact absurd hact nofun
  · refine Logic.Triple.bind (Q := fun _ => Alive .worker) (Logic.triple_iterate
      (fun _ => Alive .worker) (fun _ _ _ _ => trivial) fun _ => ?_) fun _ => ?_
    · refine Logic.Triple.bind (triple_external hP.stable) fun drained => ?_
      refine Logic.Triple.bind (Q := fun _ => Alive .worker) (Logic.triple_ite
        (fun _ => workerEmit_triple hP) fun _ => workerWait_triple hP) fun again => ?_
      cases again <;> exact Logic.triple_pure fun _ _ hs => hs
    · refine Logic.Triple.bind (finalBroadcast_triple hP) fun _ => ?_
      exact triple_store (fun _ _ _ _ => trivial) fun s hs ht _ => ⟨workerDone_acts hs ht, trivial⟩

end Worker

section Teardown

/-- Thread `t` is the one that takes the instance down. -/
def Tears (t : LifeThread) (s : Life) : Prop :=
  t = .constructor ∧ s.history.created = none ∨ t = .disposer ∧ s.history.disposing = true

/-- The teardown has neither looked at nor joined with an error. -/
def Teardown.Clean (d : Teardown) : Prop := ∀ e, d.looked = some e ∨ d.joined = some e → e = 0

/-- A clean teardown has been proved. -/
theorem Teardown.Clean.proved {d : Teardown} (h : d.Clean) : d.Proved :=
  fun e he hd => absurd (h e hd) he

/-- The teardown is recorded by nobody else. -/
theorem record_acts (hs : LifeInv timely s) (ht : Tears t s) {f : Teardown → Teardown}
    (hf : timely → (f s.history.teardown).Proved) : Acts timely t s (s.record f) := by
  have huntouched : s.history.created = some true → ¬ s.history.disposing = false := by
    rcases ht with ⟨-, hnone⟩ | ⟨-, hd⟩
    · exact fun hc => absurd (hnone.symm.trans hc) nofun
    · exact fun _ hf => absurd (hd.symm.trans hf) nofun
  refine ⟨{ hs with proved := hf, untouched := fun hc hd => absurd hd (huntouched hc) },
    { LifeGuar.refl s with }, fun u hu => ?_⟩
  refine ⟨Iff.rfl, ?_, fun _ => rfl, fun _ _ => Iff.rfl, ?_⟩
  · rintro rfl
    have hnone : s.history.created ≠ none := by
      rcases ht with ⟨rfl, -⟩ | ⟨-, hd⟩
      · exact absurd rfl hu
      · rw [(hs.disposing hd).1]
        nofun
    exact { CtorRely.refl s with
      teardown := fun hc => absurd hc hnone, alone := fun hc => absurd hc hnone }
  · rintro rfl
    have hdisposing : ¬ s.history.disposing = true := by
      rcases ht with ⟨-, hnone⟩ | ⟨rfl, -⟩
      · intro hd
        exact absurd (hnone.symm.trans (hs.disposing hd).1) nofun
      · exact absurd rfl hu
    exact { DisposerRely.refl s with
      teardown := fun hd => absurd hd hdisposing, alone := fun hd => absurd hd hdisposing }

/-- An assertion of a teardown that has found no error, whatever it has released. -/
structure TearPlace (timely : Prop) (t : LifeThread) (P : Life → Prop) : Prop where
  stable : (lifeLogic timely).Stable t P
  tears : ∀ s, LifeInv timely s → P s → Tears t s
  clean : ∀ s, P s → timely → s.history.teardown.Clean
  record : ∀ s f, ((∀ d, (f d).looked = d.looked) ∧ ∀ d, (f d).joined = d.joined) → P s →
    P (s.record f)

variable (hP : TearPlace timely t P)

include hP

/-- A record of the teardown that keeps both looks is a step of its owner. -/
theorem tear_acts (hs : LifeInv timely s) (hPs : P s) {f : Teardown → Teardown}
    (hf : (∀ d, (f d).looked = d.looked) ∧ ∀ d, (f d).joined = d.joined) :
    Acts timely t s (s.record f) ∧ P (s.record f) := by
  refine ⟨record_acts hs (hP.tears s hs hPs) fun ht => Teardown.Clean.proved ?_,
    hP.record s f hf hPs⟩
  intro e he
  rw [hf.1, hf.2] at he
  exact hP.clean s hPs ht e he

/-- Such a record keeps the place of the thread. -/
theorem record_triple {f : Teardown → Teardown}
    (hf : (∀ d, (f d).looked = d.looked) ∧ ∀ d, (f d).joined = d.joined) :
    (lifeLogic timely).Triple t P (store fun s => s.record f) fun _ => P :=
  triple_store hP.stable fun _ hs hPs _ => tear_acts hP hs hPs hf

/-- So does a release of storage, which is one. -/
theorem release_triple {f : Teardown → Teardown}
    (hf : (∀ d, (f d).looked = d.looked) ∧ ∀ d, (f d).joined = d.joined) :
    (lifeLogic timely).Triple t P (release f) fun _ => P := by
  refine triple_act (fun _ => hP.stable) ?_
  intro s a b s' hs hPs hact _
  obtain ⟨rfl, rfl⟩ := Prod.mk.inj (Option.some.inj hact)
  split
  · exact tear_acts hP hs hPs hf
  · exact ⟨.refl hs, hPs⟩

/-- The object is given back to the process. -/
theorem loggerProcessObjectRelease_triple :
    (lifeLogic timely).Triple t P loggerProcessObjectRelease fun _ => P :=
  release_triple hP ⟨fun _ => rfl, fun _ => rfl⟩

/-- The instance is freed. -/
theorem freeInstance_triple : (lifeLogic timely).Triple t P freeInstance fun _ => P :=
  release_triple hP ⟨fun _ => rfl, fun _ => rfl⟩

/-- A call of the environment during a teardown keeps the place. -/
theorem tearExternal_triple : (lifeLogic timely).Triple t P external fun _ => P :=
  triple_external hP.stable

/-- So does the destruction of mutexes and conditions. -/
theorem tearObjects_triple (n : ℕ) :
    (lifeLogic timely).Triple t P (destroyObjects n) fun _ => P := by
  induction n with
  | zero => exact stay_triple
  | succ n ih =>
    refine Logic.Triple.bind (triple_external hP.stable) fun reply => ?_
    exact Logic.triple_ite (fun _ => stay_triple) fun _ => ih

/-- The queue is destroyed with its spills and its slots. -/
theorem loggerQueueDestroy_triple :
    (lifeLogic timely).Triple t P loggerQueueDestroy fun _ => P := by
  refine Logic.Triple.bind (triple_load (fun _ => hP.stable) fun _ _ hs => hs) fun error => ?_
  refine Logic.triple_ite (fun _ => stay_triple) fun _ => ?_
  refine Logic.Triple.bind (tearObjects_triple hP 2) fun rc => ?_
  refine Logic.triple_ite (fun _ => stay_triple) fun _ => ?_
  refine Logic.Triple.bind (release_triple hP ⟨fun _ => rfl, fun _ => rfl⟩) fun rc => ?_
  exact Logic.triple_ite (fun _ => stay_triple) fun _ =>
    release_triple hP ⟨fun _ => rfl, fun _ => rfl⟩

end Teardown

section Constructor

/-- The constructor is running, with this worker and this record of a teardown. -/
structure CtorAt (spawned : Bool) (d : Teardown) (s : Life) : Prop where
  created : s.history.created = none
  spawned : s.history.spawned = spawned
  teardown : s.history.teardown = d

/-- The constructor keeps its place. -/
theorem ctor_place (spawned : Bool) (d : Teardown) :
    FreePlace timely .constructor (CtorAt spawned d) := by
  refine FreePlace.of_role (fun s s' hsees hs => ?_) (fun _ _ hs => hs.created)
    fun s s' hrole hs => ?_
  · have hrely := hsees.2.2.constructor rfl
    exact ⟨hrely.created.trans hs.created, hrely.spawned.trans hs.spawned,
      (hrely.teardown hs.created).trans hs.teardown⟩
  · obtain ⟨hspawned, -, hcreated, -, -, -, -, hteardown⟩ := LifeHistory.role_inj hrole
    exact ⟨hcreated.trans hs.created, hspawned.trans hs.spawned, hteardown.trans hs.teardown⟩

/-- Without a worker the constructor is alone, and whatever it knows is stable. -/
theorem ctor_alone_stable {d : Teardown} (Q : Life → Prop) :
    (lifeLogic timely).Stable .constructor fun s => CtorAt false d s ∧ Q s := by
  rintro s s' hsees ⟨hat, hQ⟩
  have hgone : WorkerGone s := fun hs => absurd (hat.spawned.symm.trans hs) nofun
  rw [(hsees.2.2.constructor rfl).alone hat.created hgone]
  exact ⟨hat, hQ⟩

/-- The instance before its worker is started. -/
def Fresh (s : Life) : Prop := s.state = .created ∧ s.history.cleared = false

/-- A running worker, or one that has failed already; a direct instance has none. -/
def Ready (s : Life) : Prop := s.asyncMode = true → s.running = true ∨ 2 ≤ s.state.toNat

/-- No other thread has a part in the instance before it is published. -/
theorem ready_stable (spawned : Bool) (d : Teardown) :
    (lifeLogic timely).Stable .constructor fun s => CtorAt spawned d s ∧ Ready s := by
  have hP : FreePlace timely .constructor (CtorAt spawned d) := ctor_place spawned d
  rintro s s' hsees ⟨hat, hready⟩
  refine ⟨hP.stable s s' hsees hat, fun hasync => ?_⟩
  rcases hready (hsees.1.asyncMode.symm.trans hasync) with hrunning | hstop
  · exact (hsees.2.2.constructor rfl).running hrunning
  · exact .inr (hstop.trans hsees.1.state)

/-- The constructor alone can do what keeps the invariant and moves the words forward. -/
theorem ctor_alone_acts {s' : Life} {d : Teardown} (hs : LifeInv timely s) (hat : CtorAt false d s)
    (hinv : LifeInv timely s') (hguar : LifeGuar s s')
    (hmarking : s'.history.marking = s.history.marking)
    (hdone : s'.history.workerDone = s.history.workerDone)
    (hborrowers : s'.history.borrowers = s.history.borrowers)
    (hdisposing : s'.history.disposing = s.history.disposing)
    (hended : s'.history.ended = s.history.ended) : Acts timely .constructor s s' := by
  have hnot : ¬ s.history.disposing = true := fun hd =>
    absurd (hat.created.symm.trans (hs.disposing hd).1) nofun
  refine ⟨hinv, hguar, fun u hu => ?_⟩
  refine ⟨by rw [hmarking], fun hc => absurd hc hu, fun _ => hdone, fun n _ => by rw [hborrowers],
    fun _ => ⟨hdisposing, hended, fun hc => ?_, fun hd => absurd hd hnot, fun hd => absurd hd hnot⟩⟩
  exact absurd (hat.created.symm.trans hc) nofun

/-- Creating the mutexes and conditions keeps the place of the constructor, or fails. -/
theorem ctorObjects_triple {d : Teardown} (Q : Life → Prop) :
    (lifeLogic timely).Triple .constructor (fun s => CtorAt false d s ∧ Q s) ctorObjects
      fun _ s => CtorAt false d s ∧ Q s := by
  have hask : (lifeLogic timely).Triple .constructor (fun s => CtorAt false d s ∧ Q s) external
      fun _ s => CtorAt false d s ∧ Q s := triple_external (ctor_alone_stable Q)
  refine Logic.Triple.bind hask fun emitMu => Logic.triple_ite (fun _ => stay_triple) fun _ => ?_
  refine Logic.Triple.bind hask fun progressMu => Logic.triple_ite (fun _ => stay_triple)
    fun _ => ?_
  refine Logic.Triple.bind hask fun progressCv => Logic.triple_ite (fun _ => stay_triple)
    fun _ => ?_
  refine Logic.Triple.bind hask fun file => Logic.triple_ite (fun _ => stay_triple) fun _ => ?_
  exact Logic.Triple.bind hask fun syslog => stay_triple

/-- What the constructor alone knows, apart from `wait_mu_error`. -/
theorem loggerQueueInit_triple {d : Teardown} {Q : Life → Prop}
    (hQ : ∀ s e, Q s → Q { s with waitMuError := e }) :
    (lifeLogic timely).Triple .constructor (fun s => CtorAt false d s ∧ Q s) loggerQueueInit
      fun _ s => CtorAt false d s ∧ Q s := by
  have hask : (lifeLogic timely).Triple .constructor (fun s => CtorAt false d s ∧ Q s) external
      fun _ s => CtorAt false d s ∧ Q s := triple_external (ctor_alone_stable Q)
  refine Logic.Triple.bind hask fun memory => Logic.triple_ite (fun _ => stay_triple) fun _ => ?_
  refine Logic.Triple.bind hask fun cond => Logic.triple_ite (fun _ => ?_) fun _ => stay_triple
  refine Logic.Triple.bind hask fun destroy => ?_
  refine Logic.Triple.bind (Q := fun _ s => CtorAt false d s ∧ Q s) ?_ fun _ => stay_triple
  refine Logic.triple_ite (fun _ => ?_) fun _ => stay_triple
  refine triple_store (ctor_alone_stable Q) ?_
  rintro s hs ⟨hat, hQs⟩ hok
  refine ⟨WordStep.acts ?_ hs hat.created hok, ⟨hat.1, hat.2, hat.3⟩, hQ s _ hQs⟩
  exact ⟨rfl, rfl, .inl rfl, .inl rfl, id, fun _ => rfl, id, hs.cleared, fun _ _ => Iff.rfl,
    hs.marked, hs.marking⟩

/-- Starting the worker: with success, it runs or has failed already. -/
theorem loggerCtorStartWorker_triple (state : CtorState) (hstate : state.workerStarted = false) :
    (lifeLogic timely).Triple .constructor (fun s => CtorAt false {} s ∧ Fresh s)
      (loggerCtorStartWorker state)
      fun r s => CtorAt r.2.workerStarted {} s ∧ (r.1 = 0 → Ready s) := by
  have hP : FreePlace timely .constructor (CtorAt false {}) := ctor_place false {}
  -- every failure after the mode is known ends the same way: no worker
  have hfail : ∀ {rc : ℤ} (state' : CtorState), state'.workerStarted = false → rc ≠ 0 →
      (lifeLogic timely).Triple .constructor (CtorAt false {}) (pure (rc, state') : LifeCode _)
        fun r s => CtorAt r.2.workerStarted {} s ∧ (r.1 = 0 → Ready s) := by
    intro rc state' hstate' hrc
    refine Logic.triple_pure fun s _ hs => ⟨?_, fun h => absurd h hrc⟩
    rw [hstate']
    exact hs
  refine Logic.Triple.bind
    (Q := fun v s => CtorAt false {} s ∧ (Fresh s ∧ s.asyncMode = v)) (triple_load
    (fun v => ctor_alone_stable _) fun s _ hs => ⟨hs.1, hs.2, rfl⟩) fun asyncMode => ?_
  refine Logic.triple_ite (fun hdirect => ?_) fun hasync => ?_
  -- a synchronous instance needs no worker and is ready at once
  · refine Logic.triple_pure fun s _ hs => ⟨hstate ▸ hs.1, fun _ ha => ?_⟩
    exact absurd (hs.2.2.symm.trans ha) hdirect
  · have hasync : asyncMode = true := by simpa using hasync
    subst hasync
    refine Logic.Triple.bind (loggerQueueInit_triple fun s e hs => hs) fun error => ?_
    refine Logic.triple_ite (fun herror => ?_) fun _ => ?_
    · refine Logic.Triple.bind (Q := fun _ => CtorAt false {}) (triple_load (fun _ => hP.stable)
        fun _ _ hs => hs.1) fun proofError => ?_
      -- a queue that could not be made leaves the constructor alone with its error
      refine Logic.Triple.bind (Q := fun _ => CtorAt false {}) ?_ fun _ =>
        hfail state hstate (Int.neg_ne_zero.mpr herror)
      by_cases hzero : proofError = 0
      · rw [loggerNoteSynchronizationError, if_pos hzero]
        exact stay_triple
      · exact noteSynchronization_triple hP hzero
    · refine Logic.Triple.bind (triple_external (ctor_alone_stable _)) fun workspace => ?_
      refine Logic.triple_ite (fun hws => ?_) fun _ => ?_
      · exact (hfail { state with queueReady := true } hstate
          (Int.neg_ne_zero.mpr hws)).pre fun _ _ hs => hs.1
      · refine Logic.Triple.bind (Q := fun _ s => CtorAt false {} s ∧
          (Fresh s ∧ s.asyncMode = true ∧ s.running = true))
          (triple_store (ctor_alone_stable _) ?_) fun _ => ?_
        · rintro s hs ⟨hat, hfresh, ha⟩ -
          refine ⟨ctor_alone_acts hs hat ?_ { LifeGuar.refl s with } rfl rfl rfl rfl rfl,
            ⟨hat.1, hat.2, hat.3⟩, hfresh, ha, rfl⟩
          exact { hs with
            running := fun _ _ => rfl
            cleared := fun hc => absurd (hfresh.2.symm.trans hc) (by rintro ⟨⟩)
            direct := fun hd => absurd (ha.symm.trans hd) (by rintro ⟨⟩) }
        -- from here on the outcome of `pthread_create` decides whether a worker exists
        · refine Logic.Triple.bind (Q := fun rc s => CtorAt (rc == 0) {} s ∧
            (rc = 0 → Ready s) ∧ (rc ≠ 0 → s.state = .created)) (triple_act (fun rc => ?_) ?_)
            fun rc => ?_
          · by_cases hrc : rc = 0
            · subst hrc
              intro s s' hsees hs
              obtain ⟨hat, hready⟩ := ready_stable true {} s s' hsees ⟨hs.1, hs.2.1 rfl⟩
              exact ⟨hat, fun _ => hready, fun h => absurd rfl h⟩
            · have hfalse : (rc == 0) = false := by simpa using hrc
              rw [hfalse]
              exact ctor_alone_stable _
          · rintro s a b s' hs ⟨hat, hfresh, ha, hrunning⟩ hact -
            obtain ⟨rfl, rfl⟩ := Prod.mk.inj (Option.some.inj hact)
            have hpos := a.errno_pos
            cases hok : a.ok with
            -- the worker may run from this step on
            | true =>
              have hzero : a.error = 0 := by simp [LifeReply.error, hok]
              simp only [hzero, if_true]
              refine ⟨ctor_alone_acts hs hat ?_ { LifeGuar.refl s with spawned := fun _ => rfl }
                rfl rfl rfl rfl rfl, ⟨hat.1, rfl, hat.3⟩, fun _ _ => .inl hrunning,
                fun h => absurd rfl h⟩
              exact { hs with
                direct := fun hd => absurd (ha.symm.trans hd) (by rintro ⟨⟩)
                ended := fun he => absurd ((hs.not_ended (t := .constructor) hat.1).symm.trans he)
                  (by rintro ⟨⟩) }
            -- no thread was created, so the constructor is still alone
            | false =>
              have hne : a.error ≠ 0 := by simp [LifeReply.error, hok]; omega
              have hfalse : (a.error == 0) = false := by simpa using hne
              simp only [hfalse]
              exact ⟨.refl hs, hat, fun h => absurd h hne, fun _ => hfresh.1⟩
          · refine Logic.triple_ite (fun hrc => ?_) fun hrc => ?_
            · have hfalse : (rc == 0) = false := by simpa using hrc
              rw [hfalse]
              refine Logic.Triple.bind (Q := fun _ => CtorAt false {})
                (triple_store hP.stable ?_) fun _ =>
                hfail { state with queueReady := true } hstate
                  (Int.neg_ne_zero.mpr hrc)
              -- No thread but the constructor: `running` may go back before the state does.
              rintro s hs ⟨hat, -, hcreated⟩ -
              refine ⟨ctor_alone_acts hs hat ?_ { LifeGuar.refl s with cleared := fun _ => rfl }
                rfl rfl rfl rfl rfl, ⟨hat.1, hat.2, hat.3⟩⟩
              exact { hs with
                running := fun hr => absurd ((hcreated hrc).symm.trans hr) (by rintro ⟨⟩)
                cleared := fun _ => rfl
                direct := fun hd => ⟨rfl, (hs.direct hd).2⟩
                marked := fun he hm => ⟨(hs.marked he hm).1, (hs.marked he hm).2.1, rfl⟩ }
            · have hrc : rc = 0 := by simpa using hrc
              subst hrc
              exact Logic.triple_pure fun s _ hs => ⟨hs.1, fun _ => hs.2.1 rfl⟩

/-- The constructor in a rollback that has found no error. -/
structure CtorClean (timely : Prop) (s : Life) : Prop where
  created : s.history.created = none
  clean : timely → s.history.teardown.Clean

/-- A constructor that rolls back after clean looks keeps its place. -/
theorem ctorClean_place : FreePlace timely .constructor (CtorClean timely) := by
  refine FreePlace.of_role (fun s s' hsees hs => ?_) (fun _ _ hs => hs.created)
    fun s s' hrole hs => ?_
  · have hrely := hsees.2.2.constructor rfl
    refine ⟨hrely.created.trans hs.created, ?_⟩
    rw [hrely.teardown hs.created]
    exact hs.clean
  · obtain ⟨-, -, hcreated, -, -, -, -, hteardown⟩ := LifeHistory.role_inj hrole
    refine ⟨hcreated.trans hs.created, ?_⟩
    rw [hteardown]
    exact hs.clean

/-- It may release what it has acquired. -/
theorem ctorClean_tearPlace : TearPlace timely .constructor (CtorClean timely) := by
  refine ⟨ctorClean_place.stable, fun _ _ hs => .inl ⟨rfl, hs.created⟩, fun _ hs => hs.clean,
    fun s f hf hs => ⟨hs.created, fun ht e he => ?_⟩⟩
  rw [show (s.record f).history.teardown = f s.history.teardown from rfl, hf.1, hf.2] at he
  exact hs.clean ht e he

/-- The rollback is about to return a code that its record allows. -/
structure CtorEnding (timely : Prop) (rc : ℤ) (s : Life) : Prop where
  created : s.history.created = none
  proved : timely → ({ s.history.teardown with returned := some rc } : Teardown).Proved

/-- A clean rollback may end. -/
theorem CtorClean.ending {s : Life} (h : CtorClean timely s) (rc : ℤ) : CtorEnding timely rc s :=
  ⟨h.created, fun ht => Teardown.Clean.proved (h.clean ht)⟩

/-- A cleanup that goes on from a clean record. -/
theorem proving_triple {rc : ℤ} {rest : LifeCode ℤ}
    (hrest : (lifeLogic timely).Triple .constructor (CtorClean timely) rest (CtorEnding timely)) :
    (lifeLogic timely).Triple .constructor (CtorClean timely) (proving rc rest)
      (CtorEnding timely) := by
  refine Logic.triple_ite (fun hrc => ?_) fun _ => hrest
  rw [loggerCtorNoteProofError, if_neg hrc]
  refine Logic.Triple.bind (noteFirst_triple ctorClean_place.toPlace (by omega)) fun _ => ?_
  exact Logic.triple_pure fun s _ hs => hs.1.ending rc

/-- The rollback releases everything after its looks and ends. -/
theorem rollbackRelease_triple (state : CtorState) :
    (lifeLogic timely).Triple .constructor (CtorClean timely) (rollbackRelease state)
      (CtorEnding timely) := by
  have hT : TearPlace timely .constructor (CtorClean timely) := ctorClean_tearPlace
  refine Logic.Triple.bind (record_triple hT ⟨fun _ => rfl, fun _ => rfl⟩) fun _ => ?_
  refine Logic.Triple.bind (Q := fun _ => CtorClean timely) (Logic.triple_ite
    (fun _ => loggerQueueDestroy_triple hT) fun _ => stay_triple) fun rc => proving_triple ?_
  refine Logic.Triple.bind (tearObjects_triple hT _) fun rc => proving_triple ?_
  refine Logic.Triple.bind (tearExternal_triple hT) fun close => ?_
  refine Logic.Triple.bind (loggerProcessObjectRelease_triple hT) fun rc => proving_triple ?_
  refine Logic.Triple.bind (freeInstance_triple hT) fun freeRc => ?_
  exact Logic.triple_pure fun s _ hs => hs.ending _

/-- The constructor has looked at the error word and, in timely runs, finds it unchanged. -/
structure CtorLooked (timely : Prop) (v : ℤ) (s : Life) : Prop where
  created : s.history.created = none
  teardown : s.history.teardown = { looked := some v }
  timely : timely → s.synchronizationError = v

/-- What the constructor has looked at stays. -/
theorem ctorLooked_stable (v : ℤ) :
    (lifeLogic timely).Stable .constructor (CtorLooked timely v) := by
  intro s s' hsees hs
  have hrely := hsees.2.2.constructor rfl
  refine ⟨hrely.created.trans hs.created, (hrely.teardown hs.created).trans hs.teardown,
    fun ht => ?_⟩
  have hsome : s.history.teardown.looked.isSome := by
    rw [hs.teardown]
    rfl
  exact (hrely.timely ht hs.created hsome).trans (hs.timely ht)

/-- A look that has found no error is clean. -/
theorem CtorLooked.clean {s : Life} (h : CtorLooked timely 0 s) : CtorClean timely s := by
  refine ⟨h.created, fun _ e he => ?_⟩
  rw [h.teardown] at he
  rcases he with he | he
  · exact (Option.some.inj he).symm
  · exact absurd he nofun

/-- A rollback that has found an error ends without a release. -/
theorem CtorLooked.ending {v : ℤ} {s : Life} (h : CtorLooked timely v s) {rc : ℤ} (hrc : rc ≠ 0) :
    CtorEnding timely rc s := by
  refine ⟨h.created, fun _ e _ _ => ?_⟩
  rw [h.teardown]
  refine ⟨rfl, rfl, rfl, rfl, rfl, fun rc' hrc' => ?_⟩
  rw [← Option.some.inj hrc']
  exact hrc

/-- A constructor that has looked keeps its place. -/
theorem ctorLooked_place (v : ℤ) : Place timely .constructor (CtorLooked timely v) := by
  refine ⟨ctorLooked_stable v, fun _ _ hs => hs.created, fun s s' hrole hsync hs => ?_⟩
  obtain ⟨-, -, hcreated, -, -, -, -, hteardown⟩ := LifeHistory.role_inj hrole
  exact ⟨hcreated.trans hs.created, hteardown.trans hs.teardown,
    fun ht => hsync.trans (hs.timely ht)⟩

/-- The look of the rollback at the error word. -/
theorem ctorLook_triple {b : Bool} :
    (lifeLogic timely).Triple .constructor (fun s => CtorAt b {} s ∧ 2 ≤ s.state.toNat)
      lookSynchronizationError fun v s => CtorLooked timely v s ∧ 2 ≤ s.state.toNat := by
  refine triple_act (fun v => stable_and (ctorLooked_stable v) fun _ _ hg hs =>
    le_trans hs hg.state) ?_
  rintro s a v s' hs ⟨hat, hstate⟩ hact -
  obtain ⟨rfl, rfl⟩ := Prod.mk.inj (Option.some.inj hact)
  have hrecord : ({ s.history.teardown with looked := some s.synchronizationError } : Teardown) =
      { looked := some s.synchronizationError } := by rw [hat.teardown]
  refine ⟨record_acts hs (.inl ⟨rfl, hat.created⟩) fun _ e _ _ => ?_,
    ⟨hat.created, hrecord, fun _ => rfl⟩, hstate⟩
  rw [hrecord]
  exact ⟨rfl, rfl, rfl, rfl, rfl, fun _ => nofun⟩

/-- In timely runs the worker is joined without an error. -/
theorem ctorJoin_triple :
    (lifeLogic timely).Triple .constructor (CtorLooked timely 0) joinWorker
      fun _ => CtorClean timely := by
  refine triple_act (fun _ => ctorClean_place.stable) ?_
  intro s a rc s' hs hlooked hact _
  split at hact
  · split at hact
    · obtain ⟨rfl, rfl⟩ := Prod.mk.inj (Option.some.inj hact)
      have hclean : timely →
          ({ s.history.teardown with joined := some s.synchronizationError } : Teardown).Clean := by
        rintro ht e (he | he)
        · exact hlooked.clean.clean ht e (.inl he)
        · rw [← Option.some.inj he]
          exact hlooked.timely ht
      exact ⟨record_acts hs (.inl ⟨rfl, hlooked.created⟩) fun ht => (hclean ht).proved,
        hlooked.created, hclean⟩
    · exact absurd hact nofun
  · obtain ⟨rfl, rfl⟩ := Prod.mk.inj (Option.some.inj hact)
    exact ⟨.refl hs, hlooked.clean⟩

/-- `logger_ctor_rollback` releases only after a look that has found no error. -/
theorem loggerCtorRollback_triple (state : CtorState) :
    (lifeLogic timely).Triple .constructor (CtorAt state.workerStarted {})
    (loggerCtorRollback state) (CtorEnding timely) := by
  have hP : FreePlace timely .constructor (CtorAt state.workerStarted {}) := ctor_place _ _
  have hL : ∀ v, Place timely .constructor (CtorLooked timely v) := ctorLooked_place
  have hN : ∀ s s' : Life, LifeGuar s s' → 2 ≤ s.state.toNat → 2 ≤ s'.state.toNat :=
    -- the state never goes back from stopping
    fun _ _ hg hs => le_trans hs hg.state
  refine Logic.Triple.bind (Q := fun _ s => CtorAt state.workerStarted {} s ∧ 2 ≤ s.state.toNat)
    ((storeStopping_triple hP.toPlace (N := fun _ => True) fun _ _ _ hs => hs).conseq
      (fun _ _ hs => ⟨hs, trivial⟩) fun _ _ _ hs => ⟨hs.1.1, hs.2⟩) fun _ => ?_
  refine Logic.Triple.bind ctorLook_triple fun v => ?_
  refine Logic.Triple.bind (Q := fun e s => (CtorLooked timely v s ∧ 2 ≤ s.state.toNat) ∧
    (v ≠ 0 → e ≠ 0)) (Logic.triple_ite (fun hv => ?_) fun _ => ?_) fun syncError => ?_
  -- the queue's own error is read only after a clean first look
  · exact triple_load (fun e => fun s s' hsees hs =>
      ⟨stable_and (hL v).stable hN s s' hsees hs.1, hs.2⟩) fun s _ hs =>
        ⟨hs, fun h => absurd hv.1 h⟩
  · exact Logic.triple_pure fun s _ hs => ⟨hs, id⟩
  · refine Logic.triple_ite (fun hsync => ?_) fun hsync => ?_
    · -- An error was seen: it is noted, and everything stays.
      rw [loggerCtorNoteProofError, if_neg hsync]
      refine Logic.Triple.bind ((noteFirst_triple (hL v) (by omega)).pre fun _ _ hs => hs.1.1)
        fun _ => ?_
      exact Logic.triple_pure fun s _ hs => hs.1.ending (Int.neg_ne_zero.mpr hsync)
    · refine Logic.triple_fact (p := v = 0) (fun s _ hs => ?_) fun hv => ?_
      -- no error was seen, so the look itself was clean
      · by_contra hv
        exact hsync (hs.2 hv)
      subst hv
      refine Logic.triple_ite (fun _ => ?_) fun _ => ?_
      · refine Logic.Triple.bind (Q := fun _ => CtorLooked timely 0)
          ((clearRunning_triple (hL 0) hN fun _ hs => hs).conseq (fun _ _ hs => hs.1)
            fun _ _ _ hs => hs.1.1) fun _ => ?_
        refine Logic.Triple.bind (Q := fun _ => CtorLooked timely 0) (Logic.triple_ite
          (fun _ => loggerQueueWakeForce_triple (hL 0)) fun _ => stay_triple) fun wakeRc => ?_
        refine Logic.triple_ite (fun hwake => ?_) fun _ => ?_
        · rw [loggerCtorNoteProofError, if_neg hwake]
          refine Logic.Triple.bind (noteFirst_triple (hL 0) (by omega)) fun _ => ?_
          exact Logic.triple_pure fun s _ hs => hs.1.ending hwake
        · refine Logic.Triple.bind ctorJoin_triple fun joinRc => ?_
          -- the release follows a join, and what that saw is not read again
          exact proving_triple (rollbackRelease_triple state)
      · exact (rollbackRelease_triple state).pre fun _ _ hs => hs.1.1.clean

/-- A failed step of the constructor leads to a rollback. -/
theorem ctorFail_triple (state : CtorState) :
    (lifeLogic timely).Triple .constructor (CtorAt state.workerStarted {}) (ctorFail state)
      fun b s => s.history.created = none ∧
        (b = true → s.history.entered = 1 ∧ s.history.teardown = {}) := by
  refine Logic.Triple.bind (loggerCtorRollback_triple state) fun rc => ?_
  refine Logic.Triple.bind (Q := fun _ s => s.history.created = none) (triple_store ?_ ?_)
    fun _ => ?_
  · exact fun s s' hsees hs => (hsees.2.2.constructor rfl).created.trans hs
  · exact fun s hs hend _ => ⟨record_acts hs (.inl ⟨rfl, hend.created⟩) hend.proved, hend.created⟩
  · exact Logic.triple_pure fun s _ hs => ⟨hs, nofun⟩

/-- The constructor's compare-and-swap. -/
theorem loggerStateTryPublish_triple {b : Bool} :
    (lifeLogic timely).Triple .constructor (fun s => CtorAt b {} s ∧ Ready s) loggerStateTryPublish
      fun published s => CtorAt b {} s ∧ (published = true → s.history.entered = 1) := by
  have hP : FreePlace timely .constructor (CtorAt b {}) := ctor_place b {}
  refine triple_act (fun published s s' hsees hs => ⟨hP.stable s s' hsees hs.1, fun hp => ?_⟩) ?_
  · exact (hsees.2.2.constructor rfl).entered.trans (hs.2 hp)
  · rintro s a published s' hs ⟨hat, hready⟩ hact -
    split at hact
    · rename_i hcreated
      obtain ⟨rfl, rfl⟩ := Prod.mk.inj (Option.some.inj hact)
      -- nobody has entered the instance before
      have hzero := hs.notEntered hcreated
      have hnot : ¬ s.history.disposing = true := fun hd =>
        absurd (hat.created.symm.trans (hs.disposing hd).1) nofun
      have hrunning : s.asyncMode = true → s.running = true := by
        intro hasync
        -- a worker that had stopped would have moved the state on
        rcases hready hasync with hr | hstop
        · exact hr
        · rw [hcreated] at hstop
          exact absurd hstop (by decide)
      have hmarked : s.synchronizationError ≠ 0 → s.history.marking = none → False := by
        intro he hm
        have hstop := (hs.marked he hm).2.1
        rw [hcreated] at hstop
        exact absurd hstop (by decide)
      -- the new state is running, which only this step can bring about
      refine ⟨⟨{ hs with
          entered := by simp only [hzero]; decide
          enteredOf := fun _ => by simp only [hzero]
          notEntered := nofun
          running := fun _ => hrunning
          marked := fun he hm => (hmarked he hm).elim
          stopped := nofun },
        { LifeGuar.refl s with
          state := by rw [hcreated]; exact Nat.zero_le _
          entering := fun _ => .inr hcreated },
        fun u hu => ⟨Iff.rfl, fun hc => absurd hc hu, fun _ => rfl, fun _ _ => Iff.rfl, fun _ =>
          { DisposerRely.refl s with
            teardown := fun hd => absurd hd hnot, alone := fun hd => absurd hd hnot }⟩⟩,
        ⟨hat.1, hat.2, hat.3⟩, fun _ => ?_⟩
      simp only [hzero]
    · obtain ⟨rfl, rfl⟩ := Prod.mk.inj (Option.some.inj hact)
      exact ⟨.refl hs, hat, nofun⟩

/-- `create_logger` enters the instance into the process, or rolls back. -/
theorem createLogger_triple :
    (lifeLogic timely).Triple .constructor (fun s => CtorAt false {} s ∧ Fresh s) createLogger
      fun b s => s.history.created = none ∧
        (b = true → s.history.entered = 1 ∧ s.history.teardown = {}) := by
  have hfalse : (lifeLogic timely).Triple .constructor (fun s => CtorAt false {} s ∧ Fresh s)
      (pure false : LifeCode Bool)
      fun b s => s.history.created = none ∧
        (b = true → s.history.entered = 1 ∧ s.history.teardown = {}) :=
    Logic.triple_pure fun s _ hs => ⟨hs.1.created, nofun⟩
  have hask : (lifeLogic timely).Triple .constructor (fun s => CtorAt false {} s ∧ Fresh s) external
      fun _ s => CtorAt false {} s ∧ Fresh s := triple_external (ctor_alone_stable _)
  -- before the constructor has made anything there is nothing to prove quiet
  have hclean : ∀ s, CtorAt false {} s ∧ Fresh s → CtorClean timely s := by
    rintro s ⟨hat, -⟩
    refine ⟨hat.created, fun _ e he => ?_⟩
    rw [hat.teardown] at he
    rcases he with he | he <;> exact absurd he nofun
  refine Logic.Triple.bind hask fun config => Logic.triple_ite (fun _ => hfalse) fun _ => ?_
  refine Logic.Triple.bind hask fun acquire => Logic.triple_ite (fun _ => hfalse) fun _ => ?_
  refine Logic.Triple.bind hask fun memory => Logic.triple_ite (fun _ => ?_) fun _ => ?_
  -- the object count is returned although no instance was made
  · refine Logic.Triple.bind ((loggerProcessObjectRelease_triple ctorClean_tearPlace).pre
      fun s _ hs => hclean s hs) fun _ => ?_
    exact Logic.triple_pure fun s _ hs => ⟨hs.created, nofun⟩
  · refine Logic.Triple.bind (ctorObjects_triple Fresh) fun ⟨error, objects⟩ => ?_
    refine Logic.triple_ite (fun _ => ?_) fun _ => ?_
    · exact (ctorFail_triple { objects }).pre fun _ _ hs => hs.1
    · refine Logic.Triple.bind (loggerCtorStartWorker_triple { objects } rfl) fun ⟨rc, state⟩ => ?_
      refine Logic.triple_ite (fun _ => ?_) fun hrc => ?_
      · exact (ctorFail_triple state).pre fun _ _ hs => hs.1
      · have hrc : rc = 0 := by simpa using hrc
        refine Logic.Triple.bind (loggerStateTryPublish_triple.pre fun s _ hs =>
          ⟨hs.1, hs.2 hrc⟩) fun published => ?_
        -- a publication that fails is a failure of the constructor like any other
        refine Logic.triple_ite (fun hp => ?_) fun _ => ?_
        · exact Logic.triple_pure fun s _ hs => ⟨hs.1.created, fun _ => ⟨hs.2 hp, hs.1.teardown⟩⟩
        · refine Logic.Triple.bind (Q := fun _ => CtorAt state.workerStarted {}) (triple_load
            (fun _ => (ctor_place _ _).stable) fun _ _ hs => hs.1) fun _ => ctorFail_triple state

/-- The constructor returns. -/
theorem created_acts (hs : LifeInv timely s) (hnone : s.history.created = none) {b : Bool}
    (hb : b = true → s.history.entered = 1 ∧ s.history.teardown = {}) :
    Acts timely .constructor s { s with history := { s.history with created := some b } } := by
  have hnot : ¬ s.history.disposing = true := fun hd =>
    absurd (hnone.symm.trans (hs.disposing hd).1) nofun
  have hborrowers : ∀ n, n ∉ s.history.borrowers := fun n hn =>
    absurd (hnone.symm.trans (hs.borrowed n hn)) nofun
  refine ⟨{ hs with
      enteredOf := fun h => h.elim (fun hr => hs.enteredOf (.inl hr))
        fun hc => (hb (Option.some.inj hc)).1
      untouched := fun hc _ => (hb (Option.some.inj hc)).2
      borrowed := fun n hn => absurd hn (hborrowers n)
      disposing := fun hd => absurd hd hnot },
    { LifeGuar.refl s with created := fun hc => absurd (hnone.symm.trans hc) nofun },
    fun u hu => ⟨Iff.rfl, fun hc => absurd hc hu, fun _ => rfl, fun _ _ => Iff.rfl, fun _ =>
      { DisposerRely.refl s with
        spawned := fun _ => rfl, alone := fun hd => absurd hd hnot }⟩⟩

/-- The constructor publishes the instance at most once. -/
theorem constructor_triple :
    (lifeLogic timely).Triple .constructor (fun s => CtorAt false {} s ∧ Fresh s)
      (lifeMain .constructor) fun _ _ => True := by
  refine Logic.Triple.bind createLogger_triple fun b => ?_
  exact triple_store (fun _ _ _ _ => trivial) fun s hs hc _ =>
    ⟨created_acts hs hc.1 hc.2, trivial⟩

end Constructor

section Disposer

/-- The disposer is running, with this record. -/
structure DisposerAt (d : Teardown) (s : Life) : Prop where
  disposing : s.history.disposing = true
  ended : s.history.ended = false
  teardown : s.history.teardown = d

/-- The disposer keeps its place. -/
theorem disposer_place (d : Teardown) : FreePlace timely .disposer (DisposerAt d) := by
  refine FreePlace.of_role (fun s s' hsees hs => ?_) (fun _ _ hs => ⟨hs.disposing, hs.ended⟩)
    fun s s' hrole hs => ?_
  · have hrely := hsees.2.2.disposer rfl
    exact ⟨hrely.disposing.trans hs.disposing, hrely.ended.trans hs.ended,
      (hrely.teardown hs.disposing).trans hs.teardown⟩
  · obtain ⟨-, -, -, -, -, hdisposing, hended, hteardown⟩ := LifeHistory.role_inj hrole
    exact ⟨hdisposing.trans hs.disposing, hended.trans hs.ended, hteardown.trans hs.teardown⟩

/-- Once the worker has returned the disposer is alone, and whatever it knows is stable. -/
theorem disposer_alone_stable (Q : Life → Prop) : (lifeLogic timely).Stable .disposer fun s =>
    (s.history.disposing = true ∧ WorkerGone s) ∧ Q s := by
  rintro s s' hsees ⟨⟨hdisposing, hgone⟩, hQ⟩
  rw [(hsees.2.2.disposer rfl).alone hdisposing hgone]
  exact ⟨⟨hdisposing, hgone⟩, hQ⟩

/-- `dispose_body` is about to return a code that its record allows. -/
structure DisposerEnding (rc : ℤ) (s : Life) : Prop where
  disposing : s.history.disposing = true
  proved : ({ s.history.teardown with returned := some rc } : Teardown).Proved

/-- An untouched record allows every error. -/
theorem DisposerAt.ending {looked joined : Option ℤ} {s : Life}
    (h : DisposerAt { looked, joined } s) {rc : ℤ} (hrc : rc ≠ 0) : DisposerEnding rc s := by
  refine ⟨h.disposing, fun e _ _ => ?_⟩
  rw [h.teardown]
  refine ⟨rfl, rfl, rfl, rfl, rfl, fun rc' hrc' => ?_⟩
  rw [← Option.some.inj hrc']
  exact hrc

/-- The disposer releases what is left; `ended` says whether the last state has been stored. -/
structure DisposerClean (ended : Bool) (s : Life) : Prop where
  disposing : s.history.disposing = true
  gone : WorkerGone s
  ended : s.history.ended = ended
  clean : s.history.teardown.Clean

/-- A clean disposal may end. -/
theorem DisposerClean.ending {ended : Bool} {s : Life} (h : DisposerClean ended s) (rc : ℤ) :
    DisposerEnding rc s :=
  ⟨h.disposing, Teardown.Clean.proved h.clean⟩

/-- It may release what the instance holds. -/
theorem disposerClean_tearPlace (ended : Bool) :
    TearPlace timely .disposer (DisposerClean ended) := by
  refine ⟨fun s s' hsees hs => ?_, fun _ _ hs => .inr ⟨rfl, hs.disposing⟩, fun _ hs _ => hs.clean,
    fun s f hf hs => ⟨hs.disposing, hs.gone, hs.ended, fun e he => ?_⟩⟩
  · rw [(hsees.2.2.disposer rfl).alone hs.disposing hs.gone]
    exact hs
  · rw [show (s.record f).history.teardown = f s.history.teardown from rfl, hf.1, hf.2] at he
    exact hs.clean e he

/-- A disposer that has joined the worker keeps its place. -/
theorem disposerClean_place : FreePlace timely .disposer (DisposerClean false) := by
  refine FreePlace.of_role (disposerClean_tearPlace false).stable
    (fun _ _ hs => ⟨hs.disposing, hs.ended⟩) fun s s' hrole hs => ?_
  obtain ⟨hspawned, hdone, -, -, -, hdisposing, hended, hteardown⟩ := LifeHistory.role_inj hrole
  refine ⟨hdisposing.trans hs.disposing, fun hsp => ?_, hended.trans hs.ended, ?_⟩
  · exact hdone.trans (hs.gone (hspawned.symm.trans hsp))
  · rw [hteardown]
    exact hs.clean

/-- Storing an error in `lifecycle_error` without looking at it. -/
theorem storeLifecycleError_triple (hP : Place timely t P) {error : ℤ} (herror : error ≠ 0) :
    (lifeLogic timely).Triple t P (store fun s => { s with lifecycleError := error })
    fun _ => P := by
  refine triple_store hP.stable ?_
  intro s hs hPs hok
  refine ⟨WordStep.acts ?_ hs (hP.alive s hs hPs) hok, hP.words s _ rfl rfl hPs⟩
  exact ⟨rfl, rfl, .inl rfl, .inl rfl, fun _ => herror, fun _ => rfl, id, hs.cleared,
    fun _ _ => Iff.rfl, fun he hm => ⟨herror, (hs.marked he hm).2⟩, hs.marking⟩

/-- The store of the last state. -/
theorem ended_acts (hs : LifeInv timely s) (h : DisposerClean false s) :
    Acts timely .disposer s
      { s with state := .stopped, history := { s.history with ended := true } } := by
  have hcreated := (hs.disposing h.disposing).1
  have hnone : s.history.created ≠ none := by
    rw [hcreated]
    nofun
  have hmarked := hs.marked
  have hlast : 2 ≤ LoggerState.stopped.toNat := by decide
  have hle : s.state.toNat ≤ LoggerState.stopped.toNat := by
    cases s.state <;> decide
  refine ⟨{ hs with
      enteredOf := fun _ => hs.enteredOf (.inr hcreated)
      notEntered := nofun
      running := nofun
      marked := fun he hm => ⟨(hmarked he hm).1, hlast, (hmarked he hm).2.2⟩
      ended := fun _ => ⟨h.disposing, h.gone⟩
      stopped := fun _ => rfl },
    { LifeGuar.refl s with state := hle, entering := nofun },
    fun u hu => ⟨Iff.rfl, fun _ =>
      { CtorRely.refl s with
        alone := fun hc => absurd hc hnone, running := fun _ => .inr hlast,
        notEntering := nofun },
      fun _ => rfl, fun _ _ => Iff.rfl, fun hd => absurd hd hu⟩⟩

/-- The end of `dispose_body`, from the destruction of what only the instance uses. -/
theorem disposeTail_triple {rc : ℤ} {close syslogClose : LifeReply} :
    (lifeLogic timely).Triple .disposer (DisposerClean false) (do
      store fun s => { s with state := .stopped, history := { s.history with ended := true } }
      let releaseRc ← loggerProcessObjectRelease
      if releaseRc ≠ 0 then pure releaseRc
      else do
        let freeRc ← freeInstance
        let domain ← external
        pure (if rc ≠ 0 then rc else if close.error ≠ 0 then -close.error
          else if syslogClose.error ≠ 0 then -syslogClose.error
          else if freeRc ≠ 0 then freeRc else -domain.error)) DisposerEnding := by
  have hT : TearPlace timely .disposer (DisposerClean true) := disposerClean_tearPlace true
  refine Logic.Triple.bind (Q := fun _ => DisposerClean true) (triple_store hT.stable ?_)
    fun _ => ?_
  · exact fun s hs h _ => ⟨ended_acts hs h, h.disposing, h.gone, rfl, h.clean⟩
  · refine Logic.Triple.bind (loggerProcessObjectRelease_triple hT) fun releaseRc => ?_
    refine Logic.triple_ite (fun _ => Logic.triple_pure fun s _ hs => hs.ending _) fun _ => ?_
    refine Logic.Triple.bind (freeInstance_triple hT) fun freeRc => ?_
    refine Logic.Triple.bind (tearExternal_triple hT) fun domain => ?_
    exact Logic.triple_pure fun s _ hs => hs.ending _

/-- The disposer after the worker is gone: what it joined with is what it finds. -/
structure DisposerJoined (s : Life) : Prop where
  gone : WorkerGone s
  joined : ∃ joined, DisposerAt { looked := some 0, joined } s ∧
    ∀ e, joined = some e → e = s.synchronizationError

/-- The disposer releases everything after both looks and ends. -/
theorem disposeRelease_triple :
    (lifeLogic timely).Triple .disposer DisposerJoined disposeRelease DisposerEnding := by
  have hP : FreePlace timely .disposer (DisposerClean false) := disposerClean_place
  have hT : TearPlace timely .disposer (DisposerClean false) := disposerClean_tearPlace false
  refine Logic.Triple.bind (Q := fun v s => (s.history.disposing = true ∧ WorkerGone s) ∧
    (if v = 0 then DisposerClean false s else ∃ joined, DisposerAt { looked := some 0, joined } s))
    (triple_load (fun v => disposer_alone_stable _) ?_) fun v => ?_
  -- the second look finds what the join has seen, or an error
  · rintro s hs ⟨hgone, joined, hat, hjoined⟩
    refine ⟨⟨hat.disposing, hgone⟩, ?_⟩
    split
    · rename_i hzero
      refine ⟨hat.disposing, hgone, hat.ended, fun e he => ?_⟩
      rw [hat.teardown] at he
      rcases he with he | he
      · exact (Option.some.inj he).symm
      · exact (hjoined e he).trans hzero
    · exact ⟨joined, hat⟩
  · refine Logic.triple_ite (fun hv => ?_) fun hv => ?_
    -- an error: everything stays
    · refine Logic.triple_pure fun s _ hs => ?_
      rw [if_neg hv] at hs
      obtain ⟨-, joined, hat⟩ := hs
      exact hat.ending (Int.neg_ne_zero.mpr hv)
    · refine Logic.Triple.pre (P := DisposerClean false) ?_ fun s _ hs => ?_
      · refine Logic.Triple.bind (triple_load (fun _ => hP.stable) fun _ _ hs => hs) fun life => ?_
        refine Logic.Triple.bind (tearExternal_triple hT) fun lock => ?_
        refine Logic.triple_ite (fun hlock => ?_) fun _ => ?_
        · refine Logic.Triple.bind (storeLifecycleError_triple hP.toPlace hlock) fun _ => ?_
          exact Logic.triple_pure fun s _ hs => hs.ending _
        · refine Logic.Triple.bind (Q := fun _ => DisposerClean false) (Logic.triple_ite
            (fun _ => stay_triple) fun _ => tearExternal_triple hT) fun sync => ?_
          refine Logic.Triple.bind (tearExternal_triple hT) fun unlock => ?_
          refine Logic.triple_ite (fun hunlock => ?_) fun _ => ?_
          · refine Logic.Triple.bind (noteSynchronization_triple hP hunlock) fun _ => ?_
            exact Logic.triple_pure fun s _ hs => hs.ending _
          · refine Logic.Triple.bind (triple_load (fun _ => hP.stable) fun _ _ hs => hs)
              fun asyncMode => ?_
            refine Logic.Triple.bind (Q := fun _ => DisposerClean false) (Logic.triple_ite
              (fun _ => ?_) fun _ => stay_triple) fun qrc => ?_
            · exact Logic.Triple.bind (record_triple hT ⟨fun _ => rfl, fun _ => rfl⟩) fun _ =>
                loggerQueueDestroy_triple hT
            · refine Logic.triple_ite (fun hqrc => ?_) fun _ => ?_
              · refine Logic.Triple.bind (storeLifecycleError_triple hP.toPlace
                  (Int.neg_ne_zero.mpr hqrc)) fun _ => ?_
                exact Logic.triple_pure fun s _ hs => hs.ending _
              · refine Logic.Triple.bind (tearObjects_triple hT 3) fun destroyRc => ?_
                refine Logic.triple_ite (fun hdestroy => ?_) fun _ => ?_
                · refine Logic.Triple.bind (storeLifecycleError_triple hP.toPlace
                    (Int.neg_ne_zero.mpr hdestroy)) fun _ => ?_
                  exact Logic.triple_pure fun s _ hs => hs.ending _
                · refine Logic.Triple.bind (tearExternal_triple hT) fun close => ?_
                  exact Logic.Triple.bind (tearExternal_triple hT) fun syslogClose =>
                    disposeTail_triple
      · rw [if_pos (not_not.mp hv)] at hs
        exact hs.2

/-- What the disposer has found at the join stays. -/
theorem disposerJoined_stable : (lifeLogic timely).Stable .disposer DisposerJoined := by
  rintro s s' hsees ⟨hgone, joined, hat, hjoined⟩
  rw [(hsees.2.2.disposer rfl).alone hat.disposing hgone]
  exact ⟨hgone, joined, hat, hjoined⟩

/-- The look of `dispose_body` at the error word. -/
theorem disposerLook_triple :
    (lifeLogic timely).Triple .disposer (fun s => DisposerAt {} s ∧ 2 ≤ s.state.toNat)
      lookSynchronizationError
      fun v s => DisposerAt { looked := some v } s ∧ 2 ≤ s.state.toNat := by
  refine triple_act (fun v => stable_and (disposer_place _).stable fun _ _ hg hs =>
    le_trans hs hg.state) ?_
  rintro s a v s' hs ⟨hat, hstate⟩ hact -
  obtain ⟨rfl, rfl⟩ := Prod.mk.inj (Option.some.inj hact)
  -- nothing was recorded before, so the record is this look alone
  have hrecord : ({ s.history.teardown with looked := some s.synchronizationError } : Teardown) =
      { looked := some s.synchronizationError } := by rw [hat.teardown]
  refine ⟨record_acts hs (.inr ⟨rfl, hat.disposing⟩) fun _ e _ _ => ?_,
    ⟨hat.disposing, hat.ended, hrecord⟩, hstate⟩
  rw [hrecord]
  exact ⟨rfl, rfl, rfl, rfl, rfl, fun _ => nofun⟩

/-- The disposer joins the worker and looks at `synchronization_error` again. -/
theorem disposerJoin_triple :
    (lifeLogic timely).Triple .disposer (DisposerAt { looked := some 0 }) joinWorker
      fun rc s => if rc = 0 then DisposerJoined s else DisposerAt { looked := some 0 } s := by
  refine triple_act (fun rc => ?_) ?_
  · by_cases hrc : rc = 0
    · simp only [hrc, if_true]
      exact disposerJoined_stable
    · simp only [hrc, if_false]
      exact (disposer_place _).stable
  · intro s a rc s' hs hat hact _
    split at hact
    -- the join waits for the end of the worker
    · split at hact
      · rename_i hdone
        obtain ⟨rfl, rfl⟩ := Prod.mk.inj (Option.some.inj hact)
        have hrecord :
          ({ s.history.teardown with joined := some s.synchronizationError } : Teardown)
            = { looked := some 0, joined := some s.synchronizationError } := by rw [hat.teardown]
        rw [if_pos rfl]
        refine ⟨record_acts hs (.inr ⟨rfl, hat.disposing⟩) fun _ e _ _ => ?_, fun _ => hdone,
          some s.synchronizationError, ⟨hat.disposing, hat.ended, hrecord⟩, fun e he =>
          (Option.some.inj he).symm⟩
        rw [hrecord]
        exact ⟨rfl, rfl, rfl, rfl, rfl, fun _ => nofun⟩
      · exact absurd hact nofun
    -- a failed join says nothing about the worker
    · obtain ⟨rfl, rfl⟩ := Prod.mk.inj (Option.some.inj hact)
      have hne : a.errno ≠ 0 := by
        have := a.errno_pos
        omega
      rw [if_neg hne]
      exact ⟨.refl hs, hat⟩

/-- `dispose_body` releases only what has been proved quiet. -/
theorem disposeBody_triple :
    (lifeLogic timely).Triple .disposer (DisposerAt {}) disposeBody DisposerEnding := by
  have hP : FreePlace timely .disposer (DisposerAt {}) := disposer_place _
  have hN : ∀ s s' : Life, LifeGuar s s' → 2 ≤ s.state.toNat → 2 ≤ s'.state.toNat :=
    fun _ _ hg hs => le_trans hs hg.state
  refine Logic.Triple.bind (Q := fun _ s => DisposerAt {} s ∧ 2 ≤ s.state.toNat)
    ((storeStopping_triple hP.toPlace (N := fun _ => True) fun _ _ _ hs => hs).conseq
      (fun _ _ hs => ⟨hs, trivial⟩) fun _ _ _ hs => ⟨hs.1.1, hs.2⟩) fun _ => ?_
  refine Logic.Triple.bind disposerLook_triple fun v => ?_
  have hL : FreePlace timely .disposer (DisposerAt { looked := some v }) := disposer_place _
  have hstable : ∀ a : Bool, (lifeLogic timely).Stable .disposer fun s =>
      DisposerAt { looked := some v } s ∧ (2 ≤ s.state.toNat ∧ s.asyncMode = a) := fun a =>
    stable_and hL.stable fun s s' hg hs => ⟨hN s s' hg hs.1, hg.asyncMode.trans hs.2⟩
  refine Logic.Triple.bind (Q := fun a s => DisposerAt { looked := some v } s ∧
    (2 ≤ s.state.toNat ∧ s.asyncMode = a)) (triple_load hstable
    fun s _ hs => ⟨hs.1, hs.2, rfl⟩) fun asyncMode => ?_
  -- as in the rollback, the queue's error is read after a clean first look
  refine Logic.Triple.bind (Q := fun e s => (DisposerAt { looked := some v } s ∧
    (2 ≤ s.state.toNat ∧ s.asyncMode = asyncMode)) ∧ (v ≠ 0 → e ≠ 0))
    (Logic.triple_ite (fun hv => ?_) fun _ => ?_) fun syncError => ?_
  · exact triple_load (fun e s s' hsees hs => ⟨hstable asyncMode s s' hsees hs.1, hs.2⟩)
      fun s _ hs => ⟨hs, fun h => absurd hv.1 h⟩
  · exact Logic.triple_pure fun s _ hs => ⟨hs, id⟩
  · refine Logic.triple_ite (fun hsync => ?_) fun hsync => ?_
    · -- An error was seen: it is noted, and everything stays.
      refine Logic.Triple.bind ((noteLifecycle_triple hL.toPlace hsync).pre fun _ _ hs => hs.1.1)
        fun _ => ?_
      exact Logic.triple_pure fun s _ hs => hs.ending (Int.neg_ne_zero.mpr hsync)
    · refine Logic.triple_fact (p := v = 0) (fun s _ hs => ?_) fun hv => ?_
      · by_contra hv
        exact hsync (hs.2 hv)
      subst hv
      -- a synchronous instance has no worker to stop
      refine Logic.triple_ite (fun _ => ?_) fun hdirect => ?_
      · refine Logic.Triple.bind (Q := fun _ => DisposerAt { looked := some 0 })
          ((clearRunning_triple hL.toPlace hN fun _ hs => hs).conseq
            (fun _ _ hs => ⟨hs.1.1, hs.1.2.1⟩) fun _ _ _ hs => hs.1.1) fun _ => ?_
        refine Logic.Triple.bind (loggerQueueWakeForce_triple hL.toPlace) fun wakeRc => ?_
        refine Logic.triple_ite (fun hwake => ?_) fun _ => ?_
        · refine Logic.Triple.bind (noteLifecycle_triple hL.toPlace (Int.neg_ne_zero.mpr hwake))
            fun _ => ?_
          refine Logic.Triple.bind (loggerQueueWaitError_triple hL.toPlace) fun waitError => ?_
          refine Logic.Triple.bind (Q := fun _ => DisposerAt { looked := some 0 }) ?_ fun _ =>
            Logic.triple_pure fun s _ hs => hs.ending hwake
          by_cases hzero : waitError = 0
          · rw [loggerNoteSynchronizationError, if_pos hzero]
            exact stay_triple
          · exact noteSynchronization_triple hL hzero
        -- the worker is asked to stop, and joined
        · refine Logic.Triple.bind disposerJoin_triple fun joinRc => ?_
          refine Logic.triple_ite (fun hjoin => ?_) fun hjoin => ?_
          · simp only [if_neg hjoin]
            refine Logic.Triple.bind (noteFirst_triple hL.toPlace hjoin) fun _ => ?_
            exact Logic.triple_pure fun s _ hs => hs.1.ending (Int.neg_ne_zero.mpr hjoin)
          · simp only [if_pos (not_not.mp hjoin)]
            exact disposeRelease_triple
      · refine disposeRelease_triple.pre fun s hs hat => ⟨fun hspawned => ?_, none, hat.1.1,
          fun _ h => by cases h⟩
        -- without a queue no worker was ever created
        have hasync : s.asyncMode = false := by
          rw [hat.1.2.2]
          simpa using hdirect
        exact absurd ((hs.direct hasync).2.symm.trans hspawned) (by rintro ⟨⟩)

/-- Nothing has been taken down before the disposer starts. -/
theorem disposer_triple :
    (lifeLogic timely).Triple .disposer
      (fun s => s.history.disposing = false ∧ s.history.ended = false)
      (lifeMain .disposer) fun _ _ => True := by
  have hP : FreePlace timely .disposer (DisposerAt {}) := disposer_place _
  refine Logic.Triple.bind (Q := fun _ => DisposerAt {}) (triple_act (fun _ => hP.stable) ?_)
    fun _ => ?_
  · rintro s a b s' hs ⟨hnot, hended⟩ hact -
    split at hact
    · rename_i hguard
      obtain ⟨rfl, rfl⟩ := Prod.mk.inj (Option.some.inj hact)
      have hnone : s.history.created ≠ none := by
        rw [hguard.1]
        nofun
      refine ⟨⟨{ hs with
          disposing := fun _ => hguard
          ended := fun he => absurd (hended.symm.trans he) nofun
          untouched := fun _ => nofun },
        { LifeGuar.refl s with }, fun u hu => ⟨Iff.rfl, fun _ =>
          { CtorRely.refl s with alone := fun hc => absurd hc hnone }, fun _ => rfl,
          fun _ _ => Iff.rfl, fun hd => absurd hd hu⟩⟩, rfl, hended, hs.untouched hguard.1 hnot⟩
    · exact absurd hact nofun
  · refine Logic.Triple.bind disposeBody_triple fun rc => ?_
    refine triple_store (fun _ _ _ _ => trivial) fun s hs hend _ => ⟨?_, trivial⟩
    exact record_acts hs (.inr ⟨rfl, hend.disposing⟩) fun _ => hend.proved

end Disposer

end CLogger.Lifecycle
