import CLogger.Lifecycle.Invariant

/-!
# Steps of the threads of an instance

The rules for the operations of `LifeCode`, and what the error notes, the queue's signalling
functions, the worker and the calls establish. A `Place` of a thread is an assertion that the words
do not matter to; all of this code can be passed at any place.
-/

namespace CLogger.Lifecycle

open Concurrent

variable {timely : Prop} {t : LifeThread} {P : Life → Prop}

section Rules

/-- A look at a field, by a thread whose assertion is stable. -/
theorem triple_load {α : Type} {field : Life → α} {Q : α → Life → Prop}
    (hstable : ∀ v, (lifeLogic timely).Stable t (Q v))
    (h : ∀ s, LifeInv timely s → P s → Q (field s) s) :
    (lifeLogic timely).Triple t P (load field) Q := by
  refine Logic.triple_atomic (fun _ _ _ => trivial) hstable ?_
  intro s a b s' hs hP hact _
  obtain ⟨rfl, rfl⟩ := Prod.mk.inj (Option.some.inj hact)
  exact ⟨hs, .refl s, fun u _ => (lifeLogic timely).rely_refl u s, h s hs hP⟩

/-- A call of the environment keeps a stable assertion. -/
theorem triple_external (hstable : (lifeLogic timely).Stable t P) :
    (lifeLogic timely).Triple t P external fun _ => P := by
  refine Logic.triple_atomic (fun _ _ _ => trivial) (fun _ => hstable) ?_
  intro s a b s' hs hP hact _
  obtain ⟨rfl, rfl⟩ := Prod.mk.inj (Option.some.inj hact)
  exact ⟨hs, .refl s, fun u _ => (lifeLogic timely).rely_refl u s, hP⟩

/-- An operation that acts within what every step has to show. -/
theorem triple_act {α : Type} {act : Life → LifeReply → Option (α × Life)} {Q : α → Life → Prop}
    (hstable : ∀ v, (lifeLogic timely).Stable t (Q v))
    (h : ∀ s a b s', LifeInv timely s → P s → act s a = some (b, s') →
      (lifeLogic timely).ok s t a s' → Acts timely t s s' ∧ Q b s') :
    (lifeLogic timely).Triple t P (Code.atomic () act) Q := by
  refine Logic.triple_atomic (fun _ _ _ => trivial) hstable ?_
  intro s a b s' hs hP hact hok
  obtain ⟨⟨hinv, hguar, hrely⟩, hQ⟩ := h s a b s' hs hP hact hok
  exact ⟨hinv, hguar, fun u hu => ⟨hguar, hrely u hu⟩, hQ⟩

/-- A store, by what its step does. -/
theorem triple_store {set : Life → Life} {Q : Life → Prop}
    (hstable : (lifeLogic timely).Stable t Q)
    (h : ∀ s, LifeInv timely s → P s → (lifeLogic timely).ok s t {} (set s) →
      Acts timely t s (set s) ∧ Q (set s)) :
    (lifeLogic timely).Triple t P (store set) fun _ => Q := by
  refine triple_act (fun _ => hstable) ?_
  intro s a b s' hs hP hact hok
  obtain ⟨rfl, rfl⟩ := Prod.mk.inj (Option.some.inj hact)
  exact h s hs hP hok

end Rules

/-- An assertion of an alive thread that depends on no word but `synchronization_error`. -/
structure Place (timely : Prop) (t : LifeThread) (P : Life → Prop) : Prop where
  stable : (lifeLogic timely).Stable t P
  alive : ∀ s, LifeInv timely s → P s → Alive t s
  words : ∀ s s', s'.history.role = s.history.role →
    s'.synchronizationError = s.synchronizationError → P s → P s'

/-- An assertion of an alive thread that depends on no word. -/
structure FreePlace (timely : Prop) (t : LifeThread) (P : Life → Prop) : Prop
    extends Place timely t P where
  free : ∀ s s', s'.history.role = s.history.role → P s → P s'

/-- An assertion that reads the role alone may be made anywhere. -/
theorem FreePlace.of_role (hstable : (lifeLogic timely).Stable t P)
    (halive : ∀ s, LifeInv timely s → P s → Alive t s)
    (hfree : ∀ s s', s'.history.role = s.history.role → P s → P s') : FreePlace timely t P :=
  ⟨⟨hstable, halive, fun s s' hrole _ => hfree s s' hrole⟩, hfree⟩

/-- The words say that the instance has failed. -/
structure Noted (s : Life) : Prop where
  lifecycleError : s.lifecycleError ≠ 0
  state : 2 ≤ s.state.toNat
  cleared : s.history.cleared = true

/-- What every step keeps may be added to a stable assertion. -/
theorem stable_and {N : Life → Prop} (hstable : (lifeLogic timely).Stable t P)
    (hN : ∀ s s', LifeGuar s s' → N s → N s') :
    (lifeLogic timely).Stable t fun s => P s ∧ N s :=
  fun s s' hsees hs => ⟨hstable s s' hsees hs.1, hN s s' hsees.1 hs.2⟩

/-- A note that has been made stays. -/
theorem Noted.guar {s s' : Life} (h : LifeGuar s s') (hs : Noted s) : Noted s' :=
  ⟨h.lifecycleError hs.lifecycleError, hs.state.trans h.state, h.cleared hs.cleared⟩

section Notes

variable (hP : Place timely t P)

include hP

/-- The first error of the lifecycle is set afterwards, by this note or an earlier one. -/
theorem noteFirst_triple {error : ℤ} (herror : error ≠ 0) :
    (lifeLogic timely).Triple t P (noteFirst error) fun _ s => P s ∧ s.lifecycleError ≠ 0 := by
  refine triple_store (stable_and hP.stable fun _ _ hg => hg.lifecycleError) ?_
  intro s hs hPs hok
  have hne : (if s.lifecycleError = 0 then error else s.lifecycleError) ≠ 0 := by
    split
    · exact herror
    · assumption
  refine ⟨WordStep.acts ?_ hs (hP.alive s hs hPs) hok, hP.words s _ rfl rfl hPs, hne⟩
  refine ⟨rfl, rfl, .inl rfl, .inl rfl, fun _ => hne, fun _ => rfl, id, hs.cleared,
    fun _ _ => Iff.rfl, fun he hm => ?_, hs.marking⟩
  exact ⟨hne, (hs.marked he hm).2⟩

/-- The store of stopping by a thread that is alive. -/
theorem storeStopping_triple {N : Life → Prop} (hN : ∀ s s', LifeGuar s s' → N s → N s') :
    (lifeLogic timely).Triple t (fun s => P s ∧ N s) (loggerStateStoreRelease .stopping)
      fun _ s => (P s ∧ N s) ∧ 2 ≤ s.state.toNat := by
  refine triple_store (stable_and (stable_and hP.stable hN)
    fun _ _ hg hs => le_trans hs hg.state) ?_
  rintro s hs ⟨hPs, hNs⟩ hok
  have hacts : Acts timely t s { s with state := .stopping } := by
    refine WordStep.acts ?_ hs (hP.alive s hs hPs) hok
    exact ⟨rfl, rfl, .inr rfl, .inl rfl, id, fun _ => rfl, id, hs.cleared, fun _ _ => Iff.rfl,
      fun he hm => ⟨(hs.marked he hm).1, le_rfl, (hs.marked he hm).2.2⟩, hs.marking⟩
  exact ⟨hacts, ⟨hP.words s _ rfl rfl hPs, hN s _ hacts.2.1 hNs⟩, le_rfl⟩

/-- The store of zero to `running`, once the state says so. -/
theorem clearRunning_triple {N : Life → Prop} (hN : ∀ s s', LifeGuar s s' → N s → N s')
    (hstate : ∀ s, N s → 2 ≤ s.state.toNat) :
    (lifeLogic timely).Triple t (fun s => P s ∧ N s) clearRunning
      fun _ s => (P s ∧ N s) ∧ s.history.cleared = true := by
  refine triple_store (stable_and (stable_and hP.stable hN) fun _ _ hg => hg.cleared) ?_
  rintro s hs ⟨hPs, hNs⟩ hok
  have hacts : Acts timely t s
      { s with running := false, history := { s.history with cleared := true } } := by
    refine WordStep.acts ?_ hs (hP.alive s hs hPs) hok
    exact ⟨rfl, rfl, .inl rfl, .inr ⟨rfl, hstate s hNs⟩, id, fun _ => rfl, fun _ => rfl,
      fun _ => rfl, fun _ _ => Iff.rfl,
      fun he hm => ⟨(hs.marked he hm).1, (hs.marked he hm).2.1, rfl⟩, hs.marking⟩
  exact ⟨hacts, ⟨hP.words s _ rfl rfl hPs, hN s _ hacts.2.1 hNs⟩, rfl⟩

/-- Noting an error: the word, the state and `running`, in this order. -/
theorem stopInstance_triple {error : ℤ} (herror : error ≠ 0) :
    (lifeLogic timely).Triple t P (stopInstance error) fun _ s => P s ∧ Noted s := by
  refine Logic.Triple.bind (noteFirst_triple hP herror) fun _ => ?_
  refine Logic.Triple.bind
    (storeStopping_triple hP fun _ _ hg hs => hg.lifecycleError hs) fun _ => ?_
  refine (clearRunning_triple hP
    (N := fun s => s.lifecycleError ≠ 0 ∧ 2 ≤ s.state.toNat) ?_ fun s hs => hs.2).conseq ?_ ?_
  · exact fun s s' hg hs => ⟨hg.lifecycleError hs.1, hs.2.trans hg.state⟩
  · exact fun s _ hs => ⟨hs.1.1, hs.1.2, hs.2⟩
  · exact fun _ s _ hs => ⟨hs.1.1, hs.1.2.1, hs.1.2.2, hs.2⟩

/-- A lifecycle error that is noted has stopped the instance. -/
theorem loggerNoteLifecycleError_triple {error : ℤ} (herror : error ≠ 0) :
    (lifeLogic timely).Triple t P (loggerNoteLifecycleError error) fun _ s => P s ∧ Noted s := by
  rw [loggerNoteLifecycleError, if_neg herror]
  exact stopInstance_triple hP (by omega)

end Notes

section Synchronization

variable (hP : FreePlace timely t P)

include hP

/-- So has a synchronization error. -/
theorem loggerNoteSynchronizationError_triple {error : ℤ} (herror : error ≠ 0) :
    (lifeLogic timely).Triple t P (loggerNoteSynchronizationError t error)
      fun _ s => P s ∧ Noted s := by
  have habs : (error.natAbs : ℤ) ≠ 0 := by omega
  rw [loggerNoteSynchronizationError, if_neg herror]
  refine Logic.Triple.bind (Q := fun _ => P) ?_ fun _ => ?_
  · refine triple_store hP.stable ?_
    intro s hs hPs hok
    by_cases hzero : s.synchronizationError = 0
    · rw [if_pos hzero] at hok ⊢
      refine ⟨WordStep.acts ?_ hs (hP.alive s hs hPs) hok, hP.free s _ rfl hPs⟩
      refine ⟨rfl, rfl, .inl rfl, .inl rfl, id, fun he => absurd hzero he, id, hs.cleared,
        fun u hu => ?_, fun _ hm => absurd hm nofun, fun _ => habs⟩
      -- No other thread is marking as long as no error is set.
      have hnone : s.history.marking = none := by
        by_contra hne
        exact hs.marking hne hzero
      rw [hnone]
      exact ⟨fun h => absurd (Option.some.inj h).symm hu, nofun⟩
    · rw [if_neg hzero]
      exact ⟨.refl hs, hPs⟩
  · refine Logic.Triple.bind (loggerNoteLifecycleError_triple hP.toPlace habs) fun _ => ?_
    refine triple_store (stable_and hP.stable fun _ _ => Noted.guar) ?_
    rintro s hs ⟨hPs, hnoted⟩ hok
    refine ⟨WordStep.acts ?_ hs (hP.alive s hs hPs) hok, hP.words s _ rfl rfl hPs, hnoted.1,
      hnoted.2, hnoted.3⟩
    refine ⟨rfl, rfl, .inl rfl, .inl rfl, id, fun _ => rfl, id, hs.cleared, fun u hu => ?_,
      fun _ _ => ⟨hnoted.1, hnoted.2, hnoted.3⟩, fun hm => hs.marking fun hnone => hm ?_⟩
    · dsimp only
      split
      · rename_i hmarking
        rw [hmarking]
        exact ⟨nofun, fun h => absurd (Option.some.inj h).symm hu⟩
      · exact Iff.rfl
    · dsimp only
      rw [hnone]
      split <;> rfl

/-- A call that is made when an error is to be noted, and goes on at the same place. -/
theorem noteSynchronization_triple {error : ℤ} (herror : error ≠ 0) :
    (lifeLogic timely).Triple t P (loggerNoteSynchronizationError t error) fun _ => P :=
  (loggerNoteSynchronizationError_triple hP herror).post fun _ _ _ hs => hs.1

end Synchronization

/-- A thread keeps its place when it notes a lifecycle error. -/
theorem noteLifecycle_triple (hP : Place timely t P) {error : ℤ} (herror : error ≠ 0) :
    (lifeLogic timely).Triple t P (loggerNoteLifecycleError error) fun _ => P :=
  (loggerNoteLifecycleError_triple hP herror).post fun _ _ _ hs => hs.1

/-- Nothing is done at a place. -/
theorem stay_triple {α : Type} {a : α} :
    (lifeLogic timely).Triple t P (pure a : LifeCode α) fun _ => P :=
  Logic.triple_pure fun _ _ hs => hs

section Queue

variable (hP : Place timely t P)

include hP

/-- It keeps it over an unlock of `wait_mu`, which may fail. -/
theorem releaseWaitMu_triple : (lifeLogic timely).Triple t P releaseWaitMu fun _ => P := by
  refine Logic.Triple.bind (triple_external hP.stable) fun unlock => ?_
  refine Logic.triple_ite (fun _ => ?_) fun _ => stay_triple
  refine Logic.Triple.bind (Q := fun _ => P) (triple_store hP.stable ?_) fun _ => stay_triple
  intro s hs hPs hok
  refine ⟨WordStep.acts ?_ hs (hP.alive s hs hPs) hok, hP.words s _ rfl rfl hPs⟩
  exact ⟨rfl, rfl, .inl rfl, .inl rfl, id, fun _ => rfl, id, hs.cleared, fun _ _ => Iff.rfl,
    hs.marked, hs.marking⟩

/-- It keeps it over the signal under the lock. -/
theorem signalAndRelease_triple : (lifeLogic timely).Triple t P signalAndRelease fun _ => P := by
  refine Logic.Triple.bind (triple_external hP.stable) fun signal => ?_
  exact Logic.Triple.bind (releaseWaitMu_triple hP) fun rc => stay_triple

/-- A producer keeps its place while it wakes the worker. -/
theorem loggerQueueNotifyIfWaiting_triple :
    (lifeLogic timely).Triple t P loggerQueueNotifyIfWaiting fun _ => P := by
  refine Logic.Triple.bind (triple_external hP.stable) fun probe => ?_
  refine Logic.triple_ite (fun _ => stay_triple) fun _ => ?_
  refine Logic.Triple.bind (triple_external hP.stable) fun lock => ?_
  refine Logic.triple_ite (fun _ => stay_triple) fun _ => ?_
  refine Logic.Triple.bind (triple_external hP.stable) fun claim => ?_
  exact Logic.triple_ite (fun _ => signalAndRelease_triple hP) fun _ => releaseWaitMu_triple hP

/-- So does a stopper. -/
theorem loggerQueueWakeForce_triple :
    (lifeLogic timely).Triple t P loggerQueueWakeForce fun _ => P := by
  refine Logic.Triple.bind (triple_external hP.stable) fun lock => ?_
  exact Logic.triple_ite (fun _ => stay_triple) fun _ => signalAndRelease_triple hP

/-- A failed wait notes its error. -/
theorem loggerQueueWaitError_triple :
    (lifeLogic timely).Triple t P loggerQueueWaitError fun _ => P :=
  triple_load (fun _ => hP.stable) fun _ _ hs => hs

/-- The destruction of mutexes and conditions concerns no word of the lifecycle. -/
theorem destroyObjects_triple (n : ℕ) :
    (lifeLogic timely).Triple t P (destroyObjects n) fun _ => P := by
  induction n with
  | zero => exact stay_triple
  | succ n ih =>
    refine Logic.Triple.bind (triple_external hP.stable) fun reply => ?_
    exact Logic.triple_ite (fun _ => stay_triple) fun _ => ih

end Queue

section Worker

/-- Where the worker stands while it runs. -/
theorem worker_place : FreePlace timely .worker (Alive .worker) := by
  refine FreePlace.of_role (fun s s' hsees hs => ?_) (fun _ _ hs => hs) fun s s' hrole hs => ?_
  · exact ⟨hsees.1.spawned hs.1, (hsees.2.2.worker rfl).trans hs.2⟩
  · obtain ⟨hspawned, hdone, -⟩ := LifeHistory.role_inj hrole
    exact ⟨hspawned.trans hs.1, hdone.trans hs.2⟩

variable (hP : FreePlace timely .worker P)

include hP

/-- The worker keeps its place while it emits a batch. -/
theorem emitBatch_triple : (lifeLogic timely).Triple .worker P emitBatch fun _ => P := by
  refine Logic.Triple.bind (triple_external hP.stable) fun formatted => ?_
  refine Logic.triple_ite (fun _ => stay_triple) fun _ => ?_
  refine Logic.Triple.bind (triple_external hP.stable) fun lock => ?_
  refine Logic.triple_ite (fun hlock => noteLifecycle_triple hP.toPlace hlock) fun _ => ?_
  refine Logic.Triple.bind (triple_external hP.stable) fun unlock => ?_
  refine Logic.triple_ite (fun hunlock => ?_) fun _ => stay_triple
  exact noteSynchronization_triple hP (Int.neg_ne_zero.mpr hunlock)

/-- It keeps it while it publishes the progress. -/
theorem workerEmit_triple : (lifeLogic timely).Triple .worker P workerEmit fun _ => P := by
  refine Logic.Triple.bind (emitBatch_triple hP) fun _ => ?_
  refine Logic.Triple.bind (triple_load (fun _ => hP.stable) fun _ _ hs => hs) fun error => ?_
  refine Logic.triple_ite (fun _ => stay_triple) fun _ => ?_
  refine Logic.Triple.bind (triple_external hP.stable) fun lock => ?_
  refine Logic.triple_ite (fun hlock => ?_) fun _ => ?_
  · exact Logic.Triple.bind (noteLifecycle_triple hP.toPlace hlock) fun _ => stay_triple
  · refine Logic.Triple.bind (triple_external hP.stable) fun unlock => ?_
    refine Logic.triple_ite (fun hunlock => ?_) fun _ => stay_triple
    exact Logic.Triple.bind (noteSynchronization_triple hP (Int.neg_ne_zero.mpr hunlock))
      fun _ => stay_triple

/-- It keeps it over one round of waiting. -/
theorem waitOnce_triple : (lifeLogic timely).Triple .worker P waitOnce fun _ => P := by
  have hload : (lifeLogic timely).Triple .worker P (load Life.running) fun _ => P :=
    triple_load (fun _ => hP.stable) fun _ _ hs => hs
  refine Logic.Triple.bind (triple_external hP.stable) fun empty => ?_
  refine Logic.Triple.bind (Logic.triple_ite (fun _ => hload) fun _ => stay_triple)
    fun running => ?_
  refine Logic.triple_ite (fun _ => stay_triple) fun _ => ?_
  refine Logic.Triple.bind (triple_external hP.stable) fun stillEmpty => ?_
  refine Logic.Triple.bind (Logic.triple_ite (fun _ => hload) fun _ => stay_triple)
    fun running => ?_
  refine Logic.triple_ite (fun _ => stay_triple) fun _ => ?_
  refine Logic.Triple.bind (triple_external hP.stable) fun wait => ?_
  refine Logic.triple_ite (fun hwait => ?_) fun _ => stay_triple
  refine Logic.Triple.bind (stopInstance_triple hP.toPlace hwait) fun _ => ?_
  exact Logic.triple_pure fun _ _ hs => hs.1

/-- It keeps it over the whole wait. -/
theorem workerWait_triple : (lifeLogic timely).Triple .worker P workerWait fun _ => P := by
  refine Logic.Triple.bind (triple_external hP.stable) fun lock => ?_
  refine Logic.triple_ite (fun hlock => ?_) fun _ => ?_
  · exact Logic.Triple.bind (noteLifecycle_triple hP.toPlace hlock) fun _ => stay_triple
  · refine Logic.Triple.bind (Q := fun _ => P) (Logic.triple_iterate (fun _ => P)
      (fun _ _ _ _ => trivial) fun _ => ?_) fun _ => ?_
    · refine Logic.Triple.bind (waitOnce_triple hP) fun again => ?_
      cases again <;> exact Logic.triple_pure fun _ _ hs => hs
    · refine Logic.Triple.bind (triple_load (fun _ => hP.stable) fun _ _ hs => hs) fun running => ?_
      refine Logic.Triple.bind (Q := fun _ => P)
        (Logic.triple_ite (fun _ => stay_triple) fun _ => ?_)
        fun empty => ?_
      · exact Logic.Triple.bind (triple_external hP.stable) fun _ => stay_triple
      · refine Logic.Triple.bind (triple_external hP.stable) fun unlock => ?_
        refine Logic.triple_ite (fun hunlock => ?_) fun _ => stay_triple
        exact Logic.Triple.bind (noteSynchronization_triple hP (Int.neg_ne_zero.mpr hunlock))
          fun _ => stay_triple

/-- It keeps it over its last broadcast. -/
theorem finalBroadcast_triple : (lifeLogic timely).Triple .worker P finalBroadcast fun _ => P := by
  refine Logic.Triple.bind (triple_load (fun _ => hP.stable) fun _ _ hs => hs) fun error => ?_
  refine Logic.triple_ite (fun _ => stay_triple) fun _ => ?_
  refine Logic.Triple.bind (triple_external hP.stable) fun lock => ?_
  refine Logic.triple_ite (fun hlock => noteLifecycle_triple hP.toPlace hlock) fun _ => ?_
  refine Logic.Triple.bind (triple_external hP.stable) fun unlock => ?_
  refine Logic.triple_ite (fun hunlock => ?_) fun _ => stay_triple
  exact noteSynchronization_triple hP (Int.neg_ne_zero.mpr hunlock)

end Worker

section Calls

variable (hP : FreePlace timely t P)

include hP

/-- A section under `emit_mu` keeps the place, whatever the lock and the unlock answer. -/
theorem underEmitMu_triple : (lifeLogic timely).Triple t P (underEmitMu t) fun _ => P := by
  refine Logic.Triple.bind (triple_external hP.stable) fun lock => ?_
  refine Logic.triple_ite (fun _ => stay_triple) fun _ => ?_
  refine Logic.Triple.bind (triple_external hP.stable) fun unlock => ?_
  refine Logic.triple_ite (fun hunlock => ?_) fun _ => stay_triple
  exact noteSynchronization_triple hP (Int.neg_ne_zero.mpr hunlock)

/-- So does `logger_emit_status`. -/
theorem loggerEmitStatus_triple :
    (lifeLogic timely).Triple t P (loggerEmitStatus t) fun _ => P := by
  refine Logic.Triple.bind (triple_external hP.stable) fun formatted => ?_
  refine Logic.triple_ite (fun _ => stay_triple) fun _ => ?_
  refine Logic.Triple.bind (triple_load (fun _ => hP.stable) fun _ _ hs => hs) fun error => ?_
  exact Logic.triple_ite (fun _ => stay_triple) fun _ => underEmitMu_triple hP

/-- A producer that fails to notify the worker stops the instance and keeps its place. -/
theorem vlogNotifyFailed_triple {error : ℤ} (herror : error ≠ 0) :
    (lifeLogic timely).Triple t P (vlogNotifyFailed t error) fun _ => P := by
  refine Logic.Triple.bind (noteLifecycle_triple hP.toPlace herror) fun _ => ?_
  refine Logic.Triple.bind (loggerQueueWaitError_triple hP.toPlace) fun waitError => ?_
  refine Logic.triple_ite (fun hwait => noteSynchronization_triple hP hwait) fun _ => ?_
  refine Logic.Triple.bind (loggerQueueWakeForce_triple hP.toPlace) fun wakeRc => ?_
  refine Logic.triple_ite (fun hwake => ?_) fun _ => stay_triple
  refine Logic.Triple.bind (noteLifecycle_triple hP.toPlace (Int.neg_ne_zero.mpr hwake)) fun _ => ?_
  refine Logic.Triple.bind (loggerQueueWaitError_triple hP.toPlace) fun waitError => ?_
  exact Logic.triple_ite (fun hwait => noteSynchronization_triple hP hwait) fun _ => stay_triple

/-- `vlog_body` keeps the place on each of its routes. -/
theorem vlogBody_triple : (lifeLogic timely).Triple t P (vlogBody t) fun _ => P := by
  refine Logic.Triple.bind (triple_external hP.stable) fun record => ?_
  refine Logic.triple_ite (fun _ => stay_triple) fun _ => ?_
  refine Logic.Triple.bind (triple_load (fun _ => hP.stable) fun _ _ hs => hs) fun asyncMode => ?_
  refine Logic.triple_ite (fun _ => loggerEmitStatus_triple hP) fun _ => ?_
  refine Logic.Triple.bind (triple_external hP.stable) fun pushed => ?_
  refine Logic.triple_ite (fun _ => ?_) fun _ => ?_
  · refine Logic.Triple.bind (loggerQueueNotifyIfWaiting_triple hP.toPlace) fun rc => ?_
    refine Logic.triple_ite (fun hrc => ?_) fun _ => stay_triple
    exact vlogNotifyFailed_triple hP (by omega)
  · refine Logic.Triple.bind (triple_external hP.stable) fun fallback => ?_
    exact Logic.triple_ite (fun _ => loggerEmitStatus_triple hP) fun _ => stay_triple

/-- A flush keeps its place while it waits. -/
theorem loggerWaitForOutput_triple :
    (lifeLogic timely).Triple t P (loggerWaitForOutput t) fun _ => P := by
  refine Logic.Triple.bind (triple_load (fun _ => hP.stable) fun _ _ hs => hs) fun error => ?_
  refine Logic.triple_ite (fun _ => stay_triple) fun _ => ?_
  refine Logic.Triple.bind (triple_load (fun _ => hP.stable) fun _ _ hs => hs) fun asyncMode => ?_
  refine Logic.triple_ite (fun _ => stay_triple) fun _ => ?_
  refine Logic.Triple.bind (triple_external hP.stable) fun lock => ?_
  refine Logic.triple_ite (fun _ => stay_triple) fun _ => ?_
  refine Logic.Triple.bind (Q := fun _ => P) (Logic.triple_iterate (fun _ => P)
    (fun _ _ _ _ => trivial) fun _ => ?_) fun result => ?_
  · refine Logic.Triple.bind (triple_load (fun _ => hP.stable) fun _ _ hs => hs) fun error => ?_
    refine Logic.triple_ite (fun _ => Logic.triple_pure fun _ _ hs => hs) fun _ => ?_
    refine Logic.Triple.bind (triple_external hP.stable) fun reached => ?_
    refine Logic.triple_ite (fun _ => Logic.triple_pure fun _ _ hs => hs) fun _ => ?_
    refine Logic.Triple.bind (triple_external hP.stable) fun wait => ?_
    split <;> exact Logic.triple_pure fun _ _ hs => hs
  · refine Logic.Triple.bind (triple_external hP.stable) fun unlock => ?_
    refine Logic.triple_ite (fun hunlock => ?_) fun _ => stay_triple
    exact Logic.Triple.bind (noteSynchronization_triple hP (Int.neg_ne_zero.mpr hunlock))
      fun _ => stay_triple

/-- And it does while it synchronises. -/
theorem loggerFlush_triple : (lifeLogic timely).Triple t P (loggerFlush t) fun _ => P := by
  refine Logic.Triple.bind (loggerWaitForOutput_triple hP) fun _ => ?_
  refine Logic.Triple.bind (triple_load (fun _ => hP.stable) fun _ _ hs => hs) fun error => ?_
  exact Logic.triple_ite (fun _ => stay_triple) fun _ => underEmitMu_triple hP

/-- Every call of a borrower keeps its place. -/
theorem callBody_triple (call : LifeCall) :
    (lifeLogic timely).Triple t P (callBody t call) fun _ => P := by
  have hwhen : ∀ {body : LifeCode Unit}, (lifeLogic timely).Triple t P body (fun _ => P) →
      (lifeLogic timely).Triple t P (whenRunning body) fun _ => P := by
    intro body hbody
    refine Logic.Triple.bind (triple_load (fun _ => hP.stable) fun _ _ hs => hs) fun state => ?_
    exact Logic.triple_ite (fun _ => hbody) fun _ => stay_triple
  cases call with
  | vlog => exact hwhen (vlogBody_triple hP)
  | logSyncStatus => exact hwhen (loggerEmitStatus_triple hP)
  | flush => exact hwhen (loggerFlush_triple hP)
  | reopen => exact hwhen (underEmitMu_triple hP)
  | metrics => exact loggerEmitStatus_triple hP

end Calls

end CLogger.Lifecycle
