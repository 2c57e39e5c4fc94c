import CLogger.Lifecycle.Threads

/-!
# The life-cycle theorems

* `lifecycle_state_machine`: in every interleaving of the constructor, the worker, the callers and a
  final disposal, the life-cycle words only move forward.
* `teardown_requires_lock_proof`: a teardown that meets a recorded unlock failure keeps everything,
  in every run in which no failure is recorded after a rollback has looked for one.
-/

namespace CLogger.Lifecycle

open Concurrent TransitionSystem

variable (timely : Prop)

theorem lifeInv_init (asyncMode : Bool) : LifeInv timely { asyncMode } where
  entered := Nat.zero_le 1
  enteredOf h := by rcases h with h | h <;> exact absurd h nofun
  notEntered _ := rfl
  running := nofun
  cleared := nofun
  direct _ := ⟨rfl, rfl⟩
  marked he := absurd rfl he
  marking hm := absurd rfl hm
  borrowed n hn := absurd hn (Finset.notMem_empty n)
  disposing := nofun
  ended := nofun
  stopped := nofun
  untouched := nofun
  proved _ e _ he := by rcases he with he | he <;> exact absurd he nofun

theorem life_starts (asyncMode : Bool) :
    (lifeLogic timely).Starts (fun _ _ => True) (lifeStart asyncMode) := by
  refine ⟨lifeInv_init timely asyncMode, fun t => ?_⟩
  cases t with
  | constructor =>
    exact ⟨_, ctor_alone_stable Fresh, ⟨⟨rfl, rfl, rfl⟩, rfl, rfl⟩, constructor_triple⟩
  | worker => exact ⟨_, notDone_stable, rfl, loggerWorkerMain_triple⟩
  | caller n => exact ⟨fun _ => True, fun _ _ _ _ => trivial, trivial, stay_triple⟩
  | disposer =>
    refine ⟨_, fun s s' hsees hs => ?_, ⟨rfl, rfl⟩, disposer_triple⟩
    have hrely := hsees.2.2.disposer rfl
    exact ⟨hrely.disposing.trans hs.1, hrely.ended.trans hs.2⟩

theorem life_serves : (lifeLogic timely).Serves (fun _ _ => True) (fun _ => True) lifeApi :=
  fun _ call _ => lifeApi_triple call

/-- The states of the instance in all interleavings. -/
def LifeRun (asyncMode : Bool) (S : System Life LifeReply Unit LifeThread) : Prop :=
  Reachable (sysNext lifeApi) anyStep (lifeStart asyncMode) S

/-- The life-cycle words of a state, and what one more step does to them. -/
structure StateMachine (S : System Life LifeReply Unit LifeThread) : Prop where
  /-- The state only moves forward, and no error is forgotten. -/
  forward : ∀ m S', sysNext lifeApi S m = some S' →
    S.shared.state.toNat ≤ S'.shared.state.toNat ∧
      (S.shared.lifecycleError ≠ 0 → S'.shared.lifecycleError ≠ 0) ∧
      (S.shared.synchronizationError ≠ 0 → S'.shared.synchronizationError ≠ 0) ∧
      (S.shared.history.cleared = true → S'.shared.history.cleared = true)
  /-- Running is entered by the constructor's compare-and-swap from created. -/
  entering : ∀ m S', sysNext lifeApi S m = some S' → S.shared.state ≠ .running →
    S'.shared.state = .running →
    S.shared.state = .created ∧ (∃ a, m = .step .constructor a) ∧
      S'.shared.history.entered = S.shared.history.entered + 1
  once : S.shared.history.entered ≤ 1
  returned : S.shared.history.created = some true → S.shared.history.entered = 1
  running : S.shared.asyncMode = true → S.shared.state = .running → S.shared.running = true
  cleared : S.shared.history.cleared = true → S.shared.running = false
  /-- An error that a returned call has recorded has stopped the instance. -/
  noted : S.shared.synchronizationError ≠ 0 → S.shared.history.marking = none →
    S.shared.lifecycleError ≠ 0 ∧ LoggerState.stopping.toNat ≤ S.shared.state.toNat ∧
      S.shared.running = false

/-- The life-cycle state machine, for every interleaving and every failure. -/
theorem lifecycle_state_machine {asyncMode : Bool} {S : System Life LifeReply Unit LifeThread}
    (h : LifeRun asyncMode S) : StateMachine S := by
  -- the rely-guarantee rule gives the invariant and the guarantee of every step
  have hstart := life_starts False asyncMode
  have hserve := life_serves False
  have hok : ∀ (S : System Life LifeReply Unit LifeThread) (m : Move LifeReply LifeThread LifeCall)
      (S' : System Life LifeReply Unit LifeThread),
      stepOk (fun _ => True) (lifeLogic False).ok S m S' := by
    intro S m S'
    cases m with
    | call i c => trivial
    | step i a => exact fun hf => hf.elim
  have hrun : Reachable (sysNext lifeApi) (stepOk (fun _ => True) (lifeLogic False).ok)
      (lifeStart asyncMode) S := h.mono fun S m S' _ => hok S m S'
  have hinv : LifeInv False S.shared := (Logic.sound hstart hserve hrun).1
  have hguar : ∀ m S', sysNext lifeApi S m = some S' → LifeGuar S.shared S'.shared :=
    fun m S' hnext => Logic.sound_guar hstart hserve hrun hnext (hok S m S')
  refine ⟨fun m S' hnext => ?_, fun m S' hnext hne hrunning => ?_, hinv.entered,
    fun hc => hinv.enteredOf (.inr hc), fun ha hr => hinv.running hr ha, hinv.cleared,
    fun he hm => ?_⟩
  · have hg := hguar m S' hnext
    refine ⟨hg.state, hg.lifecycleError, fun he => ?_, hg.cleared⟩
    rw [hg.synchronizationError he]
    exact he
  · have hg := hguar m S' hnext
    -- the state can become running only from created
    have hcreated : S.shared.state = .created := (hg.entering hrunning).resolve_left hne
    have hinv' : LifeInv False S'.shared :=
      (Logic.sound hstart hserve (hrun.tail hnext (hok S m S'))).1
    refine ⟨hcreated, ?_, ?_⟩
    · cases m with
      | call i c =>
        -- Entering a call changes no word.
        rw [sysNext] at hnext
        split at hnext
        · obtain rfl := Option.some.inj hnext
          exact absurd hrunning hne
        · exact absurd hnext (by rintro ⟨⟩)
      | step t a =>
        -- only the constructor enters the state
        by_cases ht : t = .constructor
        · exact ⟨a, by rw [ht]⟩
        · have hsees := Logic.sound_sees hstart hserve hrun hnext (hok S (.step t a) S')
            (v := some .constructor) fun heq => ht (Option.some.inj heq).symm
          exact absurd ((hsees.2.2.constructor rfl).notEntering hrunning) hne
    · rw [hinv.notEntered hcreated, hinv'.enteredOf (.inl hrunning)]
  -- once the marking is over, the error, the state and `running` follow
  · obtain ⟨hlife, hstate, hcleared⟩ := hinv.marked he hm
    exact ⟨hlife, hstate, hinv.cleared hcleared⟩

/-- The steps of a thread whose operations all succeed. -/
def steps (t : LifeThread) (n : ℕ) : List (Move LifeReply LifeThread LifeCall) :=
  List.replicate n (.step t {})

/-- A step of a thread whose operation fails, or whose question is answered with yes. -/
def failing (t : LifeThread) : Move LifeReply LifeThread LifeCall := .step t { ok := false }

/-- The worker fails to lock `wait_mu` before the constructor publishes the instance. The rollback
looks at the error word, wakes the worker and waits for it; the worker's final broadcast fails to
unlock `progress_mu`. -/
def rollbackMoves : List (Move LifeReply LifeThread LifeCall) :=
  steps .constructor 14 ++
  steps .worker 3 ++ [failing .worker] ++ steps .worker 3 ++
  steps .constructor 9 ++
  steps .worker 2 ++ [failing .worker] ++ steps .worker 6 ++
  steps .constructor 15

/-- How the rollback has ended. -/
def rollbackRecord : Teardown :=
  { looked := some 0, joined := some einval, workspaceFreed := true, spillsFreed := true,
    slotsFreed := true, instanceFreed := true, released := true, returned := some 0 }

theorem rollbackMoves_exec :
    (exec (sysNext lifeApi) (lifeStart true) rollbackMoves).map
      (fun S => (S.shared.history.teardown, S.shared.synchronizationError)) =
      some (rollbackRecord, einval) := rfl

/-- The run of the rollback, as a run of the system. -/
theorem exists_rollbackRun : ∃ S, LifeRun true S ∧
    S.shared.history.teardown = rollbackRecord ∧ S.shared.synchronizationError = einval := by
  obtain ⟨S, hexec, heq⟩ := Option.map_eq_some_iff.mp rollbackMoves_exec
  obtain ⟨hrecord, herror⟩ := Prod.mk.inj heq
  exact ⟨S, reachable_of_exec (fun _ _ _ _ => trivial) hexec, hrecord, herror⟩

theorem lifecycle_state_machine_rollback : ∃ S, LifeRun true S ∧
    S.shared.history.teardown = rollbackRecord ∧ StateMachine S := by
  obtain ⟨S, hrun, hrecord, -⟩ := exists_rollbackRun
  exact ⟨S, hrun, hrecord, lifecycle_state_machine hrun⟩

/-- No failed unlock is recorded once a rollback has looked at `synchronization_error`. -/
def timelyStep (S : System Life LifeReply Unit LifeThread) (_ : Move LifeReply LifeThread LifeCall)
    (S' : System Life LifeReply Unit LifeThread) : Prop :=
  S.shared.history.created = none → S.shared.history.teardown.looked.isSome →
    S'.shared.synchronizationError = S.shared.synchronizationError

/-- A teardown that looks at or joins with a recorded unlock failure returns an error and keeps the
instance, its queue, its workspace and its place in the live-object count. -/
theorem teardown_requires_lock_proof {asyncMode : Bool}
    {S : System Life LifeReply Unit LifeThread}
    (h : Reachable (sysNext lifeApi) timelyStep (lifeStart asyncMode) S) :
    S.shared.history.teardown.Proved := by
  have hrun : Reachable (sysNext lifeApi) (stepOk (fun _ => True) (lifeLogic True).ok)
      (lifeStart asyncMode) S := by
    refine h.mono fun S m S' htimely => ?_
    cases m with
    | call i c => trivial
    | step i a => exact fun _ => htimely
  have hinv := (Logic.sound (life_starts True asyncMode) (life_serves True) hrun).1
  exact hinv.proved trivial

/-- The rollback misses a failure that is recorded while it wakes and joins the worker: it frees
everything and reports success. -/
theorem rollback_ignores_late_failure : ¬ ∀ S, LifeRun true S →
    S.shared.history.teardown.Proved := by
  intro h
  obtain ⟨S, hrun, hrecord, -⟩ := exists_rollbackRun
  have hkept := h S hrun einval (by decide) (.inr (by rw [hrecord]; rfl))
  have hfreed := hkept.workspace
  rw [hrecord] at hfreed
  exact absurd hfreed (by decide)

/-- A failed unlock of `emit_mu` while `dispose_body` waits for the worker. -/
def disposeMoves : List (Move LifeReply LifeThread LifeCall) :=
  steps .constructor 16 ++ steps .disposer 9 ++
  steps .worker 2 ++ [.step .worker { flag := true }] ++ steps .worker 2 ++ [failing .worker] ++
  steps .worker 10 ++ steps .disposer 3

/-- The side condition of `timelyStep`, as a check. -/
def timelyCheck (S : System Life LifeReply Unit LifeThread) (_ : Move LifeReply LifeThread LifeCall)
    (S' : System Life LifeReply Unit LifeThread) : Bool :=
  !(S.shared.history.created.isNone && S.shared.history.teardown.looked.isSome) ||
    S'.shared.synchronizationError == S.shared.synchronizationError

theorem timelyStep_of_check {S S' : System Life LifeReply Unit LifeThread}
    {m : Move LifeReply LifeThread LifeCall} (h : timelyCheck S m S' = true) :
    timelyStep S m S' := by
  intro hcreated hlooked
  simpa [timelyCheck, hcreated, hlooked] using h

theorem disposeMoves_exec :
    (exec (fun S m => (sysNext lifeApi S m).filter (timelyCheck S m)) (lifeStart true)
      disposeMoves).map (fun S => S.shared.history.teardown) =
      some { looked := some 0, joined := some einval, returned := some (-einval) } := rfl

theorem teardown_requires_lock_proof_dispose :
    ∃ S, Reachable (sysNext lifeApi) timelyStep (lifeStart true) S ∧
      S.shared.history.teardown.joined = some einval ∧ S.shared.history.teardown.Kept := by
  obtain ⟨S, hexec, heq⟩ := Option.map_eq_some_iff.mp disposeMoves_exec
  have hrun : Reachable (sysNext lifeApi) timelyStep (lifeStart true) S :=
    reachable_of_exec_filter (fun _ _ _ => timelyStep_of_check) hexec
  have hjoined : S.shared.history.teardown.joined = some einval := by rw [heq]
  exact ⟨S, hrun, hjoined, teardown_requires_lock_proof hrun einval (by decide) (.inr hjoined)⟩

end CLogger.Lifecycle
