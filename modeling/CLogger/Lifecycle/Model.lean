import CLogger.Errno
import CLogger.Lib.RelyGuarantee
import Mathlib.Data.Finset.Basic

/-!
# The life of an instance

The life-cycle words of a `logger_t` (`state`, `running`, `lifecycle_error`,
`synchronization_error`, and `wait_mu_error` of its queue) and all code that writes them: the
constructor with its rollback, the worker, the callers that meet a failed lock operation, and
`dispose_body`. Every access to one of these words is one operation; so is every pthread call, every
allocation or release, and every question to a part of the program that does not touch the words,
with any outcome.

The host calls the instance only after `create_logger` has returned it, and disposes of it once,
when no call is in progress.

* `Life`: the words, with the history of what has been returned, joined and freed.
* `createLogger`, `loggerCtorRollback`, `workerMain`, `disposeBody` and the calls.
-/

namespace CLogger.Lifecycle

open Concurrent

/-- `logger_state_t`. -/
inductive LoggerState where
  | created | running | stopping | stopped
  deriving DecidableEq, Repr

/-- The numeric value of a state. -/
def LoggerState.toNat : LoggerState → ℕ
  | .created => 0 | .running => 1 | .stopping => 2 | .stopped => 3

/-- The threads of an instance. -/
inductive LifeThread where
  | constructor
  | worker
  | caller (n : ℕ)
  | disposer
  deriving DecidableEq, Repr

/-- What the call that takes an instance down, the rollback or `dispose_body`, has done. -/
structure Teardown where
  /-- `synchronization_error` when the call looked at it. -/
  looked : Option ℤ := none
  /-- `synchronization_error` at the moment the worker was joined. -/
  joined : Option ℤ := none
  workspaceFreed : Bool := false
  spillsFreed : Bool := false
  slotsFreed : Bool := false
  instanceFreed : Bool := false
  /-- The live-object count has been decremented. -/
  released : Bool := false
  /-- What the call returned. -/
  returned : Option ℤ := none
  deriving DecidableEq

/-- What has happened so far; no code reads it. -/
structure LifeHistory where
  /-- `pthread_create` has started the worker. -/
  spawned : Bool := false
  /-- The worker has returned. -/
  workerDone : Bool := false
  /-- Whether `create_logger` has returned, and with an instance. -/
  created : Option Bool := none
  /-- How often the constructor's compare-and-swap has succeeded. -/
  entered : ℕ := 0
  /-- The callers with a call in progress. -/
  borrowers : Finset ℕ := ∅
  disposing : Bool := false
  /-- `dispose_body` has stored the last state. -/
  ended : Bool := false
  teardown : Teardown := {}
  /-- `running` has been set to zero. -/
  cleared : Bool := false
  /-- The thread in the call of `logger_note_synchronization_error` that set the error. -/
  marking : Option LifeThread := none

/-- The life-cycle words. -/
structure Life where
  asyncMode : Bool
  state : LoggerState := .created
  running : Bool := false
  lifecycleError : ℤ := 0
  synchronizationError : ℤ := 0
  waitMuError : ℤ := 0
  history : LifeHistory := {}

/-- The outcome of a pthread call or of a part of the program that does not touch the words. -/
structure LifeReply where
  ok : Bool := true
  errno : ℤ := einval
  errno_pos : 0 < errno := by exact einval_pos
  /-- The answer to a question, such as whether the queue is empty. -/
  flag : Bool := false

/-- The error number a call returns, `0` for success. -/
def LifeReply.error (reply : LifeReply) : ℤ := if reply.ok then 0 else reply.errno

/-- Programs of the threads. -/
abbrev LifeCode := Code Life LifeReply Unit

/-- Read a word. -/
def load {α : Type} (field : Life → α) : LifeCode α :=
  Code.atomic () fun s _ => some (field s, s)

/-- Write words, or the history. -/
def store (set : Life → Life) : LifeCode Unit :=
  Code.atomic () fun s _ => some ((), set s)

/-- A call that touches none of the words. -/
def external : LifeCode LifeReply :=
  Code.atomic () fun s reply => some (reply, s)

/-- A change of the record of the teardown. -/
def Life.record (s : Life) (f : Teardown → Teardown) : Life :=
  { s with history := { s.history with teardown := f s.history.teardown } }

/-- A release that may fail: a negated error, or `0` with what has been released. -/
def release (mark : Teardown → Teardown) : LifeCode ℤ :=
  Code.atomic () fun s reply => some (-reply.error, if reply.ok then s.record mark else s)

/-- The first look of a teardown at `synchronization_error`. -/
def lookSynchronizationError : LifeCode ℤ :=
  Code.atomic () fun s _ =>
    let looked := s.synchronizationError
    some (looked, s.record fun d => { d with looked := some looked })

section Errors

/-- The compare-and-swap of `lifecycle_error` from zero. -/
def noteFirst (error : ℤ) : LifeCode Unit :=
  store fun s =>
    { s with lifecycleError := if s.lifecycleError = 0 then error else s.lifecycleError }

/-- `logger_state_store_release`. -/
def loggerStateStoreRelease (state : LoggerState) : LifeCode Unit :=
  store fun s => { s with state }

/-- The store of zero to `running`. -/
def clearRunning : LifeCode Unit :=
  store fun s => { s with running := false, history := { s.history with cleared := true } }

/-- The three stores that stop an instance after an error, in `logger_note_lifecycle_error` and
where the worker's `pthread_cond_wait` fails. -/
def stopInstance (error : ℤ) : LifeCode Unit := do
  noteFirst error
  loggerStateStoreRelease .stopping
  clearRunning

/-- `logger_note_lifecycle_error`. -/
def loggerNoteLifecycleError (error : ℤ) : LifeCode Unit :=
  if error = 0 then pure () else stopInstance error.natAbs

/-- `logger_note_synchronization_error`. -/
def loggerNoteSynchronizationError (t : LifeThread) (error : ℤ) : LifeCode Unit := do
  if error = 0 then pure ()
  else do
    store fun s =>
      -- a compare-and-swap from 0: the first error stays
      if s.synchronizationError = 0 then
        { s with
          synchronizationError := error.natAbs
          history := { s.history with marking := some t } }
      else s
    loggerNoteLifecycleError error.natAbs
    store fun s =>
      { s with history := { s.history with
          marking := if s.history.marking = some t then none else s.history.marking } }

end Errors

section Queue

/-- The unlock of `wait_mu` at the end of the queue's two signalling functions: a failure is stored
in `wait_mu_error`. -/
def releaseWaitMu : LifeCode ℤ := do
  let unlock ← external
  if unlock.error ≠ 0 then do
    store fun s => { s with waitMuError := unlock.error }
    pure (-unlock.error)
  else pure 0

/-- The signal of `wait_cv` and the unlock. -/
def signalAndRelease : LifeCode ℤ := do
  let signal ← external
  let unlockRc ← releaseWaitMu
  pure (if signal.error ≠ 0 then -signal.error else unlockRc)

/-- `logger_queue_notify_if_waiting`. -/
def loggerQueueNotifyIfWaiting : LifeCode ℤ := do
  let probe ← external
  if ¬ probe.flag then pure 0
  else do
    let lock ← external
    -- nothing is claimed yet, so the caller only reports the lock's error
    if lock.error ≠ 0 then pure (-lock.error)
    else do
      let claim ← external
      if claim.flag then signalAndRelease else releaseWaitMu

/-- `logger_queue_wake_force`. -/
def loggerQueueWakeForce : LifeCode ℤ := do
  let lock ← external
  if lock.error ≠ 0 then pure (-lock.error) else signalAndRelease

/-- `logger_queue_wait_error`. -/
def loggerQueueWaitError : LifeCode ℤ := load Life.waitMuError

/-- Consecutive pthread destroy calls, up to the first that fails. -/
def destroyObjects : ℕ → LifeCode ℤ
  | 0 => pure 0
  | n + 1 => do
    let reply ← external
    if reply.error ≠ 0 then pure (-reply.error) else destroyObjects n

/-- `logger_queue_destroy`. -/
def loggerQueueDestroy : LifeCode ℤ := do
  let waitError ← loggerQueueWaitError
  if waitError ≠ 0 then pure (-waitError)
  else do
    let rc ← destroyObjects 2
    if rc ≠ 0 then pure rc
    else do
      let rc ← release fun d => { d with spillsFreed := true }
      if rc ≠ 0 then pure rc
      else release fun d => { d with slotsFreed := true }

end Queue

section Worker

/-- `emit_batch`, as far as it concerns the words: a batch that cannot be formatted takes no
lock. -/
def emitBatch : LifeCode Unit := do
  let formatted ← external
  -- the format error is counted as an I/O error, which no word of this model shows
  if formatted.error ≠ 0 then pure ()
  else do
    let lock ← external
    if lock.error ≠ 0 then loggerNoteLifecycleError lock.error
    else do
      let unlock ← external
      if unlock.error ≠ 0 then loggerNoteSynchronizationError .worker (-unlock.error) else pure ()

/-- The branch of the worker that has taken records: it emits them and publishes its progress. It
says whether the worker goes on. -/
def workerEmit : LifeCode Bool := do
  emitBatch
  let syncError ← load Life.synchronizationError
  if syncError ≠ 0 then pure false
  else do
    let lock ← external
    if lock.error ≠ 0 then do
      loggerNoteLifecycleError lock.error
      pure true
    else do
      let unlock ← external
      if unlock.error ≠ 0 then do
        loggerNoteSynchronizationError .worker (-unlock.error)
        pure false
      else pure true

/-- One pass of the wait loop, which says whether to wait again. -/
def waitOnce : LifeCode Bool := do
  let empty ← external
  -- `running` is read only while the queue is empty, as `&&` does
  let running ← (if empty.flag then load Life.running else pure false)
  if ¬ running then pure false
  else do
    let stillEmpty ← external
    let stillRunning ← (if stillEmpty.flag then load Life.running else pure false)
    if ¬ stillRunning then pure false
    else do
      let wait ← external
      if wait.error ≠ 0 then do
        stopInstance wait.error
        pure false
      else pure true

/-- The branch of the worker that has found the queue empty. It says whether the worker goes on. -/
def workerWait : LifeCode Bool := do
  let lock ← external
  if lock.error ≠ 0 then do
    loggerNoteLifecycleError lock.error
    pure false
  else do
    -- the wait loop: each wake-up looks at the queue and at `running` again
    Code.iterate () (fun _ => do
      let again ← waitOnce
      pure (if again then .inl () else .inr ())) ()
    let running ← load Life.running
    let empty ← (if running then pure false else do
      let reply ← external
      pure reply.flag)
    let unlock ← external
    if unlock.error ≠ 0 then do
      loggerNoteSynchronizationError .worker (-unlock.error)
      pure false
    -- a stopped worker still goes on while records are left
    else pure (running || !empty)

/-- The final broadcast of the worker. -/
def finalBroadcast : LifeCode Unit := do
  let error ← load Life.lifecycleError
  if error = 0 then pure ()
  else do
    let lock ← external
    if lock.error ≠ 0 then loggerNoteLifecycleError lock.error
    else do
      let unlock ← external
      if unlock.error ≠ 0 then loggerNoteSynchronizationError .worker (-unlock.error) else pure ()

/-- `logger_worker_main`, from the moment `pthread_create` starts it. -/
def loggerWorkerMain : LifeCode Unit := do
  -- the thread exists only after `pthread_create` has succeeded
  Code.atomic () fun s _ => if s.history.spawned then some ((), s) else none
  Code.iterate () (fun _ => do
    let drained ← external
    let again ← (if drained.flag then workerEmit else workerWait)
    pure (if again then .inl () else .inr ())) ()
  finalBroadcast
  store fun s => { s with history := { s.history with workerDone := true } }

/-- `pthread_join` of the worker. -/
def joinWorker : LifeCode ℤ :=
  Code.atomic () fun s reply =>
    if reply.ok then
      -- the join returns only once the worker has run to its end
      if s.history.workerDone then
        some (0, s.record fun d => { d with joined := some s.synchronizationError })
      else none
    else some (reply.errno, s)

end Worker

section Constructor

/-- `struct logger_ctor_state`; the first three objects are counted in the order they are made. -/
structure CtorState where
  objects : ℕ := 0
  queueReady : Bool := false
  workerStarted : Bool := false

/-- `logger_ctor_note_proof_error`. -/
def loggerCtorNoteProofError (rc : ℤ) : LifeCode Unit :=
  if rc = 0 then pure () else noteFirst rc.natAbs

/-- A cleanup that stops at its first error and notes it. -/
def proving (rc : ℤ) (rest : LifeCode ℤ) : LifeCode ℤ := do
  if rc ≠ 0 then do
    loggerCtorNoteProofError rc
    pure rc
  else rest

/-- `logger_worker_workspace_destroy`, which ignores what its releases return. -/
def loggerWorkerWorkspaceDestroy : LifeCode Unit :=
  store fun s => s.record fun d => { d with workspaceFreed := true }

/-- `logger_process_object_release`. -/
def loggerProcessObjectRelease : LifeCode ℤ :=
  release fun d => { d with released := true }

/-- `logger_runtime_free` of the instance. -/
def freeInstance : LifeCode ℤ :=
  release fun d => { d with instanceFreed := true }

/-- The part of `logger_ctor_rollback` that releases what the constructor made. -/
def rollbackRelease (state : CtorState) : LifeCode ℤ := do
  -- the result of the workspace's release is ignored, here and in the source
  loggerWorkerWorkspaceDestroy
  let rc ← (if state.queueReady then loggerQueueDestroy else pure 0)
  proving rc do
    let rc ← destroyObjects state.objects
    proving rc do
      -- a failed close does not keep the memory, it is only returned
      let close ← external
      let rc ← loggerProcessObjectRelease
      proving rc do
        let freeRc ← freeInstance
        pure (if close.error ≠ 0 then -close.error else freeRc)

/-- `logger_ctor_rollback`. -/
def loggerCtorRollback (state : CtorState) : LifeCode ℤ := do
  loggerStateStoreRelease .stopping
  let syncError ← lookSynchronizationError
  -- the only look at the error word: nothing reads it again after the join
  let syncError ← (if syncError = 0 ∧ state.queueReady then loggerQueueWaitError
    else pure syncError)
  if syncError ≠ 0 then do
    loggerCtorNoteProofError syncError
    pure (-syncError)
  else if state.workerStarted then do
    clearRunning
    let wakeRc ← (if state.queueReady then loggerQueueWakeForce else pure 0)
    proving wakeRc do
      let joinRc ← joinWorker
      proving (-joinRc) (rollbackRelease state)
  else rollbackRelease state

/-- The initialisation of the constructor's objects up to the worker: the error of the first step
that fails, and how many objects are ready. The last two steps open the backends. -/
def ctorObjects : LifeCode (ℤ × ℕ) := do
  let emitMu ← external
  if emitMu.error ≠ 0 then pure (emitMu.error, 0)
  else do
    let progressMu ← external
    if progressMu.error ≠ 0 then pure (progressMu.error, 1)
    else do
      let progressCv ← external
      if progressCv.error ≠ 0 then pure (progressCv.error, 2)
      else do
        let file ← external
        if file.error ≠ 0 then pure (file.error, 3)
        else do
          let syslog ← external
          pure (syslog.error, 3)

/-- `logger_queue_init`: a mutex that could not be destroyed again is noted in `wait_mu_error`. -/
def loggerQueueInit : LifeCode ℤ := do
  let memory ← external
  if memory.error ≠ 0 then pure memory.error
  else do
    let cond ← external
    if cond.error ≠ 0 then do
      let destroy ← external
      -- a half-made queue reports through `wait_mu_error`, which the caller reads
      let _ ← (if destroy.error ≠ 0 then store fun s => { s with waitMuError := destroy.error }
        else pure ())
      pure cond.error
    else pure 0

/-- `logger_ctor_start_worker`: a negated error, or `0`, with what has been made. -/
def loggerCtorStartWorker (state : CtorState) : LifeCode (ℤ × CtorState) := do
  let asyncMode ← load Life.asyncMode
  if ¬ asyncMode then pure (0, state)
  else do
    let error ← loggerQueueInit
    if error ≠ 0 then do
      let proofError ← loggerQueueWaitError
      loggerNoteSynchronizationError .constructor proofError
      pure (-error, state)
    else do
      let state := { state with queueReady := true }
      let workspace ← external
      if workspace.error ≠ 0 then pure (-workspace.error, state)
      else do
        -- the flag is up before the thread exists
        store fun s => { s with running := true }
        let rc ← Code.atomic () fun (s : Life) reply =>
          some (reply.error, if reply.ok then
            { s with history := { s.history with spawned := true } } else s)
        if rc ≠ 0 then do
          clearRunning
          pure (-rc, state)
        else pure (0, { state with workerStarted := true })

/-- `logger_state_try_publish` from created to running. -/
def loggerStateTryPublish : LifeCode Bool :=
  Code.atomic () fun s _ =>
    if s.state = .created then
      some (true, { s with
        state := .running, history := { s.history with entered := s.history.entered + 1 } })
    else some (false, s)

/-- The label `fail` of `create_logger`. -/
def ctorFail (state : CtorState) : LifeCode Bool := do
  let rc ← loggerCtorRollback state
  store fun s => s.record fun d => { d with returned := some rc }
  pure false

/-- `create_logger`: whether it returns an instance. -/
def createLogger : LifeCode Bool := do
  let config ← external
  if config.error ≠ 0 then pure false
  else do
    let acquire ← external
    if acquire.error ≠ 0 then pure false
    else do
      let memory ← external
      if memory.error ≠ 0 then do
        let _ ← loggerProcessObjectRelease
        pure false
      else do
        let (error, objects) ← ctorObjects
        if error ≠ 0 then ctorFail { objects }
        else do
          let (rc, state) ← loggerCtorStartWorker { objects }
          if rc ≠ 0 then ctorFail state
          else do
            -- a compare-and-swap that fails leaves the instance to the rollback
            let published ← loggerStateTryPublish
            if published then pure true
            else do
              let _ ← load Life.lifecycleError
              ctorFail state

end Constructor

section Calls

/-- A section under `emit_mu`, as `logger_emit_status`, `logger_reopen`, `logger_flush` and the
metrics calls have it: a failed unlock is noted. -/
def underEmitMu (t : LifeThread) : LifeCode Unit := do
  let lock ← external
  if lock.error ≠ 0 then pure ()
  else do
    let unlock ← external
    if unlock.error ≠ 0 then loggerNoteSynchronizationError t (-unlock.error) else pure ()

/-- `logger_emit_status`, and the metrics calls: no section once an unlock has failed. -/
def loggerEmitStatus (t : LifeThread) : LifeCode Unit := do
  let formatted ← external
  if formatted.error ≠ 0 then pure ()
  else do
    let syncError ← load Life.synchronizationError
    -- a failed unlock blocks every later section for good
    if syncError ≠ 0 then pure () else underEmitMu t

/-- The end of `vlog_body` for a record that was published but could not be notified. -/
def vlogNotifyFailed (t : LifeThread) (error : ℤ) : LifeCode Unit := do
  loggerNoteLifecycleError error
  -- the queue's own failed unlock counts as a lost lock, too
  let waitError ← loggerQueueWaitError
  if waitError ≠ 0 then loggerNoteSynchronizationError t waitError
  else do
    let wakeRc ← loggerQueueWakeForce
    if wakeRc ≠ 0 then do
      loggerNoteLifecycleError (-wakeRc)
      let waitError ← loggerQueueWaitError
      if waitError ≠ 0 then loggerNoteSynchronizationError t waitError else pure ()
    else pure ()

/-- `vlog_body`: a record goes to the sinks, into the queue, or is refused. -/
def vlogBody (t : LifeThread) : LifeCode Unit := do
  let record ← external
  if record.error ≠ 0 then pure ()
  else do
    let asyncMode ← load Life.asyncMode
    if ¬ asyncMode then loggerEmitStatus t
    else do
      let pushed ← external
      if pushed.flag then do
        let rc ← loggerQueueNotifyIfWaiting
        if rc < 0 then vlogNotifyFailed t (-rc) else pure ()
      else do
        let fallback ← external
        if fallback.flag then loggerEmitStatus t else pure ()

/-- `logger_wait_for_output`: a negated error, or `0`. -/
def loggerWaitForOutput (t : LifeThread) : LifeCode ℤ := do
  let syncError ← load Life.synchronizationError
  if syncError ≠ 0 then pure (-syncError)
  else do
    let asyncMode ← load Life.asyncMode
    if ¬ asyncMode then pure 0
    else do
      let lock ← external
      if lock.error ≠ 0 then pure (-lock.error)
      else do
        -- the loop waits for the progress target, a lifecycle error or a failed wait
        let result ← Code.iterate () (fun _ => do
          let error ← load Life.lifecycleError
          if error ≠ 0 then pure (.inr (-error))
          else do
            let reached ← external
            if reached.flag then pure (.inr 0)
            else do
              let wait ← external
              pure (if wait.error ≠ 0 then .inr (-wait.error) else .inl ())) ()
        let unlock ← external
        if unlock.error ≠ 0 then do
          loggerNoteSynchronizationError t (-unlock.error)
          -- an earlier error is returned before that of the unlock
          pure (if result ≠ 0 then result else -unlock.error)
        else pure result

/-- `logger_flush`. -/
def loggerFlush (t : LifeThread) : LifeCode Unit := do
  let _ ← loggerWaitForOutput t
  let syncError ← load Life.synchronizationError
  if syncError ≠ 0 then pure () else underEmitMu t

/-- `dispose_body`, once the worker is gone. -/
def disposeRelease : LifeCode ℤ := do
  -- `dispose_body` reads the word again after the join, unlike the rollback
  let syncError ← load Life.synchronizationError
  if syncError ≠ 0 then pure (-syncError)
  else do
    let lifecycleError ← load Life.lifecycleError
    let lock ← external
    if lock.error ≠ 0 then do
      store fun s => { s with lifecycleError := lock.error }
      pure (-lock.error)
    else do
      -- after a lifecycle error nothing is synchronised
      let sync ← (if lifecycleError ≠ 0 then pure {} else external)
      let rc := if lifecycleError ≠ 0 then -lifecycleError else -sync.error
      let unlock ← external
      if unlock.error ≠ 0 then do
        loggerNoteSynchronizationError .disposer unlock.error
        pure (-unlock.error)
      else do
        let asyncMode ← load Life.asyncMode
        let qrc ← (if asyncMode then do
            loggerWorkerWorkspaceDestroy
            loggerQueueDestroy
          else pure 0)
        if qrc ≠ 0 then do
          store fun s => { s with lifecycleError := -qrc }
          pure qrc
        else do
          let destroyRc ← destroyObjects 3
          if destroyRc ≠ 0 then do
            store fun s => { s with lifecycleError := -destroyRc }
            pure destroyRc
          else do
            let close ← external
            let syslogClose ← external
            store fun s =>
              { s with state := .stopped, history := { s.history with ended := true } }
            let releaseRc ← loggerProcessObjectRelease
            if releaseRc ≠ 0 then pure releaseRc
            else do
              let freeRc ← freeInstance
              let domain ← external
              pure (if rc ≠ 0 then rc else if close.error ≠ 0 then -close.error
                else if syslogClose.error ≠ 0 then -syslogClose.error
                else if freeRc ≠ 0 then freeRc else -domain.error)

/-- `dispose_body`. -/
def disposeBody : LifeCode ℤ := do
  loggerStateStoreRelease .stopping
  let syncError ← lookSynchronizationError
  let asyncMode ← load Life.asyncMode
  let syncError ← (if syncError = 0 ∧ asyncMode then loggerQueueWaitError else pure syncError)
  if syncError ≠ 0 then do
    loggerNoteLifecycleError syncError
    pure (-syncError)
  else if asyncMode then do
    clearRunning
    let wakeRc ← loggerQueueWakeForce
    if wakeRc ≠ 0 then do
      loggerNoteLifecycleError (-wakeRc)
      let waitError ← loggerQueueWaitError
      loggerNoteSynchronizationError .disposer waitError
      pure wakeRc
    else do
      let joinRc ← joinWorker
      if joinRc ≠ 0 then do
        noteFirst joinRc
        pure (-joinRc)
      else disposeRelease
  else disposeRelease

end Calls

/-- The calls that callers can make. -/
inductive LifeCall where
  | vlog | logSyncStatus | flush | reopen | metrics
  deriving DecidableEq, Repr

/-- A call that an instance refuses unless it is running. -/
def whenRunning (body : LifeCode Unit) : LifeCode Unit := do
  let state ← load Life.state
  if state = .running then body else pure ()

/-- What a caller runs. -/
def callBody (t : LifeThread) : LifeCall → LifeCode Unit
  | .vlog => whenRunning (vlogBody t)
  | .logSyncStatus => whenRunning (loggerEmitStatus t)
  | .flush => whenRunning (loggerFlush t)
  | .reopen => whenRunning (underEmitMu t)
  | .metrics => loggerEmitStatus t

/-- The calls of the threads, once the instance has been returned and until it is disposed of. The
constructor, the worker and the disposer run once and make no calls. -/
def lifeApi : LifeThread → LifeCall → LifeCode Unit
  | .caller n, call => do
    Code.atomic () fun s _ =>
      if s.history.created = some true ∧ ¬ s.history.disposing then
        let borrowers := insert n s.history.borrowers
        some ((), { s with history := { s.history with borrowers } })
      else none
    callBody (.caller n) call
    store fun s => { s with history := { s.history with borrowers := s.history.borrowers.erase n } }
  | _, _ => pure ()

/-- What the threads that run once run. -/
def lifeMain : LifeThread → LifeCode Unit
  | .constructor => do
    let created ← createLogger
    store fun s => { s with history := { s.history with created := some created } }
  | .worker => loggerWorkerMain
  | .caller _ => pure ()
  | .disposer => do
    Code.atomic () fun s _ =>
      if s.history.created = some true ∧ s.history.borrowers = ∅ then
        some ((), { s with history := { s.history with disposing := true } })
      else none
    let rc ← disposeBody
    store fun s => s.record fun d => { d with returned := some rc }

/-- Before the constructor has started. -/
def lifeStart (asyncMode : Bool) : System Life LifeReply Unit LifeThread :=
  { shared := { asyncMode }, code := lifeMain }

end CLogger.Lifecycle
