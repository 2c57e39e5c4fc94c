import CLogger.File.Sealing
import CLogger.Format.Truncation
import CLogger.Lib.RelyGuarantee
import CLogger.Queue.Correctness
import CLogger.Stderr
import CLogger.Syslog.Model

/-!
# A running instance

The threads of a `logger_t` between its construction and its destruction, as programs over its
shared words: the callers of the logging functions, of `logger_flush`, `logger_reopen` and
`dispose_body`, and the worker. Every atomic access, every pthread call and every system call of a
sink is one operation, with any outcome; the operations of the queue and of the sinks are those of
`Queue.Model`, `Stderr`, `File.Model` and `Syslog.Model`.

* `Inst`: the words, the locks and the sinks, with a record of what has happened that no code reads.
* `loggerQueuePush`, `vlogBody`, `loggerEmitStatus`, `emitBatch`, `loggerWorkerMain`,
  `loggerWaitForOutput`, `loggerFlush`, `disposeBody`.
* `instApi`: the calls, and `instStart`: an instance after its construction.
-/

namespace CLogger.Instance

open Concurrent

/-- The threads that use an instance. -/
inductive InstThread where
  | worker
  | caller (n : ℕ)
  deriving DecidableEq, Repr

/-- The locks of an instance. -/
inductive InstMutex where
  | wait | emit | progress
  deriving DecidableEq, Repr

/-- `LOGGER_LINE_MAX`. -/
def loggerLineMax : ℕ := 5120

/-- `BATCH_MAX`. -/
def batchMax : ℕ := 256

/-- What the constructor sets and nothing changes. -/
structure InstConfig where
  geometry : QueueGeometry
  asyncMode : Bool
  /-- The bits of `outputs`. -/
  outStderr : Bool
  outFile : Bool
  outSyslog : Bool
  /-- The levels whose records the caller emits when the queue is full. -/
  overflowSync : LoggerLevel → Bool
  flushLevel : LoggerLevel
  line : LineConfig
  /-- The conversions of the C library, for lines and for archive names. -/
  Tm : Type
  time : TimeLib Tm
  libc : Libc

/-- The capacity of the worker's workspace. -/
def InstConfig.workspaceCapacity (cfg : InstConfig) : ℕ :=
  if cfg.geometry.cap < batchMax then cfg.geometry.cap else batchMax

/-- The sinks of an instance. -/
structure Sinks where
  file : FileWorld
  stderr : StderrWorld
  syslog : SyslogWorld

/-- A section under `emit_mu` that offered records to the sinks. -/
structure Emission where
  thread : InstThread
  records : List LoggerMessage
  lines : List (List UInt8)
  /-- `force_sync`. -/
  forced : Bool
  before : Sinks
  after : Sinks
  /-- Which of the records are counted as failed. -/
  failed : List Bool

/-- Where a thread is in the wake-up protocol. -/
inductive WakePlace where
  /-- Not in the protocol. -/
  | away
  /-- Has published a record, or stopped the instance, and goes on to the signal. -/
  | bound
  /-- Has cleared `consumer_waiting` and not sent the signal yet. -/
  | claimed
  deriving DecidableEq, Repr

/-- The counters of which a logging call increments one. -/
inductive CallCounter where
  | enqueued
  | syncFallbacks
  | dropped (level : LoggerLevel)
  deriving DecidableEq, Repr

/-- What the last call of `logger_vlog_internal` of a caller has done. -/
structure CallLog where
  /-- The level of a record that has been formatted. -/
  formatted : Option LoggerLevel := none
  published : Bool := false
  counted : List CallCounter := []
  /-- How many counts all calls had made when it began. -/
  since : ℕ := 0

/-- A read of the worker between its batches. -/
inductive WorkerRead where
  | running (value : Bool)
  /-- The slot of `dequeue_pos`, and whether it holds a published record. -/
  | head (pos : ℕ) (published : Bool)
  deriving DecidableEq, Repr

/-- What the holder of `emit_mu` finds in `logger_sync_outputs_locked`. -/
structure SyncLook where
  fileRc : ℤ
  before : FileWorld
  after : FileWorld
  /-- `failed_records`, and what has been counted as emitted, when `first_error` is read. -/
  failedRecords : ℕ
  counted : List Emission

/-- A call of `logger_flush` that has returned. -/
structure FlushReceipt where
  rc : ℤ
  /-- The position it waited for. -/
  target : ℕ
  /-- What had been counted as emitted when it found the position completed. -/
  waited : List Emission
  /-- Its look at the outputs. -/
  look : Option SyncLook

/-- A call of `logger_log_sync_status` for an enabled level that has reached the sinks. -/
structure SyncReceipt where
  call : VlogCall
  rc : ℤ
  /-- How many emissions had been counted before. -/
  since : ℕ

/-- What has happened so far; no code reads it. -/
structure InstHistory where
  place : InstThread → WakePlace := fun _ => .away
  calls : ℕ → CallLog := fun _ => {}
  /-- The counters that calls have incremented, each with its caller. -/
  counts : List (ℕ × CallCounter) := []
  /-- The callers inside `logger_vlog_internal`. -/
  logging : Finset ℕ := ∅
  /-- The records a thread has counted as emitted or failed, and not yet as completed. -/
  accounted : InstThread → ℕ := fun _ => 0
  /-- The sections in their order, and those of them whose records have been counted. -/
  emissions : List Emission := []
  counted : List Emission := []
  reads : List WorkerRead := []
  /-- `dispose_body` found `running` set and no logging call in progress when it cleared it. -/
  cleanStop : Bool := false
  flushes : List FlushReceipt := []
  syncCalls : List SyncReceipt := []

/-- The shared words of an instance, with the owner of each lock and the sinks. -/
structure Inst where
  ring : QueueSys ℕ
  consumerWaiting : Bool := false
  waitMuError : ℤ := 0
  /-- The worker sleeps inside `pthread_cond_wait`, and whether a signal has been delivered. -/
  waiter : Option Bool := none
  owner : InstMutex → Option InstThread := fun _ => none
  completedPos : ℕ := 0
  /-- `state` is `LOGGER_STATE_RUNNING`. -/
  accepting : Bool := true
  running : Bool := true
  /-- The worker has returned. -/
  workerDone : Bool := false
  level : LoggerLevel
  lifecycleError : ℤ := 0
  synchronizationError : ℤ := 0
  firstError : ℤ := 0
  enqueued : ℕ := 0
  syncFallbacks : ℕ := 0
  droppedByLevel : LoggerLevel → ℕ := fun _ => 0
  emittedRecords : ℕ := 0
  failedRecords : ℕ := 0
  asyncCompleted : ℕ := 0
  syncCompleted : ℕ := 0
  /-- The timestamp caches of the threads. -/
  caches : InstThread → TimestampCache := fun _ => .zero
  sinks : Sinks
  history : InstHistory := {}

/-- What the environment decides in one operation. -/
structure InstReply where
  /-- The error number of a lock or an unlock, `0` for success. -/
  pthread : ℕ := 0
  /-- Whether an unlock that fails has released the lock. -/
  released : Bool := false
  /-- The error numbers of `pthread_cond_signal`, `pthread_cond_wait` and `pthread_join`. -/
  signal : ℕ := 0
  wait : ℕ := 0
  join : ℕ := 0
  /-- A wake-up without a signal. -/
  spurious : Bool := false
  choice : PushChoice := ⟨0, false⟩
  /-- The old content of a batch entry, and of the array of a line. -/
  entry : LoggerMessage := .zero
  out : Buf := .zero
  /-- The answers of the `vsnprintf` calls for a line; `errno` is never negative. -/
  writes : VsnprintfAnswers := []
  writes_errno : ErrnoNonneg writes := by exact fun _ h => absurd h List.not_mem_nil
  /-- The answer to a system call. -/
  answer : Answer := {}

/-- Where a thread stands, as far as statements name it. -/
inductive InstLabel where
  | other
  /-- Inside `logger_queue_notify_if_waiting`, after a publication. -/
  | notify
  /-- Between a store of zero to `running` and the signal that follows it. -/
  | stop
  /-- Between counting records as emitted or failed and counting them as completed. -/
  | count
  deriving DecidableEq, Repr

/-- Programs of the threads. -/
abbrev InstCode := Code Inst InstReply InstLabel

section Operations

/-- Read a word. -/
def load {α : Type} (field : Inst → α) : InstCode α :=
  Code.atomic .other fun s _ => some (field s, s)

/-- Write words, or the history. -/
def store (set : Inst → Inst) : InstCode Unit :=
  Code.atomic .other fun s _ => some ((), set s)

/-- A call that touches none of the words. -/
def call : InstCode Answer := Code.atomic .other fun s a => some (a.answer, s)

/-- The words with another owner of a lock. -/
def Inst.own (s : Inst) (mutex : InstMutex) (t : Option InstThread) : Inst :=
  { s with owner := Function.update s.owner mutex t }

@[simp] theorem Inst.own_owner (s : Inst) (mutex : InstMutex) (t : Option InstThread) :
    (s.own mutex t).owner mutex = t := by
  simp only [Inst.own, Function.update_self]

/-- The words after an unlock that may have failed. -/
def Inst.unlocked (s : Inst) (mutex : InstMutex) (a : InstReply) : Inst :=
  if a.pthread = 0 ∨ a.released then s.own mutex none else s

/-- `pthread_mutex_lock`: `0` or a negated error number; it waits while the lock is taken. -/
def lock (label : InstLabel) (mutex : InstMutex) (t : InstThread) : InstCode ℤ :=
  Code.atomic label fun s a =>
    if a.pthread ≠ 0 then some (-a.pthread, s)
    else if s.owner mutex = none then some (0, s.own mutex (some t)) else none

/-- `pthread_mutex_unlock`: `0` or a negated error number. -/
def unlock (mutex : InstMutex) : InstCode ℤ :=
  Code.atomic .other fun s a => some (-a.pthread, s.unlocked mutex a)

/-- A change of the record of what has happened. -/
def Inst.record (s : Inst) (f : InstHistory → InstHistory) : Inst :=
  { s with history := f s.history }

/-- Record where a thread is in the wake-up protocol. -/
def Inst.goes (s : Inst) (t : InstThread) (place : WakePlace) : Inst :=
  s.record fun h => { h with place := Function.update h.place t place }

end Operations

section Errors

/-- `logger_note_io_error`. -/
def loggerNoteIoError (error : ℤ) : InstCode Unit :=
  if error ≤ 0 then pure ()
  else store fun s => { s with firstError := if s.firstError = 0 then error else s.firstError }

/-- The compare-and-swap of `lifecycle_error` from zero. -/
def noteFirst (error : ℤ) : InstCode Unit :=
  store fun s =>
    { s with lifecycleError := if s.lifecycleError = 0 then error else s.lifecycleError }

/-- The three stores that stop an instance after an error. -/
def stopInstance (error : ℤ) : InstCode Unit := do
  noteFirst error
  store fun s => { s with accepting := false }
  store fun s => { s with running := false }

/-- `logger_note_lifecycle_error`. -/
def loggerNoteLifecycleError (error : ℤ) : InstCode Unit :=
  if error = 0 then pure () else stopInstance error.natAbs

/-- `logger_note_synchronization_error`. -/
def loggerNoteSynchronizationError (error : ℤ) : InstCode Unit := do
  if error = 0 then pure ()
  else do
    store fun s => { s with
      synchronizationError :=
        if s.synchronizationError = 0 then error.natAbs else s.synchronizationError }
    loggerNoteLifecycleError error.natAbs

end Errors

section Queue

variable (g : QueueGeometry)

/-- A step of a push of caller `n`: whether the record is published, if the step ends the push. -/
def pushRing (n : ℕ) (choice : PushChoice) (ring : QueueSys ℕ) :
    Option ((Unit ⊕ Bool) × QueueSys ℕ) :=
  (queueNext g ring (.push n choice)).bind fun ring =>
    match ring.push n with
    | .returned published =>
      (queueNext g ring (.returnPush n)).map fun ring => (.inr published, ring)
    | _ => some (.inl (), ring)

/-- The words after a push has published its record. -/
def Inst.published (s : Inst) (n : ℕ) : Inst :=
  (s.goes (.caller n) .bound).record fun h => { h with
    calls := Function.update h.calls n { h.calls n with published := true } }

/-- The steps of `logger_queue_push` up to the publication: whether the record is published. -/
def queuePublish (n : ℕ) (m : LoggerMessage) : InstCode Bool := do
  Code.atomic .other fun s _ =>
    (queueNext g s.ring (.callPush n m)).map fun ring => ((), { s with ring })
  Code.iterate .other (fun _ => Code.atomic .other fun s a =>
    (pushRing g n a.choice s.ring).map fun r =>
      let s := { s with ring := r.2 }
      (r.1, if r.1 = .inr true then s.published n else s)) ()

/-- The exchange of `consumer_waiting` with zero, under `wait_mu`, by a thread that signals if it
found it set or is `forced` to. -/
def clearWaiting (label : InstLabel) (t : InstThread) (forced : Bool) : InstCode Bool :=
  Code.atomic label fun s _ =>
    let claimed := s.consumerWaiting || forced
    let s := { s with consumerWaiting := false }
    some (claimed, s.goes t (if claimed then .claimed else .bound))

/-- `pthread_cond_signal` of `wait_cv`, after which the thread is at `place`. -/
def signalWorker (label : InstLabel) (t : InstThread) (place : WakePlace) : InstCode ℤ :=
  Code.atomic label fun s a =>
    if a.signal ≠ 0 then some (-a.signal, s.goes t place)
    else some (0, { s with waiter := s.waiter.map fun _ => true }.goes t place)

/-- The unlock of `wait_mu` at the end of the two functions that signal; a failure is stored in
`wait_mu_error`. -/
def releaseWaitMu (label : InstLabel) (t : InstThread) : InstCode ℤ := do
  let rc ← Code.atomic label fun s a =>
    some (-(a.pthread : ℤ), (s.unlocked .wait a).goes t .away)
  if rc ≠ 0 then do
    store fun s => { s with waitMuError := -rc }
    pure rc
  else pure rc

/-- `logger_queue_notify_if_waiting`. -/
def loggerQueueNotifyIfWaiting (t : InstThread) : InstCode ℤ := do
  let waiting ← Code.atomic .notify fun s _ =>
    some (s.consumerWaiting, if s.consumerWaiting then s else s.goes t .away)
  if ¬ waiting then pure 0
  else do
    let rc ← Code.atomic .notify fun s a =>
      if a.pthread ≠ 0 then some (-(a.pthread : ℤ), s.goes t .away)
      else if s.owner .wait = none then some (0, s.own .wait (some t)) else none
    if rc ≠ 0 then pure rc
    else do
      let claimed ← clearWaiting .notify t false
      if ¬ claimed then releaseWaitMu .notify t
      else do
        let signalRc ← signalWorker .notify t .bound
        let unlockRc ← releaseWaitMu .notify t
        pure (if signalRc ≠ 0 then signalRc else unlockRc)

/-- `logger_queue_wake_force`. -/
def loggerQueueWakeForce (t : InstThread) : InstCode ℤ := do
  let rc ← lock .stop .wait t
  if rc ≠ 0 then pure rc
  else do
    let _ ← clearWaiting .stop t true
    let signalRc ← signalWorker .stop t .away
    let unlockRc ← releaseWaitMu .other t
    pure (if signalRc ≠ 0 then signalRc else unlockRc)

/-- `logger_queue_push`. -/
def loggerQueuePush (n : ℕ) (m : LoggerMessage) : InstCode ℤ := do
  let published ← queuePublish g n m
  if published then do
    let rc ← loggerQueueNotifyIfWaiting (.caller n)
    pure (if rc ≠ 0 then rc else 1)
  else pure 0

/-- A step of the drain of the worker: the records it returns with, if it does. -/
def popRing (entry : LoggerMessage) (ring : QueueSys ℕ) :
    Option ((Unit ⊕ List LoggerMessage) × QueueSys ℕ) :=
  (queueNext g ring (.pop entry)).bind fun ring =>
    match ring.pop with
    | .returned out => (queueNext g ring .returnPop).map fun ring => (.inr out, ring)
    | _ => some (.inl (), ring)

/-- `logger_queue_drain`. -/
def loggerQueueDrain (max : ℕ) : InstCode (List LoggerMessage) := do
  Code.atomic .other fun s _ =>
    (queueNext g s.ring (.callDrain max)).map fun ring => ((), { s with ring })
  Code.iterate .other (fun _ => Code.atomic .other fun s a =>
    (popRing g a.entry s.ring).map fun r => (r.1, { s with ring := r.2 })) ()

/-- The slot of a position holds a published record. -/
def publishedAt (q : Queue) (pos : ℕ) : Bool :=
  g.width.wrap (q.slots (g.slotIndex pos)).seq == g.width.wrap (pos + 1)

/-- `logger_queue_empty`. -/
def loggerQueueEmpty : InstCode Bool := do
  let pos ← load fun s => s.ring.q.dequeuePos
  Code.atomic .other fun s _ =>
    let published := publishedAt g s.ring.q pos
    some (!published, s.record fun h => { h with reads := h.reads ++ [.head pos published] })

/-- The worker's load of `running`. -/
def loadRunning : InstCode Bool :=
  Code.atomic .other fun s _ =>
    some (s.running, s.record fun h => { h with reads := h.reads ++ [.running s.running] })

end Queue

variable (cfg : InstConfig)

section Emission

/-- A program of a sink. -/
def onFile {α : Type} (m : FileProg α) : InstCode α :=
  Code.embed .other (fun s => s.sinks.file)
    (fun s w => { s with sinks := { s.sinks with file := w } }) InstReply.answer m

def onStderr {α : Type} (m : TapeProgram.Prog StderrWorld Answer α) : InstCode α :=
  Code.embed .other (fun s => s.sinks.stderr)
    (fun s w => { s with sinks := { s.sinks with stderr := w } }) InstReply.answer m

def onSyslog {α : Type} (m : SyslogProg α) : InstCode α :=
  Code.embed .other (fun s => s.sinks.syslog)
    (fun s w => { s with sinks := { s.sinks with syslog := w } }) InstReply.answer m

/-- `logger_format_line`, or `logger_format_line_checked` for a `strict` caller. -/
def formatRecord (t : InstThread) (m : LoggerMessage) (strict : Bool) : InstCode FormatResult :=
  Code.atomic .other fun s a =>
    let format := if strict then loggerFormatLineChecked cfg.time else loggerFormatLine cfg.time
    let r := format (some cfg.line) (some m) (some a.out) loggerLineMax a.writes (s.caches t)
    some (r, { s with caches := Function.update s.caches t r.cache })

/-- The bytes of a formatted line. -/
def lineOf (r : FormatResult) : List UInt8 := (r.out.getD .zero).bytes r.length

/-- `errno ? errno : EILSEQ` after a line could not be formatted. -/
def formatErrno (r : FormatResult) : ℤ := if r.rc = 0 then eilseq else -r.rc

/-- The lock of `emit_mu`, with the sinks as the section finds them. -/
def lockEmit (t : InstThread) : InstCode (ℤ × Sinks) :=
  Code.atomic .other fun s a =>
    if a.pthread ≠ 0 then some ((-a.pthread, s.sinks), s)
    else if s.owner .emit = none then some ((0, s.sinks), s.own .emit (some t)) else none

/-- The unlock of `emit_mu` at the end of an emission. -/
def unlockEmit (emission : ℤ → Sinks → Emission) : InstCode (ℤ × Emission) :=
  Code.atomic .other fun s a =>
    let rc : ℤ := -a.pthread
    some ((rc, emission rc s.sinks), (s.unlocked .emit a).record fun h =>
      { h with emissions := h.emissions ++ [emission rc s.sinks] })

/-- Count records as failed. -/
def countFailed (t : InstThread) (bad : ℕ) : InstCode Unit :=
  store fun s => { s with failedRecords := s.failedRecords + bad }.record fun h =>
    { h with accounted := Function.update h.accounted t (h.accounted t + bad) }

/-- Count records of an emission as emitted. -/
def countEmitted (label : InstLabel) (t : InstThread) (good : ℕ) (e : Option Emission) :
    InstCode Unit :=
  Code.atomic label fun s _ =>
    some ((), { s with emittedRecords := s.emittedRecords + good }.record fun h =>
      { h with
        accounted := Function.update h.accounted t (h.accounted t + good)
        counted := h.counted ++ e.toList })

/-- Count the record of a caller as completed. -/
def completeSync (t : InstThread) : InstCode Unit :=
  Code.atomic .count fun s _ =>
    some ((), { s with syncCompleted := s.syncCompleted + 1 }.record fun h =>
      { h with accounted := Function.update h.accounted t 0 })

/-- The way out of `logger_emit_status` for a record that reaches no sink. -/
def refuseRecord (t : InstThread) (error : ℤ) : InstCode ℤ := do
  loggerNoteIoError error
  countFailed t 1
  completeSync t
  pure (-error)

/-- The sinks of `logger_emit_status`, in their order: the first error. -/
def emitLine (m : LoggerMessage) (line : List UInt8) (forceSync : Bool) : InstCode ℤ := do
  let rc ← (if cfg.outStderr then onStderr (loggerStderrWritevAll [line]) else pure 0)
  let rc ← (if cfg.outFile then do
      let x ← onFile ((FileOp.write (.ofBytes line) (some m.ts)
        (forceSync || cfg.flushLevel.toNat ≤ m.level.toNat)).exec cfg.libc)
      pure (if rc = 0 then x else rc)
    else pure rc)
  if cfg.outSyslog then do
    -- a failed write has left its error in `errno`
    let x ← onSyslog (loggerSyslogWrite m.level (some line))
    pure (if x ≠ 0 ∧ rc = 0 then x else rc)
  else pure rc

/-- The first step of the accounting in `logger_emit_status`, for the result `rc`. -/
def accountLine (t : InstThread) (rc : ℤ) (emission : Emission) : InstCode Unit :=
  if rc < 0 then do
    loggerNoteIoError (-rc)
    countFailed t 1
  else countEmitted .other t 1 (some emission)

/-- `logger_emit_status`. -/
def loggerEmitStatus (t : InstThread) (m : LoggerMessage) (forceSync : Bool) : InstCode ℤ := do
  let r ← formatRecord cfg t m forceSync
  if forceSync ∧ r.rc ≠ 0 then pure r.rc
  else if ¬ forceSync ∧ r.length = 0 then refuseRecord t (formatErrno r)
  else do
    let syncError ← load Inst.synchronizationError
    if syncError ≠ 0 then refuseRecord t syncError
    else do
      let (lockRc, before) ← lockEmit t
      if lockRc ≠ 0 then refuseRecord t (-lockRc)
      else do
        let rc ← emitLine cfg m (lineOf r) forceSync
        let (unlockRc, emission) ← unlockEmit fun unlockRc after =>
          { thread := t, records := [m], lines := [lineOf r], forced := forceSync, before, after
            failed := [(if rc = 0 then unlockRc else rc) < 0] }
        loggerNoteSynchronizationError unlockRc
        let rc := if rc = 0 then unlockRc else rc
        accountLine t rc emission
        completeSync t
        pure rc

/-- The formatting of a batch. -/
def formatBatch : List LoggerMessage → InstCode (List FormatResult)
  | [] => pure []
  | m :: ms => do
    let r ← formatRecord cfg .worker m false
    let rs ← formatBatch ms
    pure (r :: rs)

/-- A sink that has failed for the whole batch. -/
def noteFailure (rc : ℤ) : InstCode Unit :=
  if rc < 0 then loggerNoteIoError (-rc) else pure ()

/-- The datagrams of a batch: which of them failed. -/
def emitSyslog : List (LoggerMessage × List UInt8) → InstCode (List Bool)
  | [] => pure []
  | (m, line) :: rest => do
    let rc ← onSyslog (loggerSyslogWrite m.level (some line))
    noteFailure rc
    let failed ← emitSyslog rest
    pure ((rc ≠ 0 : Bool) :: failed)

/-- The sinks of `emit_batch`: whether a failure is one of the whole batch, and which records failed
on their own. -/
def emitLines (batch : List LoggerMessage) (lines : List (List UInt8)) :
    InstCode (Bool × List Bool) := do
  let stderrRc ← (if cfg.outStderr then onStderr (loggerStderrWritevAll lines) else pure 0)
  noteFailure stderrRc
  let fileRc ← (if cfg.outFile then
      onFile ((FileOp.writev (lines.map .ofBytes) (lines.map List.length).sum
        (batch.getLast?.map LoggerMessage.ts)
        (batch.any fun m => cfg.flushLevel.toNat ≤ m.level.toNat)).exec cfg.libc)
    else pure 0)
  noteFailure fileRc
  let failed ← (if cfg.outSyslog then emitSyslog (batch.zip lines)
    else pure (batch.map fun _ => false))
  pure (stderrRc < 0 ∨ fileRc < 0, failed)

/-- The error of the unlock at the end of the section of `emit_batch`. -/
def noteUnlock (unlockRc : ℤ) : InstCode Unit :=
  if unlockRc ≠ 0 then do
    loggerNoteIoError (-unlockRc)
    loggerNoteSynchronizationError unlockRc
  else pure ()

/-- The label `account_batch` of `emit_batch`. -/
def accountBatch (failed : List Bool) (emission : Option Emission) : InstCode Unit := do
  countFailed .worker (failed.count true)
  countEmitted .count .worker (failed.length - failed.count true) emission

/-- `emit_batch`. -/
def emitBatch (batch : List LoggerMessage) : InstCode Unit := do
  let results ← formatBatch cfg batch
  match results.find? fun r => r.length = 0 with
  | some r => do
    loggerNoteIoError (formatErrno r)
    accountBatch (batch.map fun _ => true) none
  | none => do
    let (lockRc, before) ← lockEmit .worker
    if lockRc ≠ 0 then do
      loggerNoteIoError (-lockRc)
      loggerNoteLifecycleError (-lockRc)
      accountBatch (batch.map fun _ => true) none
    else do
      let (all, failed) ← emitLines cfg batch (results.map lineOf)
      let (unlockRc, emission) ← unlockEmit fun unlockRc after =>
        { thread := .worker, records := batch, lines := results.map lineOf, forced := false
          before, after
          failed := if all ∨ unlockRc < 0 then batch.map fun _ => true else failed }
      noteUnlock unlockRc
      accountBatch emission.failed (some emission)

end Emission

section Worker

/-- The update of `completed_pos` under `progress_mu`. It says whether the worker goes on. -/
def publishProgress : InstCode Bool := do
  let lockRc ← lock .other .progress .worker
  if lockRc ≠ 0 then do
    loggerNoteLifecycleError (-lockRc)
    pure true
  else do
    let pos ← load fun s => s.ring.q.dequeuePos
    store fun s => { s with completedPos := pos }
    -- the broadcast wakes threads that may wake up at any time
    let unlockRc ← unlock .progress
    if unlockRc ≠ 0 then do
      loggerNoteSynchronizationError unlockRc
      pure false
    else pure true

/-- The branch of the worker that has taken records. It says whether the worker goes on. -/
def workerEmit (batch : List LoggerMessage) : InstCode Bool := do
  emitBatch cfg batch
  Code.atomic .count fun s _ =>
    some ((), { s with asyncCompleted := s.asyncCompleted + batch.length }.record fun h =>
      { h with accounted := Function.update h.accounted .worker 0 })
  let syncError ← load Inst.synchronizationError
  if syncError ≠ 0 then pure false else publishProgress

/-- `pthread_cond_wait` on `wait_cv`: the error number, `0` for success. It gives `wait_mu` up and
sleeps until a signal or a spurious wake-up, unless it fails at once, and returns with the lock. -/
def condWaitQueue : InstCode ℕ := do
  let error ← Code.atomic .other fun s a =>
    if a.wait ≠ 0 then some (a.wait, s)
    else some (0, { s.own .wait none with waiter := some false })
  if error ≠ 0 then pure error
  else do
    Code.atomic .other fun s a =>
      if s.waiter = some true ∨ a.spurious then some ((), { s with waiter := none }) else none
    Code.atomic .other fun s a =>
      if s.owner .wait = none then some (a.wait, s.own .wait (some .worker)) else none

/-- The condition of the wait loop, as far as it is evaluated. -/
def nothingToDo : InstCode Bool := do
  let empty ← loggerQueueEmpty cfg.geometry
  if empty then loadRunning else pure false

/-- One pass of the wait loop, which says whether to wait again. -/
def waitOnce : InstCode Bool := do
  let idle ← nothingToDo cfg
  if ¬ idle then pure false
  else do
    -- `logger_queue_wait_arm_recheck`
    store fun s => { s with consumerWaiting := true }
    let stillIdle ← nothingToDo cfg
    if ¬ stillIdle then pure false
    else do
      let waitRc ← condWaitQueue
      if waitRc ≠ 0 then do
        stopInstance waitRc
        pure false
      else pure true

/-- The branch of the worker that has found the queue empty. It says whether the worker goes on. -/
def workerWait : InstCode Bool := do
  let lockRc ← lock .other .wait .worker
  if lockRc ≠ 0 then do
    loggerNoteLifecycleError (-lockRc)
    pure false
  else do
    Code.iterate .other (fun _ => do
      let again ← waitOnce cfg
      pure (if again then .inl () else .inr ())) ()
    -- `logger_queue_wait_disarm`
    store fun s => { s with consumerWaiting := false }
    let running ← loadRunning
    let stop ← (if running then pure false else loggerQueueEmpty cfg.geometry)
    let unlockRc ← unlock .wait
    if unlockRc ≠ 0 then do
      loggerNoteSynchronizationError unlockRc
      pure false
    else pure (!stop)

/-- The final broadcast of the worker. -/
def finalBroadcast : InstCode Unit := do
  let error ← load Inst.lifecycleError
  if error = 0 then pure ()
  else do
    let rc ← lock .other .progress .worker
    if rc ≠ 0 then loggerNoteLifecycleError (-rc)
    else do
      let unlockRc ← unlock .progress
      loggerNoteSynchronizationError unlockRc

/-- `logger_worker_main`. -/
def loggerWorkerMain : InstCode Unit := do
  Code.iterate .other (fun _ => do
    let batch ← loggerQueueDrain cfg.geometry cfg.workspaceCapacity
    let again ← (if batch.isEmpty then workerWait cfg else workerEmit cfg batch)
    pure (if again then .inl () else .inr ())) ()
  finalBroadcast
  store fun s => { s with workerDone := true }

end Worker

section Logging

/-- Increment a counter of the logging calls. -/
def countCall (n : ℕ) (counter : CallCounter) : InstCode Unit :=
  store fun s =>
    let s := match counter with
      | .enqueued => { s with enqueued := s.enqueued + 1 }
      | .syncFallbacks => { s with syncFallbacks := s.syncFallbacks + 1 }
      | .dropped level => { s with
          droppedByLevel := Function.update s.droppedByLevel level (s.droppedByLevel level + 1) }
    s.record fun h =>
      let log := h.calls n
      { h with
        counts := h.counts ++ [(n, counter)]
        calls := Function.update h.calls n { log with counted := log.counted ++ [counter] } }

/-- The end of `vlog_body` for a record that was published and could not be notified. -/
def vlogNotifyFailed (t : InstThread) (error : ℤ) : InstCode Unit := do
  loggerNoteIoError error
  loggerNoteLifecycleError error
  let waitError ← load Inst.waitMuError
  if waitError ≠ 0 then loggerNoteSynchronizationError waitError
  else do
    let wakeRc ← loggerQueueWakeForce t
    if wakeRc ≠ 0 then do
      loggerNoteLifecycleError (-wakeRc)
      let waitError ← load Inst.waitMuError
      loggerNoteSynchronizationError waitError
    else pure ()

/-- The part of `vlog_body` behind the formatting, for the record `m`. -/
def vlogRoute (n : ℕ) (m : LoggerMessage) : InstCode ℤ := do
  let pushRc ← loggerQueuePush cfg.geometry n m
  if 0 < pushRc then do
    countCall n .enqueued
    pure 0
  else if pushRc < 0 then do
    countCall n .enqueued
    vlogNotifyFailed (.caller n) (-pushRc)
    pure pushRc
  else if cfg.overflowSync m.level then do
    countCall n .syncFallbacks
    loggerEmitStatus cfg (.caller n) m false
  else do
    countCall n (.dropped m.level)
    pure (-eagain)

/-- `clock_gettime` and the formatting of the text: `0` or a negated error number. -/
def formatText (n : ℕ) (c : VlogCall) : InstCode ℤ := do
  let clock ← call
  if !clock.ok then pure (-clock.errno)
  else
    Code.atomic .other fun s a =>
      if a.answer.ok then
        some (0, s.record fun h => { h with
          calls := Function.update h.calls n { h.calls n with formatted := some c.level } })
      else some (-a.answer.errno, s)

/-- `vlog_body`. -/
def vlogBody (n : ℕ) (c : VlogCall) : InstCode ℤ := do
  let level ← load Inst.level
  if c.level.toNat < level.toNat then pure 0
  else do
    let rc ← formatText n c
    if rc ≠ 0 then pure rc
    else
      let m := vlogRecord (captureMaskFromConfig cfg.line) c
      if cfg.asyncMode then vlogRoute cfg n m else loggerEmitStatus cfg (.caller n) m false

/-- `logger_vlog_internal`, and the other functions that end in `vlog_body`. -/
def loggerVlogInternal (n : ℕ) (c : VlogCall) : InstCode Unit := do
  let accepting ← Code.atomic .other fun s _ =>
    some (s.accepting, s.record fun h => { h with
      logging := insert n h.logging
      calls := Function.update h.calls n { since := h.counts.length } })
  let _ ← (if c.level.toNat < LoggerLevel.off.toNat ∧ accepting then vlogBody cfg n c else pure 0)
  store fun s => s.record fun h => { h with logging := h.logging.erase n }

/-- `logger_log_sync_status`. -/
def loggerLogSyncStatus (n : ℕ) (c : VlogCall) : InstCode Unit := do
  let accepting ← load Inst.accepting
  if LoggerLevel.off.toNat ≤ c.level.toNat ∨ ¬ accepting then pure ()
  else do
    let level ← load Inst.level
    if c.level.toNat < level.toNat then pure ()
    else do
      let clock ← call
      let text ← call
      if !clock.ok ∨ !text.ok ∨ loggerMessageMax ≤ c.formatted.length then pure ()
      else do
        let since ← load fun s => s.history.counted.length
        let rc ← loggerEmitStatus cfg (.caller n)
          (vlogRecord (captureMaskFromConfig cfg.line) c) true
        store fun s => s.record fun h => { h with syncCalls := h.syncCalls ++ [⟨c, rc, since⟩] }

end Logging

section Calls

/-- `pthread_cond_wait` on `progress_cv`: the error number, `0` for success. A wake-up is possible
at any time. -/
def condWaitProgress (t : InstThread) : InstCode ℕ := do
  let error ← Code.atomic .other fun s a =>
    if a.wait ≠ 0 then some (a.wait, s) else some (0, s.own .progress none)
  if error ≠ 0 then pure error
  else
    Code.atomic .other fun s a =>
      if s.owner .progress = none then some (a.wait, s.own .progress (some t)) else none

/-- The wait of `logger_wait_for_output` for `completed_pos`, with what had been counted when it saw
the position completed. -/
def waitCompleted (t : InstThread) (target : ℕ) : InstCode (ℤ × List Emission) :=
  Code.iterate .other (fun _ => do
    let error ← load Inst.lifecycleError
    if error ≠ 0 then pure (.inr (-error, []))
    else do
      let (reached, counted) ← load fun s =>
        (cfg.geometry.width.notBehind (cfg.geometry.width.wrap s.completedPos)
          (cfg.geometry.width.wrap target), s.history.counted)
      if reached then pure (.inr (0, counted))
      else do
        let rc ← condWaitProgress t
        pure (if rc ≠ 0 then .inr (-(rc : ℤ), []) else .inl ())) ()

/-- `logger_wait_for_output`: `0` or a negated error number, with the position it waited for and
what had been counted as emitted when it saw it completed. -/
def loggerWaitForOutput (t : InstThread) : InstCode (ℤ × ℕ × List Emission) := do
  let syncError ← load Inst.synchronizationError
  if syncError ≠ 0 then pure (-syncError, 0, [])
  else do
    let (rc, target, counted) ← (if cfg.asyncMode then do
        let target ← load fun s => s.ring.q.enqueuePos
        let rc ← lock .other .progress t
        if rc ≠ 0 then pure (rc, target, [])
        else do
          let (result, counted) ← waitCompleted cfg t target
          let unlockRc ← unlock .progress
          loggerNoteSynchronizationError unlockRc
          pure (if result = 0 then unlockRc else result, target, counted)
      else pure (0, 0, []))
    if rc ≠ 0 then pure (rc, target, [])
    else do
      let error ← load Inst.firstError
      pure (-error, target, counted)

/-- `logger_sync_outputs_locked`. -/
def loggerSyncOutputsLocked (before : FileWorld) : InstCode (ℤ × SyncLook) := do
  let fileRc ← (if cfg.outFile then onFile (FileOp.sync.exec cfg.libc) else pure 0)
  noteFailure fileRc
  load fun s => (-s.firstError,
    { fileRc, before, after := s.sinks.file, failedRecords := s.failedRecords
      counted := s.history.counted })

/-- The end of a section under `emit_mu` that has returned `rc`. -/
def leaveEmit (rc : ℤ) : InstCode ℤ := do
  let unlockRc ← unlock .emit
  loggerNoteSynchronizationError unlockRc
  pure (if rc = 0 then unlockRc else rc)

/-- The synchronisation at the end of `logger_flush`. -/
def flushOutputs (t : InstThread) : InstCode (ℤ × Option SyncLook) := do
  let syncError ← load Inst.synchronizationError
  if syncError ≠ 0 then pure (-syncError, none)
  else do
    let (lockRc, before) ← lockEmit t
    if lockRc ≠ 0 then pure (lockRc, none)
    else do
      let (rc, look) ← loggerSyncOutputsLocked cfg before.file
      let rc ← leaveEmit rc
      pure (rc, some look)

/-- `logger_flush`. -/
def loggerFlush (t : InstThread) : InstCode Unit := do
  let accepting ← load Inst.accepting
  if ¬ accepting then pure ()
  else do
    let (rc, target, waited) ← loggerWaitForOutput cfg t
    let (syncRc, look) ← flushOutputs cfg t
    store fun s => s.record fun h =>
      { h with flushes := h.flushes ++ [⟨if rc = 0 then syncRc else rc, target, waited, look⟩] }

/-- `logger_reopen`. -/
def loggerReopen (t : InstThread) : InstCode Unit := do
  let accepting ← load Inst.accepting
  if ¬ cfg.outFile ∨ ¬ accepting then pure ()
  else do
    let (lockRc, _) ← lockEmit t
    if lockRc ≠ 0 then pure ()
    else do
      let rc ← onFile (FileOp.reopen.exec cfg.libc)
      noteFailure rc
      let _ ← leaveEmit rc
      pure ()

/-- `pthread_join` of the worker: the error number, `0` for success. -/
def joinWorker : InstCode ℕ :=
  Code.atomic .other fun s a =>
    if a.join ≠ 0 then some (a.join, s) else if s.workerDone then some (0, s) else none

/-- The stop of an asynchronous instance in `dispose_body`: whether the worker has been joined. -/
def stopWorker (t : InstThread) : InstCode Bool := do
  store fun s =>
    let s' := { s with running := false }.goes t .bound
    s'.record fun h => { h with
      cleanStop := h.cleanStop || (s.running && decide (h.logging = ∅)) }
  let wakeRc ← loggerQueueWakeForce t
  if wakeRc ≠ 0 then do
    loggerNoteLifecycleError (-wakeRc)
    let waitError ← load Inst.waitMuError
    loggerNoteSynchronizationError waitError
    pure false
  else do
    let joinRc ← joinWorker
    if joinRc ≠ 0 then do
      noteFirst joinRc
      pure false
    else pure true

/-- `dispose_body`, up to the release of what the instance consists of. -/
def disposeBody (t : InstThread) : InstCode Unit := do
  store fun s => { s with accepting := false }
  let syncError ← load Inst.synchronizationError
  let syncError ← (if syncError = 0 ∧ cfg.asyncMode then load Inst.waitMuError else pure syncError)
  if syncError ≠ 0 then loggerNoteLifecycleError syncError
  else do
    let joined ← (if cfg.asyncMode then stopWorker t else pure true)
    let syncError ← load Inst.synchronizationError
    if ¬ joined ∨ syncError ≠ 0 then pure ()
    else do
      let lifecycleError ← load Inst.lifecycleError
      let (lockRc, before) ← lockEmit t
      if lockRc ≠ 0 then store fun s => { s with lifecycleError := -lockRc }
      else do
        let _ ← (if lifecycleError ≠ 0 then pure (-lifecycleError) else do
          let (rc, _) ← loggerSyncOutputsLocked cfg before.file
          pure rc)
        let unlockRc ← unlock .emit
        loggerNoteSynchronizationError unlockRc

/-- `logger_set_instance_level`. -/
def loggerSetInstanceLevel (level : LoggerLevel) : InstCode Unit :=
  if LoggerLevel.off.toNat < level.toNat then pure () else store fun s => { s with level }

end Calls

/-- The calls that callers can make. -/
inductive InstCall where
  | vlog (c : VlogCall)
  | logSyncStatus (c : VlogCall)
  | flush
  | reopen
  | setLevel (level : LoggerLevel)
  | dispose

/-- What a caller runs; the worker makes no calls. -/
def instApi : InstThread → InstCall → InstCode Unit
  | .caller n, .vlog c => loggerVlogInternal cfg n c
  | .caller n, .logSyncStatus c => loggerLogSyncStatus cfg n c
  | .caller n, .flush => loggerFlush cfg (.caller n)
  | .caller n, .reopen => loggerReopen cfg (.caller n)
  | .caller _, .setLevel level => loggerSetInstanceLevel level
  | .caller n, .dispose => disposeBody cfg (.caller n)
  | .worker, _ => pure ()

/-- An instance as its constructor leaves it. -/
def instStart (level : LoggerLevel) (sinks : Sinks) :
    System Inst InstReply InstLabel InstThread where
  shared := { ring := .init ℕ, level, sinks }
  code
    | .worker => if cfg.asyncMode then loggerWorkerMain cfg else pure ()
    | .caller _ => pure ()

/-- The states of an instance in the runs whose steps are `ok`. -/
def InstReachable (ok : Inst → InstThread → InstReply → Inst → Prop) (level : LoggerLevel)
    (sinks : Sinks) (S : System Inst InstReply InstLabel InstThread) : Prop :=
  TransitionSystem.Reachable (sysNext (instApi cfg)) (stepOk (fun _ => True) ok)
    (instStart cfg level sinks) S

section Sample

/-- The smallest queue, with the file and the standard error stream as outputs. -/
def sampleConfig : InstConfig where
  geometry := QueueLayout.geometry loggerQueueInit_two false
  asyncMode := true
  outStderr := true
  outFile := true
  outSyslog := false
  overflowSync _ := true
  flushLevel := .error
  line := ⟨.normal, false, false, false⟩
  Tm := Unit
  time := sampleTime
  libc := ⟨1, gmtime⟩

def sampleSinks : Sinks := ⟨managedFile, ⟨[]⟩, syslogStart 1⟩

/-- A call that logs `hi`. -/
def sampleCall : VlogCall :=
  { level := .info, module := none, file := none, line := 0, function := none, pid := 1, tid := 1
    context := ⟨none, none, none⟩, ts := ⟨0, 0⟩, formatted := ascii "hi" }

theorem errnoNonneg_nil : ErrnoNonneg ([] : VsnprintfAnswers) :=
  fun _ h => absurd h List.not_mem_nil

/-- Every call succeeds, and a `write` takes 100 bytes. -/
def granted : InstReply := { writes_errno := errnoNonneg_nil, answer := { count := 100 } }

end Sample

end CLogger.Instance
