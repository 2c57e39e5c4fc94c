import CLogger.Errno
import CLogger.Global.Ticket
import CLogger.Lib.TransitionSystem
import Mathlib.Data.Finset.Basic
import Mathlib.Logic.Function.Basic

/-!
# The default logger binding

`logger_global.c` as a step relation: any number of threads run `logger_default_set` and readers
that go through `pin` and `finish_result`, one shared operation at a time, while the host creates
and destroys instances. Every lock and unlock can fail. A failed lock takes nothing; a failed unlock
may or may not have released the lock, and the code then poisons the binding and never touches that
lock again.

The host only promises what the header asks of it: an instance passed as `replacement` is alive, and
it is not destroyed while that call is in progress.

Beside the variables of the source the state carries a history: the instances bound so far, one for
each generation, and what the current call of each thread has written.
-/

namespace CLogger

/-- The arguments of a `logger_default_set` call, with what it observed on entry: the ticket and,
as history, how many bindings there had been. -/
structure SetCall (Λ : Type) where
  expected : Option Λ
  replacement : Option Λ
  observed : GlobalTicket
  seen : ℕ

/-- How far a `logger_default_set` call got: it ended before its commit, found the ticket poisoned
when it tried to commit, or committed. -/
inductive SetOutcome where
  | early | unpublished | committed
  deriving DecidableEq, Repr

/-- What a call that is about to return has done. -/
inductive CallEnd (Λ : Type) where
  /-- A reader, with the ticket it was pinned on. -/
  | reader (pinned : Option GlobalTicket)
  /-- A `logger_default_set`. -/
  | set (call : SetCall Λ) (outcome : SetOutcome)

/-- The scope that `finish_result` closes, and the result it was given. -/
structure GlobalScope (Λ : Type) where
  controlLocked : Bool
  lifetimeLocked : Bool
  releaseBorrow : Option Λ
  rc : ℤ
  done : CallEnd Λ

/-- Where a thread stands: the shared operation it executes next. -/
inductive GlobalPc (Λ : Type) where
  /-- No call in progress. -/
  | idle
  /-- `begin` of `logger_default_set(expected, replacement)`. -/
  | setBegin (expected replacement : Option Λ)
  /-- Loads the observed ticket. -/
  | setObserve (expected replacement : Option Λ)
  /-- Locks the control mutex. -/
  | setLock (c : SetCall Λ)
  /-- Checks the lock error after the lock. -/
  | setLockCheck (c : SetCall Λ)
  /-- Loads the current ticket. -/
  | setCurrent (c : SetCall Λ)
  /-- Reads the slot. -/
  | setSlot (c : SetCall Λ)
  /-- Loads the state of the replacement. -/
  | setState (c : SetCall Λ)
  /-- Loads the borrow flag of the replacement. -/
  | setFlag (c : SetCall Λ)
  /-- Checks the generation and closes admission with a compare-and-swap. -/
  | setClose (c : SetCall Λ)
  /-- Loads the lock error after the compare-and-swap failed. -/
  | setCloseFailed (c : SetCall Λ)
  /-- Takes the write lock. -/
  | setWrlock (c : SetCall Λ)
  /-- Rolls the ticket back after the write lock failed with `err`. -/
  | setRollback (c : SetCall Λ) (err : ℤ)
  /-- Checks the lock error under the write lock. -/
  | setWriteCheck (c : SetCall Λ)
  /-- Stores the borrow flag of the replacement. -/
  | setBorrow (c : SetCall Λ)
  /-- Stores the slot. -/
  | setStore (c : SetCall Λ)
  /-- Publishes the next ticket. -/
  | setCommit (c : SetCall Λ)
  /-- Restores the slot after the publication failed. -/
  | setRestore (c : SetCall Λ)
  /-- Loads the lock error after the slot was restored. -/
  | setCommitFailed (c : SetCall Λ)
  /-- `begin` of a reader. -/
  | pinBegin
  /-- Loads the ticket. -/
  | pinLoad
  /-- Loads the lock error because the ticket was broken. -/
  | pinBroken
  /-- Takes the read lock. -/
  | pinRdlock (ticket : GlobalTicket)
  /-- Checks the lock error under the read lock. -/
  | pinCheck (ticket : GlobalTicket)
  /-- Compares the ticket again. -/
  | pinRecheck (ticket : GlobalTicket)
  /-- Reads the slot. -/
  | pinSlot (ticket : GlobalTicket)
  /-- `pin` returned 0: the reader works on the bound instance. -/
  | pinned (ticket : GlobalTicket)
  /-- `finish_result` releases the lifetime lock. -/
  | unlockLifetime (scope : GlobalScope Λ)
  /-- `finish_result` releases the control mutex. -/
  | unlockControl (scope : GlobalScope Λ)
  /-- `finish_result` clears the borrow flag and ends the scope. -/
  | clearBorrow (scope : GlobalScope Λ)
  /-- `global_lock_poison` sets the lock error. -/
  | poisonError (scope : GlobalScope Λ) (err : ℤ)
  /-- `global_lock_poison` loads the ticket. -/
  | poisonLoad (scope : GlobalScope Λ) (err : ℤ)
  /-- `global_lock_poison` tries to break the ticket. -/
  | poisonTicket (scope : GlobalScope Λ) (err : ℤ) (ticket : GlobalTicket)
  /-- The call returned `rc`. -/
  | returned (done : CallEnd Λ) (rc : ℤ)
  /-- The call returned the error of a failed unlock; the thread keeps its global scope. -/
  | poisoned (done : CallEnd Λ) (rc : ℤ)

/-- A write of a `logger_default_set` call to the shared variables. -/
inductive GlobalWrite (Λ : Type) where
  | ticket (old new : GlobalTicket)
  | slot (value : Option Λ)
  | borrowed (x : Λ) (value : Bool)

/-- The shared variables of the binding, the threads and the history. -/
structure GlobalSys (ι Λ : Type) where
  /-- `g_ticket`. -/
  ticket : GlobalTicket
  /-- `g_lock_error`. -/
  lockError : ℤ
  /-- `g_logger`. -/
  slot : Option Λ
  /-- The holder of `g_control_mu`. -/
  control : Option ι
  /-- The holders of `g_lifetime_lock` for reading. -/
  readers : Finset ι
  /-- The holder of `g_lifetime_lock` for writing. -/
  writer : Option ι
  /-- `default_borrowed` of each instance. -/
  borrowed : Λ → Bool
  /-- `state == LOGGER_STATE_RUNNING` of each instance. -/
  running : Λ → Bool
  /-- The instances that have been created and not disposed of. -/
  alive : Λ → Bool
  /-- The instances whose `logger_destroy` has passed the borrow check. -/
  destroying : Λ → Bool
  pc : ι → GlobalPc Λ
  /-- The binding of each generation so far. -/
  bindings : List (Option Λ)
  /-- The writes of the current call of each thread. -/
  writes : ι → List (GlobalWrite Λ)

/-- The state `logger_runtime_init` leaves: generation 0, nothing bound, no instance created. -/
def GlobalSys.init (ι Λ : Type) : GlobalSys ι Λ :=
  { ticket := 0#64, lockError := 0, slot := none, control := none, readers := ∅, writer := none,
    borrowed := fun _ => false, running := fun _ => false, alive := fun _ => false,
    destroying := fun _ => false, pc := fun _ => .idle, bindings := [none], writes := fun _ => [] }

/-- What the environment decides in a step: the error of the lock, unlock or cancellation call
(`0` for success), whether a failed unlock released the lock all the same, whether a weak
compare-and-swap fails spuriously, and the result of a reader's work. -/
structure GlobalChoice where
  err : ℤ
  released : Bool
  spurious : Bool
  result : ℤ

/-- The instance a pending `logger_default_set` call may bind. -/
def GlobalPc.binding {Λ : Type} : GlobalPc Λ → Option Λ
  | .setBegin _ r => r
  | .setObserve _ r => r
  | .setLock c => c.replacement
  | .setLockCheck c => c.replacement
  | .setCurrent c => c.replacement
  | .setSlot c => c.replacement
  | .setState c => c.replacement
  | .setFlag c => c.replacement
  | .setClose c => c.replacement
  | .setCloseFailed c => c.replacement
  | .setWrlock c => c.replacement
  | .setRollback c _ => c.replacement
  | .setWriteCheck c => c.replacement
  | .setBorrow c => c.replacement
  | .setStore c => c.replacement
  | .setCommit c => c.replacement
  | .setRestore c => c.replacement
  | .setCommitFailed c => c.replacement
  | _ => none

variable {ι Λ : Type} [DecidableEq ι] [DecidableEq Λ]

namespace GlobalSys

variable (s : GlobalSys ι Λ) (i : ι)

/-- Thread `i` moves on without touching a shared variable. -/
def move (pc : GlobalPc Λ) : GlobalSys ι Λ := { s with pc := Function.update s.pc i pc }

/-- A `logger_default_set` that has not committed goes to `done` with result `rc`. -/
def setDone (c : SetCall Λ) (controlLocked : Bool) (rc : ℤ) : GlobalSys ι Λ :=
  s.move i (.unlockLifetime ⟨controlLocked, false, none, rc, .set c .early⟩)

/-- A reader goes to `finish_result` with result `rc`. -/
def pinDone (lifetimeLocked : Bool) (rc : ℤ) : GlobalSys ι Λ :=
  s.move i (.unlockLifetime ⟨false, lifetimeLocked, none, rc, .reader none⟩)

/-- `-(global_lock_error() ? global_lock_error() : EIO)`. -/
def lockErrorOrEio : ℤ := if s.lockError ≠ 0 then -s.lockError else -eio

/-- Thread `i` records a write of its call. -/
def log (w : GlobalWrite Λ) : ι → List (GlobalWrite Λ) :=
  Function.update s.writes i (s.writes i ++ [w])

end GlobalSys

/-- The phase published for a binding, `replacement ? G_RUNNING : G_IDLE`. -/
def bindingPhase (replacement : Option Λ) : GlobalPhase :=
  match replacement with
  | none => .idle
  | some _ => .running

/-- The ticket while a call changes the binding. -/
def updatingTicket (current : GlobalTicket) : GlobalTicket :=
  withPhase current GlobalPhase.stopping.code

/-- One step of `logger_default_set`, up to `done`. -/
def setStep (s : GlobalSys ι Λ) (i : ι) (ch : GlobalChoice) : GlobalPc Λ → Option (GlobalSys ι Λ)
  | .setBegin e r =>
    -- the process gate has refused the call, and there is nothing to undo
    if ch.err ≠ 0 then some (s.move i (.returned (.set ⟨e, r, s.ticket, s.bindings.length⟩ .early)
      (-ch.err)))
    else if s.lockError ≠ 0 then
      some (s.setDone i ⟨e, r, s.ticket, s.bindings.length⟩ false (-s.lockError))
    else some (s.move i (.setObserve e r))
  -- a change is under way
  | .setObserve e r =>
    if phaseOf s.ticket = GlobalPhase.stopping.code then
      some (s.setDone i ⟨e, r, s.ticket, s.bindings.length⟩ false (-eagain))
    else some (s.move i (.setLock ⟨e, r, s.ticket, s.bindings.length⟩))
  -- `pthread_mutex_lock` either fails or waits until the mutex is free
  | .setLock c =>
    if ch.err ≠ 0 then some (s.setDone i c false (-ch.err))
    else if s.control = none then
      some { s with control := some i, pc := Function.update s.pc i (.setLockCheck c) }
    else none
  -- a failed unlock of another call may have poisoned the state in the meantime
  | .setLockCheck c =>
    if s.lockError ≠ 0 then some (s.setDone i c true (-s.lockError))
    else some (s.move i (.setCurrent c))
  -- the ticket and the slot are checked again under the mutex
  | .setCurrent c =>
    if s.ticket ≠ c.observed then some (s.setDone i c true (-estale))
    else some (s.move i (.setSlot c))
  | .setSlot c =>
    if s.slot ≠ c.expected then some (s.setDone i c true (-estale))
    else if c.expected = c.replacement then some (s.setDone i c true 0)
    else some (s.move i (.setState c))
  -- the replacement has to be running and bound nowhere else
  | .setState c =>
    match c.replacement with
    | none => some (s.move i (.setClose c))
    | some x =>
      if s.running x then some (s.move i (.setFlag c)) else some (s.setDone i c true (-eshutdown))
  | .setFlag c =>
    match c.replacement with
    | none => some (s.move i (.setClose c))
    | some x =>
      if s.borrowed x then some (s.setDone i c true (-ebusy)) else some (s.move i (.setClose c))
  -- the phase is set to stopping, which turns new readers away
  | .setClose c =>
    if generationOf c.observed = generationMax then some (s.setDone i c true (-eoverflow))
    else if s.ticket = c.observed then
      some { s with
        ticket := updatingTicket c.observed
        pc := Function.update s.pc i (.setWrlock c)
        writes := s.log i (.ticket c.observed (updatingTicket c.observed)) }
    else some (s.move i (.setCloseFailed c))
  | .setCloseFailed c => some (s.setDone i c true s.lockErrorOrEio)
  -- the write lock waits for the readers that have pinned already
  | .setWrlock c =>
    if ch.err ≠ 0 then some (s.move i (.setRollback c ch.err))
    else if s.writer = none ∧ s.readers = ∅ then
      some { s with writer := some i, pc := Function.update s.pc i (.setWriteCheck c) }
    else none
  -- the old phase is put back, unless the state has been poisoned
  | .setRollback c err =>
    if s.ticket = updatingTicket c.observed then
      some { s with
        ticket := withPhase (updatingTicket c.observed) (phaseOf c.observed)
        pc := Function.update s.pc i (.unlockLifetime ⟨true, false, none, -err, .set c .early⟩)
        writes := s.log i (.ticket (updatingTicket c.observed)
          (withPhase (updatingTicket c.observed) (phaseOf c.observed))) }
    else some (s.setDone i c true (-err))
  | .setWriteCheck c =>
    if s.lockError ≠ 0 then
      some (s.move i (.unlockLifetime ⟨true, true, none, -s.lockError, .set c .early⟩))
    else some (s.move i (.setBorrow c))
  -- the flag of the replacement is set before the slot
  | .setBorrow c =>
    match c.replacement with
    | none => some (s.move i (.setStore c))
    | some x => some { s with
        borrowed := Function.update s.borrowed x true
        pc := Function.update s.pc i (.setStore c)
        writes := s.log i (.borrowed x true) }
  | .setStore c => some { s with
      slot := c.replacement
      pc := Function.update s.pc i (.setCommit c)
      writes := s.log i (.slot c.replacement) }
  -- the commit publishes the next generation
  | .setCommit c =>
    if s.ticket = updatingTicket c.observed then
      some { s with
        ticket := nextTicket c.observed (bindingPhase c.replacement)
        pc := Function.update s.pc i
          (.unlockLifetime ⟨true, true, c.expected, 0, .set c .committed⟩)
        bindings := s.bindings ++ [c.replacement]
        writes := s.log i (.ticket (updatingTicket c.observed)
          (nextTicket c.observed (bindingPhase c.replacement))) }
    else some (s.move i (.setRestore c))
  -- a commit that has lost its ticket takes the slot back
  | .setRestore c => some { s with
      slot := c.expected
      pc := Function.update s.pc i (.setCommitFailed c)
      writes := s.log i (.slot c.expected) }
  | .setCommitFailed c =>
    some (s.move i (.unlockLifetime
      ⟨true, true, c.replacement, s.lockErrorOrEio, .set c .unpublished⟩))
  | _ => none

/-- One step of a reader: `begin`, `pin`, and the work on the pinned instance. -/
def pinStep (s : GlobalSys ι Λ) (i : ι) (ch : GlobalChoice) : GlobalPc Λ → Option (GlobalSys ι Λ)
  | .pinBegin =>
    -- the gate of a reader is the one of a change
    if ch.err ≠ 0 then some (s.move i (.returned (.reader none) (-ch.err)))
    else if s.lockError ≠ 0 then some (s.pinDone i false (-s.lockError))
    else some (s.move i .pinLoad)
  -- the phase decides what a reader is told
  | .pinLoad =>
    if phaseOf s.ticket = GlobalPhase.running.code then some (s.move i (.pinRdlock s.ticket))
    else if phaseOf s.ticket = GlobalPhase.stopping.code then some (s.pinDone i false (-eagain))
    else if phaseOf s.ticket = GlobalPhase.broken.code then some (s.move i .pinBroken)
    else some (s.pinDone i false (-enodev))
  | .pinBroken => some (s.pinDone i false s.lockErrorOrEio)
  -- the read lock waits for a writer
  | .pinRdlock t =>
    if ch.err ≠ 0 then some (s.pinDone i false (-ch.err))
    else if s.writer = none then
      some { s with
        readers := insert i s.readers, pc := Function.update s.pc i (.pinCheck t) }
    else none
  | .pinCheck t =>
    if s.lockError ≠ 0 then some (s.pinDone i true (-s.lockError))
    else some (s.move i (.pinRecheck t))
  -- the ticket is compared once more under the lock
  | .pinRecheck t =>
    if s.ticket ≠ t then some (s.pinDone i true (-eshutdown)) else some (s.move i (.pinSlot t))
  | .pinSlot t =>
    -- a running phase with an empty slot is a broken state
    if phaseOf t = GlobalPhase.running.code ∧ s.slot = none then some (s.pinDone i true (-eio))
    else some (s.move i (.pinned t))
  -- the work on the instance is done, and the lock is given back
  | .pinned t => some (s.move i (.unlockLifetime ⟨false, true, none, ch.result, .reader (some t)⟩))
  | _ => none

/-- Release the lifetime lock, whichever way thread `i` holds it. -/
def GlobalSys.releaseLifetime (s : GlobalSys ι Λ) (i : ι) : GlobalSys ι Λ :=
  { s with
    readers := s.readers.erase i, writer := if s.writer = some i then none else s.writer }

/-- One step of `finish_result` or of `global_lock_poison`. -/
def finishStep (s : GlobalSys ι Λ) (i : ι) (ch : GlobalChoice) :
    GlobalPc Λ → Option (GlobalSys ι Λ)
  -- the locks are released in the reverse order of their acquisition
  | .unlockLifetime scope =>
    if scope.lifetimeLocked then
      -- a failed unlock poisons the state, whether the lock is free now or not
      if ch.err ≠ 0 then
        if ch.released then some ((s.releaseLifetime i).move i (.poisonError scope ch.err))
        else some (s.move i (.poisonError scope ch.err))
      else some ((s.releaseLifetime i).move i (.unlockControl scope))
    else some (s.move i (.unlockControl scope))
  | .unlockControl scope =>
    if scope.controlLocked then
      if ch.err ≠ 0 then
        if ch.released then
          some { s with control := none, pc := Function.update s.pc i (.poisonError scope ch.err) }
        else some (s.move i (.poisonError scope ch.err))
      else some { s with control := none, pc := Function.update s.pc i (.clearBorrow scope) }
    else some (s.move i (.clearBorrow scope))
  | .clearBorrow scope =>
    -- the first error of the call is the one it returns
    let rc := if scope.rc ≠ 0 then scope.rc else -ch.err
    match scope.releaseBorrow with
    | none => some (s.move i (.returned scope.done rc))
    | some x => some { s with
        borrowed := Function.update s.borrowed x false
        pc := Function.update s.pc i (.returned scope.done rc)
        writes := s.log i (.borrowed x false) }
  -- the first error is kept
  | .poisonError scope err => some { s with
      lockError := if s.lockError = 0 then err else s.lockError
      pc := Function.update s.pc i (.poisonLoad scope err) }
  | .poisonLoad scope err => some (s.move i (.poisonTicket scope err s.ticket))
  -- the phase is set by a weak exchange, which is tried again
  | .poisonTicket scope err t =>
    if phaseOf t = GlobalPhase.broken.code then some (s.move i (.poisoned scope.done (-err)))
    else if s.ticket = t ∧ ch.spurious = false then
      some { s with
        ticket := withPhase t GlobalPhase.broken.code
        pc := Function.update s.pc i (.poisoned scope.done (-err)) }
    else some (s.move i (.poisonTicket scope err s.ticket))
  | _ => none

/-- The borrow check of `logger_destroy`: `-EBUSY`, or 0 when the disposal goes on. -/
def loggerDestroyGate (s : GlobalSys ι Λ) (x : Λ) : ℤ := if s.borrowed x then -ebusy else 0

/-- The actions of the threads and of the host. -/
inductive GlobalAction (ι Λ : Type) where
  /-- Thread `i` calls `logger_default_set(expected, replacement)`. -/
  | callSet (i : ι) (expected replacement : Option Λ)
  /-- Thread `i` calls an API that reads through the binding. -/
  | callReader (i : ι)
  /-- Thread `i` takes its next step. -/
  | step (i : ι) (ch : GlobalChoice)
  /-- The call of thread `i` returns to its caller. -/
  | ret (i : ι)
  /-- The host creates an instance. -/
  | create (x : Λ)
  /-- The instance enters or leaves `LOGGER_STATE_RUNNING`. -/
  | state (x : Λ) (running : Bool)
  /-- `logger_destroy` checks the borrow flag of the instance. -/
  | destroy (x : Λ)
  /-- `logger_destroy` has disposed of the instance. -/
  | dispose (x : Λ)

/-- The replacement of a new call is alive and not being destroyed. -/
def GlobalSys.MayBind (s : GlobalSys ι Λ) : Option Λ → Prop
  | none => True
  | some x => s.alive x = true ∧ s.destroying x = false

instance (s : GlobalSys ι Λ) (r : Option Λ) : Decidable (s.MayBind r) :=
  match r with
  | none => .isTrue trivial
  | some _ => inferInstanceAs (Decidable (_ ∧ _))

/-- One step of the threads and the host. -/
def globalNext (s : GlobalSys ι Λ) : GlobalAction ι Λ → Option (GlobalSys ι Λ)
  | .callSet i e r =>
    match s.pc i with
    | .idle =>
      if s.MayBind r then
        some { s with
          pc := Function.update s.pc i (.setBegin e r), writes := Function.update s.writes i [] }
      else none
    | _ => none
  | .callReader i =>
    match s.pc i with
    | .idle => some { s with
        pc := Function.update s.pc i .pinBegin, writes := Function.update s.writes i [] }
    | _ => none
  -- a place belongs to one of the three parts
  | .step i ch =>
    (setStep s i ch (s.pc i)).or ((pinStep s i ch (s.pc i)).or (finishStep s i ch (s.pc i)))
  | .ret i =>
    match s.pc i with
    | .returned _ _ => some (s.move i .idle)
    | _ => none
  -- an instance comes into being running and unbound
  | .create x =>
    if s.alive x then none
    else some { s with
      alive := Function.update s.alive x true
      running := Function.update s.running x true
      borrowed := Function.update s.borrowed x false
      destroying := Function.update s.destroying x false }
  | .state x b => some { s with running := Function.update s.running x b }
  | .destroy x =>
    if s.alive x = true ∧ loggerDestroyGate s x = 0 then
      some { s with destroying := Function.update s.destroying x true }
    else none
  | .dispose x =>
    if s.destroying x then some { s with alive := Function.update s.alive x false } else none

/-- What the host promises: an instance is not destroyed while a call that may bind it is in
progress. -/
def HostSerialises (s : GlobalSys ι Λ) : GlobalAction ι Λ → GlobalSys ι Λ → Prop
  | .destroy x, _ => ∀ i, (s.pc i).binding ≠ some x
  | _, _ => True

/-- The states of the binding in the runs of a host that keeps its promise. -/
def GlobalReachable (s : GlobalSys ι Λ) : Prop :=
  TransitionSystem.Reachable globalNext HostSerialises (.init ι Λ) s

end CLogger
