import CLogger.Errno
import CLogger.Lib.RelyGuarantee

/-!
# Process initialisation

`logger_process.c` builds the runtime domain of the process once. The ticket `process_ticket` is
idle, starting, ready, or the positive error of the last attempt; whoever moves it to starting owns
the attempt, creates a domain (`logger_runtime.c`), registers the fork handlers once, and publishes
the domain before the ticket.

Every access to a shared variable and every pthread or kernel call is one operation, with any
outcome the call can have. The process is not a fork child: `getpid` answers one number `pid`, and
no fork handler runs. The branches for a child are in the model with any outcome of what they call.

* `ProcessState`: the variables, with the history of attempts, publications and returns.
* `initializeProcess`, `loggerProcessRequire`: the two calls.
-/

namespace CLogger

open Concurrent

/-- `PROCESS_IDLE`, `PROCESS_STARTING` and `PROCESS_READY`. -/
def processIdle : ℤ := 0
def processStarting : ℤ := -1
def processReady : ℤ := -2

/-- What has happened so far; no code reads it. -/
structure ProcessHistory (ι : Type) where
  /-- The thread between its compare-and-swap to starting and its final ticket. -/
  owner : Option ι := none
  /-- The thread whose attempt succeeded, until its call returns. -/
  winner : Option ι := none
  /-- The error of every finished attempt, `0` for one that succeeded. -/
  attempts : List ℤ := []
  /-- The domains passed to `logger_runtime_publish`. -/
  published : List ℕ := []
  /-- The successful calls of `pthread_atfork`. -/
  registrations : ℕ := 0
  /-- What the calls of `logger_process_init` returned. -/
  inits : List ℤ := []
  /-- What the calls of `logger_process_require` returned. -/
  requires : List ℤ := []

/-- The variables of `logger_process.c` and `logger_runtime.c`; a domain is its address. -/
structure ProcessState (ι : Type) where
  ownerPid : ℤ := 0
  forkedChild : Bool := false
  processTicket : ℤ := processIdle
  /-- The thread-local flag of every thread. -/
  initializing : ι → Bool := fun _ => false
  handlersRegistered : Bool := false
  current : Option ℕ := none
  retainedBootstrap : Option ℕ := none
  history : ProcessHistory ι := {}

/-- The outcome of a pthread or kernel call. -/
structure ProcessReply where
  ok : Bool := true
  errno : ℤ := enomem
  errno_pos : 0 < errno := by exact enomem_pos
  /-- The address `mmap` returns. -/
  address : ℕ := 0

/-- The error number a call returns, `0` for success. -/
def ProcessReply.error (reply : ProcessReply) : ℤ := if reply.ok then 0 else reply.errno

theorem ProcessReply.error_nonneg (reply : ProcessReply) : 0 ≤ reply.error := by
  unfold ProcessReply.error
  have hpos := reply.errno_pos
  split <;> omega

/-- Where a thread stands: in the section of an attempt, or anywhere else. -/
inductive ProcessLabel where
  | starting | elsewhere
  deriving DecidableEq, Repr

variable {ι : Type} [DecidableEq ι]

/-- Programs of the threads that use `logger_process.c`. -/
abbrev ProcessCode (ι : Type) := Code (ProcessState ι) ProcessReply ProcessLabel

namespace ProcessCode

/-- Read a shared variable. -/
def load {α : Type} (label : ProcessLabel) (field : ProcessState ι → α) : ProcessCode ι α :=
  Code.atomic label fun s _ => some (field s, s)

/-- Write shared variables, or the history. -/
def store (label : ProcessLabel) (set : ProcessState ι → ProcessState ι) : ProcessCode ι Unit :=
  Code.atomic label fun s _ => some ((), set s)

/-- A pthread or kernel call that touches none of the variables. -/
def external (label : ProcessLabel) : ProcessCode ι ProcessReply :=
  Code.atomic label fun s reply => some (reply, s)

end ProcessCode

open ProcessCode

section Runtime

/-- `struct logger_runtime` before it is published: its mapping and its `initialized` count. -/
structure RuntimeCandidate where
  address : ℕ
  initialized : ℕ

/-- The destroy calls of `logger_runtime_discard`, from the last initialised object down. -/
def destroyObjects : ℕ → ProcessCode ι ℤ
  | 0 => pure 0
  | initialized + 1 => do
    let reply ← external .starting
    if reply.error ≠ 0 then pure reply.error else destroyObjects initialized

/-- `logger_runtime_discard`; a candidate that cannot be destroyed is retained. -/
def loggerRuntimeDiscard : Option RuntimeCandidate → ProcessCode ι ℤ
  | none => pure 0
  | some runtime => do
    let rc ← destroyObjects runtime.initialized
    -- the mapping is returned only when every object could be destroyed
    let rc ← (if rc = 0 then do
        let reply ← external .starting
        pure reply.error
      else pure rc)
    if rc ≠ 0 then do
      -- kept for good: a later create refuses to run
      store .starting fun s => { s with retainedBootstrap := some runtime.address }
      pure (-rc)
    else pure 0

/-- The five init calls of `logger_runtime_create`: the first error, and how many succeeded. -/
def initObjects : ℕ → ℕ → ProcessCode ι (ℤ × ℕ)
  | 0, initialized => pure (0, initialized)
  | left + 1, initialized => do
    let reply ← external .starting
    if reply.error ≠ 0 then pure (reply.error, initialized)
    else initObjects left (initialized + 1)

/-- `logger_runtime_create`: a negated error, or `0` with a candidate. -/
def loggerRuntimeCreate : ProcessCode ι (ℤ × Option RuntimeCandidate) := do
  let retained ← load .starting ProcessState.retainedBootstrap
  if retained.isSome then pure (-euclean, none)
  else do
    let map ← external .starting
    if map.error ≠ 0 then pure (-map.error, none)
    else do
      let advice ← external .starting
      -- five objects, and none once `madvise` has failed
      let result ← (if advice.error ≠ 0 then pure (advice.error, 0) else initObjects 5 0)
      let runtime : RuntimeCandidate := ⟨map.address, result.2⟩
      if result.1 ≠ 0 then do
        let _ ← loggerRuntimeDiscard (some runtime)
        pure (-result.1, none)
      else pure (0, some runtime)

/-- `logger_runtime_publish`. -/
def loggerRuntimePublish (runtime : Option RuntimeCandidate) : ProcessCode ι Unit :=
  store .starting fun s =>
    { s with
      current := runtime.map RuntimeCandidate.address
      history := { s.history with
        published := s.history.published ++ (runtime.map RuntimeCandidate.address).toList } }

end Runtime

section Calls

variable (pid : ℤ)

/-- `logger_process_is_child`. -/
def loggerProcessIsChild : ProcessCode ι Bool := do
  let forked ← load .elsewhere ProcessState.forkedChild
  if forked then pure true
  else do
    let owner ← load .elsewhere ProcessState.ownerPid
    -- an owner that is another process means this one is a copy of it
    pure (owner ≠ 0 ∧ owner ≠ pid)

/-- `claim_process`; the compare-and-swap leaves the old value in `expected`. -/
def claimProcess : ProcessCode ι ℤ := do
  let child ← loggerProcessIsChild pid
  if child then pure (-echild)
  else do
    let expected ← Code.atomic .elsewhere fun (s : ProcessState ι) _ =>
      some (s.ownerPid, { s with ownerPid := if s.ownerPid = 0 then pid else s.ownerPid })
    -- another process has the claim
    pure (if expected ≠ 0 ∧ expected ≠ pid then -echild else 0)

/-- The compare-and-swap of `process_ticket` to starting: the value found, and whether it was
`ticket`. -/
def startAttempt (t : ι) (ticket : ℤ) : ProcessCode ι (ℤ × Bool) :=
  Code.atomic .elsewhere fun s _ =>
    if s.processTicket = ticket then
      some ((ticket, true), { s with
        processTicket := processStarting, history := { s.history with owner := some t } })
    else some ((s.processTicket, false), s)

/-- Registering the fork handlers, once in a process. -/
def registerHandlers : ProcessCode ι ℤ := do
  let registered ← load .starting ProcessState.handlersRegistered
  if registered then pure 0
  else do
    -- the count is of registrations that the C library accepted
    let error ← Code.atomic .starting fun (s : ProcessState ι) (reply : ProcessReply) =>
      some (reply.error, if reply.error = 0 then
        { s with history := { s.history with registrations := s.history.registrations + 1 } }
        else s)
    if error = 0 then do
      store .starting fun s => { s with handlersRegistered := true }
      pure 0
    else pure error

/-- The section of `initialize_process` that the owner of the starting ticket runs: its error. -/
def runAttempt (t : ι) (child : Bool) : ProcessCode ι ℤ := do
  store .starting fun s => { s with initializing := Function.update s.initializing t true }
  let result ← (if child then do
      let reply ← external .starting
      pure (-reply.error)
    else pure 0)
  -- a child whose fork domain could not be set up again creates nothing
  let created ← (if result = 0 then loggerRuntimeCreate else pure (result, none))
  let error : ℤ := if created.1 < 0 then -created.1 else 0
  let error ← (if error = 0 then registerHandlers else pure error)
  if error ≠ 0 then do
    let _ ← loggerRuntimeDiscard created.2
    pure error
  else do
    -- the order of the source: the runtime first, then who owns it, then the child mark
    loggerRuntimePublish created.2
    store .starting fun s => { s with ownerPid := pid }
    store .starting fun s => { s with forkedChild := false }
    pure 0

/-- The final ticket of an attempt. -/
def finishAttempt (t : ι) (error : ℤ) : ProcessCode ι Unit :=
  store .starting fun s =>
    { s with
      -- the next thread may claim the ticket only now
      processTicket := if error ≠ 0 then error else processReady
      history := { s.history with
        owner := none
        winner := if error ≠ 0 then s.history.winner else some t
        attempts := s.history.attempts ++ [error] } }

/-- `initialize_process`. -/
def initializeProcess (t : ι) : ProcessCode ι ℤ := do
  let child ← loggerProcessIsChild pid
  let refused ← (if child then do
      let forked ← load .elsewhere ProcessState.forkedChild
      let valid ← external .elsewhere
      pure (!forked || !valid.ok)
    else pure false)
  if refused then pure (-echild)
  else do
    let rc ← (if child then pure 0 else claimProcess pid)
    if rc ≠ 0 then pure rc
    else do
      let initializing ← load .elsewhere fun s => s.initializing t
      if initializing then pure (-edeadlk)
      else do
        let ticket ← load .elsewhere ProcessState.processTicket
        -- the child of a fork starts again although its copy of the ticket says ready
        if ¬ child ∧ ticket = processReady then pure (-ealready)
        else if ticket = processStarting then pure (-eagain)
        else do
          let cancel ← external .elsewhere
          if cancel.error ≠ 0 then pure (-cancel.error)
          else do
            let claim ← startAttempt t ticket
            let rc ← (if claim.2 then do
                let error ← runAttempt pid t child
                finishAttempt t error
                store .elsewhere fun s =>
                  { s with initializing := Function.update s.initializing t false }
                pure (-error)
              -- the ticket moved between the read and the claim
              else pure (if claim.1 = processReady then -ealready else -eagain))
            let restore ← external .elsewhere
            pure (if rc ≠ 0 then rc else -restore.error)

/-- `logger_process_require`. -/
def loggerProcessRequire (t : ι) : ProcessCode ι ℤ := do
  let child ← loggerProcessIsChild pid
  if child then pure (-echild)
  else do
    let initializing ← load .elsewhere fun s => s.initializing t
    if initializing then pure (-edeadlk)
    else do
      let ticket ← load .elsewhere ProcessState.processTicket
      pure (if ticket = processReady then 0
        else if ticket = processStarting then -eagain
        else if 0 < ticket then -ticket else -enodev)

/-- The calls of the threads. -/
inductive ProcessCall where
  | init | require
  deriving DecidableEq, Repr

/-- A call, and what it returned. -/
def processApi (t : ι) : ProcessCall → ProcessCode ι Unit
  | .init => do
    let rc ← initializeProcess pid t
    store .elsewhere fun s =>
      { s with history := { s.history with
          winner := if s.history.winner = some t then none else s.history.winner
          inits := s.history.inits ++ [rc] } }
  | .require => do
    let rc ← loggerProcessRequire pid t
    store .elsewhere fun s =>
      { s with history := { s.history with requires := s.history.requires ++ [rc] } }

/-- No call has been made. -/
def processStart : System (ProcessState ι) ProcessReply ProcessLabel ι :=
  { shared := {}, code := fun _ => .ret () }

end Calls

end CLogger
