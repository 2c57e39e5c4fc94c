import CLogger.Lib.BitWords
import CLogger.Lib.TransitionSystem
import CLogger.Syscall
import Mathlib.Data.Finset.Card

/-!
# The registry of internal descriptors

`logger_fork_fd.c` keeps a bitmap of the descriptors the library has open, so that the fork child
can close them. The bitmap is mapped with the first descriptor, grows by doubling and is unmapped
after the last one; every call runs under the resource lock, which a directory stream and a fork
hold across calls.

A call holds the lock from its entry to its exit, so that a run of the threads is a sequence of
whole calls, each enabled only while no other thread holds the lock. Between the calls the host
opens and closes descriptors of its own, and other code can poison the domain.

* `FdRegistry`: the bitmap with its storage, and the descriptor table of the process.
* `ForkDomain`: the registry with the lock and the thread-local variables.
* `forkCall`: one call; `forkNext`: one step of a run.
* `loggerForkFdChild`: the child handler of `pthread_atfork`.
-/

namespace CLogger

open BitWords

/-- What the library does to the descriptor table. -/
inductive FdEvent where
  | opened (fd : ℕ)
  | closed (fd : ℕ)
  deriving DecidableEq, Repr

/-- The effect of an event on the set of descriptors that the library has open. There is none for
an event that opens a descriptor twice or closes one that the library has not open. -/
def FdEvent.apply (live : Finset ℕ) : FdEvent → Option (Finset ℕ)
  | .opened fd => if fd ∈ live then none else some (insert fd live)
  | .closed fd => if fd ∈ live then some (live.erase fd) else none

/-- The descriptors open after a trace in which each is closed at most once. -/
def liveAfter (trace : List FdEvent) : Option (Finset ℕ) := trace.foldlM FdEvent.apply ∅

/-- The bitmap in the runtime domain, the memory it lies in, and the descriptors open in the
process. A mapping is its address. -/
structure FdRegistry where
  /-- `owned_fds`. -/
  owned : Option ℕ := none
  ownedBytes : ℕ := 0
  ownedCount : ℕ := 0
  /-- `resource_error`, an error number or `0`. -/
  gateError : ℤ := 0
  memory : ℕ → ℕ → BitVec 64 := fun _ _ => 0
  openFds : Finset ℕ := ∅
  /-- The open and close calls of the library; no code reads it. -/
  trace : List FdEvent := []
  /-- Whether an `munmap` has failed; no code reads it. -/
  munmapFailed : Bool := false

/-- What the calls inside one registry call answer; each of them is made at most once. -/
structure ForkReplies where
  /-- `logger_process_require`: `0` or a negated error number. -/
  require : ℤ := 0
  /-- Locking and unlocking the resource lock: `0` or an error number. -/
  lock : ℤ := 0
  unlock : ℤ := 0
  /-- What another thread has stored in `resource_error` while this one waited for the lock. -/
  raced : ℤ := 0
  /-- `open`, `openat` or `socket`, with the descriptor. -/
  opened : Answer := {}
  fd : ℕ := 0
  /-- `mmap` or `mremap`, with the address. -/
  mapped : Answer := {}
  address : ℕ := 0
  /-- `close` or `closedir`. -/
  closed : Answer := {}
  /-- `munmap`. -/
  unmapped : Answer := {}
  /-- `fdopendir`, with the address of the stream. -/
  stream : Answer := {}
  dir : ℕ := 0
  /-- `logger_process_is_child` and `logger_process_ready`. -/
  isChild : Bool := false
  ready : Bool := true
  /-- `logger_scope_busy`, `logger_global_scope_busy` or `logger_libc_busy`. -/
  busy : Bool := false
  /-- `logger_libc_fork_prepare`: `0` or an error number. -/
  libc : ℤ := 0

namespace FdRegistry

/-- The words at an address, none of them set where nothing is mapped. -/
def wordsAt (g : FdRegistry) : Option ℕ → ℕ → BitVec 64
  | some address => g.memory address
  | none => fun _ => 0

/-- The words of the bitmap. -/
def words (g : FdRegistry) : ℕ → BitVec 64 := g.wordsAt g.owned

/-- Store to the bitmap. -/
def setWords (g : FdRegistry) (words : ℕ → BitVec 64) : FdRegistry :=
  { g with memory := g.owned.elim g.memory fun address => Function.update g.memory address words }

/-- `logger_fork_resource_poison`. -/
def poison (g : FdRegistry) (error : ℤ) : FdRegistry := { g with gateError := error }

/-- The kernel closes a descriptor; it consumes the descriptor also when it reports an error. -/
def sysClose (g : FdRegistry) (fd : ℕ) : FdRegistry :=
  { g with openFds := g.openFds.erase fd, trace := g.trace ++ [.closed fd] }

/-- The kernel hands out a descriptor. -/
def sysOpen (g : FdRegistry) (fd : ℕ) : FdRegistry :=
  { g with openFds := insert fd g.openFds, trace := g.trace ++ [.opened fd] }

end FdRegistry

/-- The loop of `grow_for`; nothing on overflow. A `size_t` admits no more than 64 doublings. -/
def doubled (required : ℕ) : ℕ → ℕ → Option ℕ
  | 0, _ => none
  | fuel + 1, bytes =>
    if bytes < required then
      if bytes > sizeMax / 2 then none else doubled required fuel (bytes * 2)
    else some bytes

/-- The contents of the mapping after `mmap`, or after `mremap` has moved the old words. -/
def remapped (g : FdRegistry) (word : ℕ) : BitVec 64 :=
  if g.owned.isSome ∧ word < g.ownedBytes / 8 then g.words word else 0

/-- `grow_for`. -/
def growFor (r : ForkReplies) (fd : ℕ) (g : FdRegistry) : ℤ × FdRegistry :=
  let required := (fd / 64 + 1) * 8
  -- the bitmap is large enough already
  if required ≤ g.ownedBytes then (0, g)
  else
    match doubled required 65 (if g.ownedBytes ≠ 0 then g.ownedBytes else 4096) with
    | none => (eoverflow, g)
    | some bytes =>
      -- a failed mapping leaves the old one in place
      if !r.mapped.ok then (r.mapped.errno, g)
      else (0, { g with
        memory := Function.update g.memory r.address (remapped g)
        owned := some r.address
        ownedBytes := bytes })

/-- `is_owned`. -/
def isOwned (g : FdRegistry) (fd : ℤ) : Bool :=
  decide (0 ≤ fd) && decide (fd.toNat / 64 < g.ownedBytes / 8) && bitAt g.words fd.toNat

/-- `register_fd`. -/
def registerFd (r : ForkReplies) (fd : ℕ) (g : FdRegistry) : ℤ × FdRegistry :=
  let (rc, g) := growFor r fd g
  if rc ≠ 0 then (rc, g)
  -- the kernel returned a number that is still registered: the host closed it behind our back
  else if isOwned g fd then (euclean, g.poison euclean)
  else (0, { g.setWords (setBit g.words (fd / 64) (fd % 64)) with ownedCount := g.ownedCount + 1 })

/-- `unregister_fd`. -/
def unregisterFd (fd : ℕ) (g : FdRegistry) : FdRegistry :=
  { g.setWords (clearBit g.words fd) with ownedCount := g.ownedCount - 1 }

/-- `release_empty`. -/
def releaseEmpty (r : ForkReplies) (g : FdRegistry) : ℤ × FdRegistry :=
  if g.ownedCount ≠ 0 ∨ g.owned = none then (0, g)
  else if !r.unmapped.ok then
    (r.unmapped.errno, { g.poison r.unmapped.errno with munmapFailed := true })
  else (0, { g with owned := none, ownedBytes := 0 })

/-- The part of `acquired` under the lock: the error and the descriptor that is handed out. -/
def acquired (r : ForkReplies) (fd : ℤ) (g : FdRegistry) : ℤ × ℤ × FdRegistry :=
  if fd < 0 then (r.opened.errno, fd, g)
  else
    let (error, g) := registerFd r fd.toNat g
    -- the descriptor has not been handed out, so its close is not retried
    if error ≠ 0 then (error, -1, g.sysClose fd.toNat)
    else (0, fd, g)

/-- `open`, `openat` or `socket`. -/
def sysAcquire (r : ForkReplies) (g : FdRegistry) : ℤ × FdRegistry :=
  if r.opened.ok then (r.fd, g.sysOpen r.fd) else (-1, g)

/-- What `logger_fork_close` and `logger_fork_closedir` do with a descriptor that is owned: the
registration is consumed before the descriptor. -/
def consumeFd (r : ForkReplies) (fd : ℕ) (g : FdRegistry) : ℤ × FdRegistry :=
  let g := (unregisterFd fd g).sysClose fd
  let error := if r.closed.ok then 0 else r.closed.errno
  let (released, g) := releaseEmpty r g
  -- the error of the close comes before that of the unmapping
  (if error ≠ 0 then error else released, g)

/-- A directory stream: its address, and the descriptor `dirfd` returns. -/
structure DirStream where
  address : ℕ
  fd : ℕ
  deriving DecidableEq

/-- The thread-local variables. -/
structure ForkThread where
  inGate : Bool := false
  prepared : Bool := false
  prepareError : ℤ := 0
  snapshotFds : Option ℕ := none
  snapshotBytes : ℕ := 0
  forkDepth : ℕ := 0
  directoryLease : Option DirStream := none

/-- The state of the module. -/
structure ForkDomain (ι : Type) where
  registry : FdRegistry := {}
  /-- The thread that holds `resource_mu`. -/
  fdMu : Option ι := none
  threads : ι → ForkThread := fun _ => {}
  /-- The descriptors that calls have returned and no call has closed since; no code reads it. -/
  handed : Finset ℕ := ∅
  /-- What `handed` was at the last outermost prepare of each thread; no code reads it. -/
  atPrepare : ι → Finset ℕ := fun _ => ∅

variable {ι : Type} [DecidableEq ι]

namespace ForkDomain

/-- Assign thread-local variables. -/
def setThread (s : ForkDomain ι) (t : ι) (f : ForkThread → ForkThread) : ForkDomain ι :=
  { s with threads := Function.update s.threads t (f (s.threads t)) }

/-- Assign variables of the registry. -/
def setRegistry (s : ForkDomain ι) (g : FdRegistry) : ForkDomain ι := { s with registry := g }

/-- `logger_fork_resource_poison`. -/
def poison (s : ForkDomain ι) (error : ℤ) : ForkDomain ι := s.setRegistry (s.registry.poison error)

/-- The lock is taken; meanwhile another thread can have poisoned the domain. -/
def lock (s : ForkDomain ι) (t : ι) (raced : ℤ) : ForkDomain ι :=
  let s := { s with fdMu := some t }
  if raced ≠ 0 then s.poison raced else s

/-- The lock is released, or the failure to do so poisons the domain. -/
def unlock (s : ForkDomain ι) (t : ι) (error : ℤ) : ForkDomain ι :=
  let s := s.setThread t fun thread => { thread with inGate := false }
  if error ≠ 0 then s.poison error else { s with fdMu := none }

end ForkDomain

/-- `logger_fork_resource_enter`: an error number or `0`. It does not return while another thread
holds the lock. -/
def loggerForkResourceEnter (r : ForkReplies) (t : ι) (s : ForkDomain ι) :
    Option (ℤ × ForkDomain ι) :=
  if r.require ≠ 0 then some (-r.require, s)
  else if (s.threads t).inGate then some (edeadlk, s)
  else if s.registry.gateError ≠ 0 then some (s.registry.gateError, s)
  else if r.lock ≠ 0 then some (r.lock, s.poison r.lock)
  -- the model has no waiting: the call does not return in this state
  else if s.fdMu.isSome then none
  else
    let s := (s.lock t r.raced).setThread t fun thread => { thread with inGate := true }
    -- the word is read again under the lock, since it may have changed meanwhile
    let rc := s.registry.gateError
    some (rc, if rc ≠ 0 then s.unlock t r.unlock else s)

/-- `logger_fork_resource_leave`. -/
def loggerForkResourceLeave (r : ForkReplies) (t : ι) (error : ℤ) (s : ForkDomain ι) :
    ℤ × ForkDomain ι :=
  (if error ≠ 0 then error else r.unlock, s.unlock t r.unlock)

/-- What a call returns: an integer or a stream, and the error number it sets, `0` for none. -/
structure ForkReturn where
  value : ℤ := 0
  dir : Option ℕ := none
  errno : ℤ := 0

/-- The answer of a call that fails with an error number. -/
def ForkReturn.failed (error : ℤ) : ForkReturn := { value := -1, errno := error }

/-- The common body of the three calls that acquire a descriptor. -/
def forkAcquire (r : ForkReplies) (t : ι) (s : ForkDomain ι) :
    Option (ForkReturn × ForkDomain ι) := do
  let (error, s) ← loggerForkResourceEnter r t s
  if error ≠ 0 then some (.failed error, s)
  else
    let (fd, g) := sysAcquire r s.registry
    let (error, fd, g) := acquired r fd g
    let (error, s) := loggerForkResourceLeave r t error (s.setRegistry g)
    some ({ value := if error ≠ 0 then -1 else fd, errno := error }, s)

/-- `logger_fork_open`. -/
def loggerForkOpen (r : ForkReplies) (t : ι) (s : ForkDomain ι) := forkAcquire r t s

/-- `logger_fork_openat`. -/
def loggerForkOpenat (r : ForkReplies) (t : ι) (s : ForkDomain ι) := forkAcquire r t s

/-- `logger_fork_socket`. -/
def loggerForkSocket (r : ForkReplies) (t : ι) (s : ForkDomain ι) := forkAcquire r t s

/-- `logger_fork_close`. -/
def loggerForkClose (r : ForkReplies) (t : ι) (fd : ℤ) (s : ForkDomain ι) :
    Option (ForkReturn × ForkDomain ι) := do
  let (error, s) ← loggerForkResourceEnter r t s
  if error ≠ 0 then some (.failed error, s)
  else
    let (error, g) :=
      if !isOwned s.registry fd then (ebadf, s.registry) else consumeFd r fd.toNat s.registry
    let (error, s) := loggerForkResourceLeave r t error (s.setRegistry g)
    some (if error ≠ 0 then .failed error else {}, s)

/-- `logger_fork_fdopendir`; a stream keeps the lock until it is closed. -/
def loggerForkFdopendir (r : ForkReplies) (t : ι) (fd : ℤ) (s : ForkDomain ι) :
    Option (ForkReturn × ForkDomain ι) := do
  let (error, s) ← loggerForkResourceEnter r t s
  if error ≠ 0 then some (.failed error, s)
  -- a stream keeps `in_gate` and the lock, so a fork waits for its `closedir`
  else if isOwned s.registry fd ∧ r.stream.ok then
    some ({ dir := some r.dir },
      s.setThread t fun thread => { thread with directoryLease := some ⟨r.dir, fd.toNat⟩ })
  else
    let error := if !isOwned s.registry fd then ebadf else r.stream.errno
    let (error, s) := loggerForkResourceLeave r t error s
    some (.failed error, s)

/-- `logger_fork_closedir`; only the thread that opened the stream can close it. -/
def loggerForkClosedir (r : ForkReplies) (t : ι) (dir : ℕ) (s : ForkDomain ι) :
    ForkReturn × ForkDomain ι :=
  match (s.threads t).directoryLease with
  | none => (.failed einval, s)
  | some lease =>
    -- only the thread with the lease may consume it
    if lease.address ≠ dir ∨ !(s.threads t).inGate then (.failed einval, s)
    else
      let (error, g) :=
        if !isOwned s.registry lease.fd then (euclean, s.registry.poison euclean)
        else consumeFd r lease.fd s.registry
      let s := (s.setRegistry g).setThread t fun thread => { thread with directoryLease := none }
      let (error, s) := loggerForkResourceLeave r t error s
      (if error ≠ 0 then .failed error else {}, s)

/-- The thread-local variables at the start of an outermost prepare. -/
def ForkThread.restart (thread : ForkThread) (prepareError : ℤ) : ForkThread :=
  { thread with
    forkDepth := 1, prepared := false, prepareError, snapshotFds := none, snapshotBytes := 0 }

/-- `logger_fork_fd_prepare`; the first fork of a nest takes the lock and the snapshot. -/
def loggerForkFdPrepare (r : ForkReplies) (t : ι) (s : ForkDomain ι) : Option (ForkDomain ι) :=
  -- a nested fork counts, but keeps the snapshot of the outermost one
  if (s.threads t).forkDepth ≠ 0 then
    some (s.setThread t fun thread => { thread with forkDepth := thread.forkDepth + 1 })
  else if r.isChild ∨ !r.ready then some (s.setThread t (·.restart echild))
  else if (s.threads t).inGate ∨ r.busy then some (s.setThread t (·.restart edeadlk))
  else if s.registry.gateError ≠ 0 then some (s.setThread t (·.restart s.registry.gateError))
  else if r.libc ≠ 0 then some (s.setThread t (·.restart r.libc))
  else if r.lock ≠ 0 then some (s.setThread t (·.restart r.lock))
  else if s.fdMu.isSome then none
  else
    let s := s.lock t r.raced
    -- the word is read again under the lock
    some (s.setThread t fun thread =>
      { thread.restart s.registry.gateError with
        prepared := true
        inGate := true
        snapshotFds := s.registry.owned
        snapshotBytes := s.registry.ownedBytes })

/-- `logger_fork_fd_parent`. -/
def loggerForkFdParent (r : ForkReplies) (t : ι) (s : ForkDomain ι) : ForkDomain ι :=
  -- only the outermost handler gives the lock back
  if (s.threads t).forkDepth > 1 then
    s.setThread t fun thread => { thread with forkDepth := thread.forkDepth - 1 }
  else
    let s := if (s.threads t).prepared then s.unlock t r.unlock else s
    s.setThread t fun thread => { thread with prepared := false, forkDepth := 0 }

/-- The variables of the child handler: `child_valid`, `child_error`, the bitmap it has left and the
descriptors it has passed to `close`. -/
structure ChildHandler where
  valid : Bool
  error : ℤ
  bitmap : ℕ → BitVec 64
  closed : List ℕ := []

/-- One `close` of the child handler; the first error is kept. -/
def ChildHandler.close (closing : ℕ → Answer) (c : ChildHandler) (fd : ℕ) : ChildHandler :=
  { c with
    closed := c.closed ++ [fd]
    error := if !(closing fd).ok ∧ c.error = 0 then (closing fd).errno else c.error }

/-- The inner loop of the child handler over the bits of a word. -/
def childBits (closing : ℕ → Answer) (word : ℕ) : ℕ → BitVec 64 → ChildHandler → ChildHandler
  -- a word has at most 64 bits set, so this fuel never runs out
  | 0, _, c => c
  | fuel + 1, bits, c =>
    if bits = 0 then c
    else
      childBits closing word fuel (bits &&& (bits - 1))
        (c.close closing (word * 64 + bits.ctz.toNat))

/-- One word of the child handler; it is cleared before its descriptors are closed. -/
def childWord (closing : ℕ → Answer) (c : ChildHandler) (word : ℕ) : ChildHandler :=
  childBits closing word 64 (c.bitmap word) { c with bitmap := Function.update c.bitmap word 0 }

/-- `logger_fork_fd_child` in the child of a fork of thread `t`; `closing` answers its `close`
calls. -/
def loggerForkFdChild (closing : ℕ → Answer) (t : ι) (s : ForkDomain ι) : ChildHandler :=
  let thread := s.threads t
  let bitmap := s.registry.wordsAt thread.snapshotFds
  -- without a good snapshot of the outermost fork nothing is closed
  if thread.prepared ∧ thread.prepareError = 0 ∧ thread.forkDepth = 1 then
    (List.range (thread.snapshotBytes / 8)).foldl (childWord closing)
      { valid := true, error := 0, bitmap }
  else
    { valid := false, error := if thread.prepareError ≠ 0 then thread.prepareError else echild,
      bitmap }

/-- The calls of a thread. -/
inductive ForkCall where
  | open
  | openat
  | socket
  | close (fd : ℤ)
  | fdopendir (fd : ℤ)
  | closedir (dir : ℕ)
  | prepare
  | parent

/-- The calls that acquire a descriptor. -/
def ForkCall.acquires : ForkCall → Bool
  | .open | .openat | .socket => true
  | _ => false

/-- One call of a thread. -/
def forkCall (t : ι) (r : ForkReplies) (s : ForkDomain ι) :
    ForkCall → Option (ForkReturn × ForkDomain ι)
  | .open => loggerForkOpen r t s
  | .openat => loggerForkOpenat r t s
  | .socket => loggerForkSocket r t s
  | .close fd => loggerForkClose r t fd s
  | .fdopendir fd => loggerForkFdopendir r t fd s
  | .closedir dir => some (loggerForkClosedir r t dir s)
  | .prepare => (loggerForkFdPrepare r t s).map fun s => ({}, s)
  | .parent => some ({}, loggerForkFdParent r t s)

/-- The calling thread gets past the entry of a call. -/
def Admitted (r : ForkReplies) (t : ι) (s : ForkDomain ι) : Prop :=
  r.require = 0 ∧ (s.threads t).inGate = false ∧ s.registry.gateError = 0 ∧ r.raced = 0

instance (r : ForkReplies) (t : ι) (s : ForkDomain ι) : Decidable (Admitted r t s) :=
  inferInstanceAs (Decidable (_ ∧ _))

/-- The caller gives a descriptor up: with a `close` that gets past the entry, or with a `closedir`
of the stream that its thread has on the descriptor. -/
def ForkCall.Consumes (r : ForkReplies) (t : ι) (s : ForkDomain ι) (fd : ℕ) : ForkCall → Prop
  | .close n => Admitted r t s ∧ n = fd
  | .closedir dir => (s.threads t).directoryLease = some ⟨dir, fd⟩
  | _ => False

instance (r : ForkReplies) (t : ι) (s : ForkDomain ι) (fd : ℕ) (call : ForkCall) :
    Decidable (call.Consumes r t s fd) := by
  cases call <;> unfold ForkCall.Consumes <;> infer_instance

/-- The descriptors that callers have after a call: with the one it returns, and without the one
they have given up. -/
def handedAfter (r : ForkReplies) (t : ι) (s : ForkDomain ι) (call : ForkCall) (ret : ForkReturn) :
    Finset ℕ :=
  if call.acquires then
    -- an acquiring call that failed hands out nothing
    if 0 ≤ ret.value then insert ret.value.toNat s.handed else s.handed
  else s.handed.filter fun fd => ¬ call.Consumes r t s fd

/-- The set at a prepare that is not nested. -/
def preparedAfter (s : ForkDomain ι) (t : ι) : ForkCall → ι → Finset ℕ
  | .prepare =>
    if (s.threads t).forkDepth = 0 then Function.update s.atPrepare t s.handed else s.atPrepare
  | _ => s.atPrepare

/-- A call of a thread, the host using descriptors of its own, or other code that poisons the
domain. -/
inductive ForkAction (ι : Type) where
  | call (t : ι) (call : ForkCall) (r : ForkReplies)
  | hostOpen (fd : ℕ)
  | hostClose (fd : ℕ)
  | poison (error : ℤ)

/-- One step of a run. -/
def forkNext (s : ForkDomain ι) : ForkAction ι → Option (ForkDomain ι)
  | .call t call r => (forkCall t r s call).map fun (ret, s') =>
      { s' with handed := handedAfter r t s call ret, atPrepare := preparedAfter s t call }
  | .hostOpen fd =>
    if fd ∈ s.registry.openFds then none
    else some (s.setRegistry { s.registry with openFds := insert fd s.registry.openFds })
  | .hostClose fd =>
    if fd ∈ s.handed then none
    else some (s.setRegistry { s.registry with openFds := s.registry.openFds.erase fd })
  | .poison error => if error = 0 then none else some (s.poison error)

/-- The side condition on runs: the resource lock works, and the kernel returns descriptors that
are not open and fit an `int`. -/
def KernelStep (s : ForkDomain ι) : ForkAction ι → ForkDomain ι → Prop
  | .call _ call r, _ => r.lock = 0 ∧ r.unlock = 0 ∧
      (call.acquires → r.opened.ok → r.fd ∉ s.registry.openFds ∧ r.fd < 2 ^ 31)
  | _, _ => True

/-- The domain before the first call: the host has descriptors of its own. -/
def forkStart (ι : Type) (host : Finset ℕ) (memory : ℕ → ℕ → BitVec 64) : ForkDomain ι :=
  { registry := { openFds := host, memory } }

end CLogger
