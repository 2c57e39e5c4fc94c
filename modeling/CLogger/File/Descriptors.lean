import CLogger.File.Model
import CLogger.ForkFd.Correctness

/-!
# Reopening with descriptors

`logger_file_reopen` once more, with what the file backend's other model leaves out: the descriptors
by their numbers, who owns them, and the registry they are opened and closed through. A
`struct logger_owned_fd` is a number with the inode it refers to; a local one is closed at the end
of its scope, whatever it still owns by then.

The programs run on a pair, the world of the file backend and a `FdTable`, and every call is
answered by a pair. What does not touch a descriptor is the program of the file backend, by
`onFst`. The resource lock of the registry works (`LockedReplies`), and nobody holds it between
the calls.
-/

namespace CLogger

open TapeProgram

/-- The steps of `file_reopen_impl`. -/
inductive ReopenStep where
  | day | owner | open | identity | kind | dataSync | directorySync | close
  deriving DecidableEq, Repr

/-- The descriptors in `struct logger_file`, the registry, and the result of every step of
`file_reopen_impl` so far, which no code reads. -/
structure FdTable (ι : Type) where
  fd : ℤ
  lockFd : ℤ
  dirFd : ℤ
  domain : ForkDomain ι
  steps : List (ReopenStep × ℤ) := []

/-- The lock operations inside a registry call succeed. -/
structure ForkReplies.LocksWork (r : ForkReplies) : Prop where
  require : r.require = 0 := by rfl
  lock : r.lock = 0 := by rfl
  unlock : r.unlock = 0 := by rfl
  /-- No other thread poisons the domain meanwhile. -/
  raced : r.raced = 0 := by rfl

/-- The answers inside a registry call whose lock operations succeed. -/
abbrev LockedReplies := { r : ForkReplies // r.LocksWork }

/-- The file backend with its descriptors. -/
abbrev FdWorld (ι : Type) := FileWorld × FdTable ι

/-- Programs of the file backend with its descriptors. -/
abbrev FdProg (ι α : Type) := Prog (FdWorld ι) (Answer × LockedReplies) α

/-- `struct logger_owned_fd`: a descriptor, negative for none. -/
structure OwnedFd where
  value : ℤ := -1
  /-- The inode the descriptor refers to. -/
  ino : ℕ := 0

namespace FdLevel

variable {ι α : Type} [DecidableEq ι]

/-- An assignment to the descriptors. -/
def setTable (g : FdTable ι → FdTable ι) : FdProg ι Unit := Prog.modify fun s => (s.1, g s.2)

/-- Note the result of a step. -/
def record (step : ReopenStep) (rc : ℤ) : FdProg ι Unit :=
  setTable fun table => { table with steps := table.steps ++ [(step, rc)] }

/-- A step that is a program of the file backend. -/
def attempt (step : ReopenStep) (m : FileProg ℤ) : FdProg ι ℤ := do
  let rc ← m.onFst
  record step rc
  return rc

/-- `logger_fd_move`: what is moved and what is left. -/
def loggerFdMove (owner : OwnedFd) : OwnedFd × OwnedFd := (owner, {})

/-- One call of the registry, and the domain after it. The lock is free, so that the call does not
wait. -/
def registryCall (t : ι) (r : ForkReplies) (call : ForkCall) (domain : ForkDomain ι) :
    ForkReturn × ForkDomain ι :=
  match forkCall t r domain call with
  | none => (.failed edeadlk, domain)
  | some (ret, domain') =>
    (ret, { domain' with
      handed := handedAfter r t domain call ret, atPrepare := preparedAfter domain t call })

/-- What the kernel answers to `openat` of the active name: it fails where the flags do not allow
the name to exist, or not to exist, and hands out only numbers that are free and fit an `int`. -/
def kernelOpenat (w : FileWorld) (openFds : Finset ℕ) (create exclusive : Bool) (r : ForkReplies) :
    ForkReplies :=
  let present := (w.disk.dir w.file.binding.name).isSome
  { r with opened := { r.opened with
      ok := r.opened.ok && decide (r.fd ∉ openFds ∧ r.fd < 2 ^ 31) &&
        if present then !exclusive else create } }

/-- `logger_fork_openat` of the active name for appending. -/
def loggerForkOpenat (t : ι) (create exclusive : Bool) : FdProg ι (Except ℤ OwnedFd) :=
  Prog.ask fun s a =>
    let r := kernelOpenat s.1 s.2.domain.registry.openFds create exclusive a.2.val
    let result := registryCall t r .openat s.2.domain
    let opened := decide (0 ≤ result.1.value)
    let file := s.1.openAnswer create exclusive { ok := opened, created := r.opened.ok }
    (match file.1 with
      | .ok ino => .ok { value := result.1.value, ino }
      | .error _ => .error result.1.errno,
      file.2, { s.2 with domain := result.2 })

/-- `logger_fd_close_status`. -/
def loggerFdCloseStatus (t : ι) (owner : OwnedFd) : FdProg ι ℤ :=
  if owner.value < 0 then return 0
  else Prog.ask fun s a =>
    let result := registryCall t a.2.val (.close owner.value) s.2.domain
    (if result.1.value < 0 then -result.1.errno else 0, s.1, { s.2 with domain := result.2 })

/-- A local owner with `LOGGER_CLEANUP(logger_fd_cleanup)`: `body` is its scope, and returns what
the owner has at its end. -/
def withCleanup (t : ι) (owner : OwnedFd) (body : OwnedFd → FdProg ι (α × OwnedFd)) :
    FdProg ι α := do
  let (a, owner) ← body owner
  let _ ← loggerFdCloseStatus t owner
  return a

/-- `open_candidate`. -/
def openCandidate (t : ι) (exclusive : Bool) : FdProg ι (Except ℤ (OwnedFd × Stat)) := do
  let rc ← attempt .owner checkOwner
  if rc ≠ 0 then return .error rc
  else
    let f ← getFile.onFst
    match ← loggerForkOpenat t f.binding.managed exclusive with
    | .error e =>
      record .open (-e)
      return .error (-e)
    | .ok candidate =>
      record .open 0
      withCleanup t candidate fun fd => do
        match ← (checkNamedFd f.binding.name (some fd.ino)).onFst with
        | .error rc =>
          record .identity rc
          return (.error rc, fd)
        | .ok st =>
          record .identity 0
          let rc : ℤ := if f.binding.managed then regularSingleLink st
            else if st.kind = .charDevice then 0 else -einval
          record .kind rc
          if rc ≠ 0 then return (.error rc, fd)
          else
            let (out, fd) := loggerFdMove fd
            (setFile fun f => { f with dirDirty := f.dirDirty || f.binding.managed }).onFst
            return (.ok (out, st), fd)

/-- `logger_fd_move(&f->fd)`: the descriptor leaves the long-lived field. -/
def retire : FdProg ι OwnedFd := do
  let s ← Prog.get
  let (retiring, fd) := loggerFdMove { value := s.2.fd, ino := s.1.file.fd.getD 0 }
  setTable fun table => { table with fd := fd.value }
  return retiring

/-- `install_fd`: the long-lived field takes over the candidate. -/
def installFd (candidate : OwnedFd) (st : Stat) (day : ℤ) : FdProg ι OwnedFd := do
  let (fd, candidate) := loggerFdMove candidate
  setTable fun table => { table with fd := fd.value }
  (CLogger.installFd fd.ino st day).onFst
  return candidate

/-- `file_reopen_impl`, with 0 or a negated error number for its result and `errno`. -/
def fileReopenImpl (libc : Libc) (t : ι) : FdProg ι ℤ := do
  setTable fun table => { table with steps := [] }
  withCleanup t {} fun candidate => do
    let now ← call.onFst
    match ← (wallDay libc now.time.sec).onFst with
    | .error rc =>
      record .day rc
      return (rc, candidate)
    | .ok day =>
      record .day 0
      match ← openCandidate t false with
      | .error rc => return (rc, candidate)
      | .ok (candidate, st) =>
        let f ← getFile.onFst
        let rc ← (if f.binding.managed then attempt .dataSync (syncData f.fd) else pure 0)
        let rc ← (if rc = 0 then attempt .directorySync syncDirectoryIfDirty else pure rc)
        if rc ≠ 0 then return (rc, candidate)
        else
          let retiring ← retire
          let candidate ← installFd candidate st day
          let closeRc ← loggerFdCloseStatus t retiring
          record .close closeRc
          return (closeRc, candidate)

/-- `logger_file_reopen`. -/
def loggerFileReopen (libc : Libc) (t : ι) : FdProg ι ForkReturn := do
  let s ← Prog.get
  if s.2.fd < 0 then return .failed ebadf
  else
    (countMetrics fun m => { m with reopenAttempts := m.reopenAttempts + 1 }).onFst
    let rc ← fileReopenImpl libc t
    if rc ≠ 0 then
      (countMetrics fun m => { m with
        reopenFailures := m.reopenFailures + 1, lastReopenError := -rc, lastError := -rc }).onFst
      return .failed (-rc)
    else
      (countMetrics fun m => { m with
        reopenSuccesses := m.reopenSuccesses + 1, lastError := 0 }).onFst
      return {}

end FdLevel

end CLogger
