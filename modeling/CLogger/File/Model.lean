import CLogger.File.Calendar
import CLogger.Syscall

/-!
# The rotating file backend

`logger_file.c` as programs over a disk: the write paths `loggerFileWrite` and `loggerFileWritev`
with the rotation they trigger, `loggerFileSync` and `loggerFileReopen`. Every system or C library
call is answered by an `Answer`, which may report any failure, short count, file type, link count
or clock reading. The disk itself behaves: a failed call changes nothing, except that a failed
`open` may have created the file, and `RENAME_NOREPLACE` refuses every existing name.

The descriptors in `struct logger_file` are the inodes they refer to. Return values are 0 or a
negated error number throughout, also for `logger_file_reopen`, which the source reports as -1
with `errno`.
-/

namespace CLogger

open TapeProgram

/-- `logger_rotate_mode_t`. -/
inductive RotateMode where
  | none | size | daily | sizeDaily | external
  deriving DecidableEq, Repr

/-- The part of `struct logger_file` that is fixed when the path is bound. -/
structure FileBinding where
  name : CString
  lockName : CString
  stem : CString
  ext : CString
  mode : RotateMode
  maxFileSize : ℕ
  retentionDays : ℕ
  managed : Bool
  iovMax : ℕ
  deriving DecidableEq, Repr

/-- The mutable part of `struct logger_file`, apart from the metrics. -/
structure LoggerFile where
  binding : FileBinding
  fd : Option ℕ
  lockFd : Option ℕ
  detached : Bool
  switchError : ℤ
  currentSize : ℕ
  currentDay : ℤ
  dirDirty : Bool
  device : ℕ
  inode : ℕ
  archiveTime : Timespec
  archiveTimeValid : Bool
  deriving DecidableEq, Repr

/-- `logger_file_metrics_t`, without the two fields that only the query fills in. -/
structure FileMetrics where
  writeOperations : UInt64
  failedWriteOperations : UInt64
  writeSyscalls : UInt64
  interruptedWriteSyscalls : UInt64
  failedWriteSyscalls : UInt64
  bytesWritten : UInt64
  dataSyncAttempts : UInt64
  dataSyncFailures : UInt64
  directorySyncAttempts : UInt64
  directorySyncFailures : UInt64
  rotationAttempts : UInt64
  rotationSuccesses : UInt64
  rotationFailures : UInt64
  reopenAttempts : UInt64
  reopenSuccesses : UInt64
  reopenFailures : UInt64
  retentionDeletions : UInt64
  lastError : ℤ
  lastWriteError : ℤ
  lastSyncError : ℤ
  lastRotationError : ℤ
  lastReopenError : ℤ
  deriving DecidableEq, Repr

/-- The metrics of a new file. -/
def FileMetrics.zero : FileMetrics :=
  ⟨0, 0, 0, 0, 0, 0, 0, 0, 0, 0, 0, 0, 0, 0, 0, 0, 0, 0, 0, 0, 0, 0⟩

/-- `struct stat`. -/
structure Stat where
  dev : ℕ
  ino : ℕ
  kind : FileKind
  nlink : ℕ
  size : ℤ
  mtime : ℤ
  deriving DecidableEq, Repr

/-- The directory the file is bound to: its entries and the content of the inodes. -/
structure Disk where
  dir : CString → Option ℕ
  data : ℕ → List UInt8
  /-- Inodes from here on are unused. -/
  nextIno : ℕ
  device : ℕ

/-- The C library's conversions: the minimal width of `%Y` and the local date of a second. -/
structure Libc where
  yearWidth : ℕ
  localtime : ℤ → Tm

/-- What has happened so far: the archives in order of creation with the times they were named
after, the bytes accepted from earlier calls, and how many bytes of the current call's buffer the
kernel has taken. -/
structure History where
  archives : List CString
  times : List Timespec
  past : List UInt8
  current : List UInt8
  taken : ℕ

/-- What the backend does to its directory, its files and its descriptor. -/
inductive FileEvent where
  /-- A `write` or `writev`, with the bytes the kernel took. -/
  | write (ino : ℕ) (bytes : List UInt8)
  | create (ino : ℕ)
  /-- The active entry is moved to an archive name. -/
  | rename (ino : ℕ) (name : CString)
  | unlink (name : CString)
  /-- An `fsync` of a file that succeeds. -/
  | fsync (ino : ℕ)
  /-- An `fsync` of the directory that succeeds. -/
  | fsyncDir
  /-- `install_fd` in place of an earlier descriptor. -/
  | install (old : Option ℕ) (new : ℕ)
  deriving DecidableEq, Repr

/-- The state of a program of the file backend. The trace is what has been done so far; no code
reads it. -/
structure FileWorld where
  disk : Disk
  file : LoggerFile
  metrics : FileMetrics
  history : History
  trace : List FileEvent := []

/-- Add an event to the trace. -/
def FileWorld.note (w : FileWorld) (e : FileEvent) : FileWorld := { w with trace := w.trace ++ [e] }

/-- Programs of the file backend. -/
abbrev FileProg (α : Type) := Prog FileWorld Answer α

/-- `LOGGER_ARCHIVE_ATTEMPTS`. -/
def loggerArchiveAttempts : ℕ := 1024

/-- `strrchr`: the position of the last occurrence of a character. -/
def strrchr (s : CString) (c : UInt8) : Option ℕ :=
  (s.reverse.findIdx? (· = c)).map fun i => s.length - 1 - i

/-- The stem and extension that `bind_path` derives from a base name: the extension starts at the
last dot, unless that is the first character or missing. -/
def splitName (base : CString) : CString × CString :=
  match strrchr base 46 with
  | some (i + 1) => (base.take (i + 1), base.drop (i + 1))
  | _ => (base, [])

/-! ## Disk -/

namespace Disk

/-- The content of a file, empty when there is none of that name. -/
def content (d : Disk) (name : CString) : List UInt8 :=
  match d.dir name with
  | none => []
  | some ino => d.data ino

/-- Append through a descriptor opened with `O_APPEND`. -/
def append (d : Disk) (ino : ℕ) (bytes : List UInt8) : Disk :=
  { d with data := Function.update d.data ino (d.data ino ++ bytes) }

/-- Create an empty file. -/
def create (d : Disk) (name : CString) : Disk :=
  { d with
    dir := Function.update d.dir name (some d.nextIno)
    data := Function.update d.data d.nextIno []
    nextIno := d.nextIno + 1 }

/-- Move an entry to a new name. -/
def rename (d : Disk) (old new : CString) : Disk :=
  { d with dir := Function.update (Function.update d.dir new (d.dir old)) old none }

/-- Remove an entry. -/
def unlink (d : Disk) (name : CString) : Disk :=
  { d with dir := Function.update d.dir name none }

/-- What `fstat` reports of an inode. -/
def stat (d : Disk) (ino : ℕ) (a : Answer) : Stat :=
  { dev := d.device, ino := ino, kind := a.kind, nlink := a.nlink
    size := (d.data ino).length, mtime := a.mtime }

end Disk

/-! ## Calls -/

/-- A call that has no effect on the disk: a clock, a conversion, `fsync`, `close`. -/
def call : FileProg Answer := Prog.ask fun w a => (a, w)

/-- `fstat`. -/
def fstat (fd : Option ℕ) : FileProg (Except ℤ Stat) := Prog.ask fun w a =>
  match fd with
  | none => (.error ebadf, w)
  | some ino => (if a.ok then .ok (w.disk.stat ino a) else .error a.errno, w)

/-- `fstatat` with `AT_SYMLINK_NOFOLLOW`. -/
def fstatat (name : CString) : FileProg (Except ℤ Stat) := Prog.ask fun w a =>
  match w.disk.dir name with
  | none => (.error (if a.ok then enoent else a.errno), w)
  | some ino => (if a.ok then .ok (w.disk.stat ino a) else .error a.errno, w)

/-- What `logger_fork_openat` of the active name for appending answers. When the descriptor cannot
be registered, the call fails after the file has been created. -/
def FileWorld.openAnswer (w : FileWorld) (create exclusive : Bool) (a : Answer) :
    Except ℤ ℕ × FileWorld :=
  match w.disk.dir w.file.binding.name with
  | some ino =>
    if !a.ok then (.error a.errno, w)
    else if exclusive then (.error eexist, w)
    else (.ok ino, w)
  | none =>
    if !create then (.error (if a.ok then enoent else a.errno), w)
    else
      let created : FileWorld := { w.note (.create w.disk.nextIno) with
        disk := w.disk.create w.file.binding.name }
      if a.ok then (.ok w.disk.nextIno, created)
      else if a.created then (.error a.errno, created)
      else (.error a.errno, w)

/-- `logger_fork_openat` of the active name for appending. -/
def openActive (create exclusive : Bool) : FileProg (Except ℤ ℕ) :=
  Prog.ask fun w a => w.openAnswer create exclusive a

/-- What `logger_file_rename_noreplace` of the active name answers, with its mapping of unsupported
calls. -/
def FileWorld.renameAnswer (w : FileWorld) (new : CString) (a : Answer) :
    Except ℤ Unit × FileWorld :=
  if !a.ok then
    (.error (if a.errno = enosys ∨ a.errno = einval then enotsup else a.errno), w)
  else
    match w.disk.dir w.file.binding.name, w.disk.dir new with
    | none, _ => (.error enoent, w)
    | some _, some _ => (.error eexist, w)
    | some ino, none =>
      (.ok (), { w.note (.rename ino new) with
        disk := w.disk.rename w.file.binding.name new
        history := { w.history with archives := w.history.archives ++ [new] } })

/-- `logger_file_rename_noreplace` of the active name. -/
def loggerFileRenameNoreplace (new : CString) : FileProg (Except ℤ Unit) :=
  Prog.ask fun w a => w.renameAnswer new a

/-- What `write` and `writev` answer: the kernel takes a first part of the bytes. -/
def FileWorld.writeAnswer (w : FileWorld) (fd : Option ℕ) (bytes : List UInt8) (a : Answer) :
    Except ℤ ℕ × FileWorld :=
  match fd with
  | none => (.error ebadf, w)
  | some ino =>
    if !a.ok then (.error a.errno, w.note (.write ino []))
    else
      (.ok (min a.count bytes.length), { w.note (.write ino (bytes.take a.count)) with
        disk := w.disk.append ino (bytes.take a.count)
        history := { w.history with taken := w.history.taken + min a.count bytes.length } })

/-- `write` and `writev`. -/
def writeCall (fd : Option ℕ) (bytes : List UInt8) : FileProg (Except ℤ ℕ) :=
  Prog.ask fun w a => w.writeAnswer fd bytes a

/-- What `unlinkat` answers. -/
def FileWorld.unlinkAnswer (w : FileWorld) (name : CString) (a : Answer) :
    Except ℤ Unit × FileWorld :=
  if !a.ok then (.error a.errno, w)
  else if (w.disk.dir name).isSome then
    (.ok (), { w.note (.unlink name) with disk := w.disk.unlink name })
  else (.error enoent, w)

/-- `unlinkat`. -/
def unlinkat (name : CString) : FileProg (Except ℤ Unit) :=
  Prog.ask fun w a => w.unlinkAnswer name a

/-- An update of the metrics. -/
def countMetrics (g : FileMetrics → FileMetrics) : FileProg Unit :=
  Prog.modify fun w => { w with metrics := g w.metrics }

/-- An assignment to fields of `struct logger_file`. -/
def setFile (g : LoggerFile → LoggerFile) : FileProg Unit :=
  Prog.modify fun w => { w with file := g w.file }

/-- The current `struct logger_file`. -/
def getFile : FileProg LoggerFile := do
  let w ← Prog.get
  return w.file

/-! ## Synchronisation -/

/-- `fsync` of a data descriptor. -/
def fsync (fd : Option ℕ) : FileProg Answer := Prog.ask fun w a =>
  match fd with
  | none => ({ a with ok := false, errno := ebadf, errno_pos := by decide }, w)
  | some ino => (a, if a.ok then w.note (.fsync ino) else w)

/-- `fsync` of the directory. -/
def fsyncDirectory : FileProg Answer :=
  Prog.ask fun w a => (a, if a.ok then w.note .fsyncDir else w)

/-- An `fsync`, repeated while it is interrupted; the error number when it fails. -/
def fsyncRetry (sync : FileProg Answer) : FileProg (Option ℤ) :=
  Prog.iterate (fun (_ : Unit) => do
    let a ← sync
    if a.ok then return .inr none
    else if a.errno = eintr then return .inl ()
    else return .inr (some (if a.errno = 0 then eio else a.errno))) ()

/-- `sync_data`. -/
def syncData (fd : Option ℕ) : FileProg ℤ := do
  countMetrics fun m => { m with dataSyncAttempts := m.dataSyncAttempts + 1 }
  match ← fsyncRetry (fsync fd) with
  | none => return 0
  | some error =>
    countMetrics fun m =>
      { m with dataSyncFailures := m.dataSyncFailures + 1, lastSyncError := error }
    return -error

/-- `sync_directory`. -/
def syncDirectory : FileProg ℤ := do
  countMetrics fun m => { m with directorySyncAttempts := m.directorySyncAttempts + 1 }
  match ← fsyncRetry fsyncDirectory with
  | none =>
    -- only a synchronisation that worked clears the mark
    setFile fun f => { f with dirDirty := false }
    return 0
  | some error =>
    countMetrics fun m =>
      { m with directorySyncFailures := m.directorySyncFailures + 1, lastSyncError := error }
    return -error

/-- The error a detached file reports, `-(f->switch_error ? f->switch_error : EIO)`. -/
def LoggerFile.detachedError (f : LoggerFile) : ℤ :=
  -(if f.switchError = 0 then eio else f.switchError)

/-- The directory part of `logger_file_sync` and `file_reopen_impl`. -/
def syncDirectoryIfDirty : FileProg ℤ := do
  let f ← getFile
  if f.dirDirty then syncDirectory else return 0

/-- `logger_file_sync`. -/
def loggerFileSync : FileProg ℤ := do
  let f ← getFile
  if f.fd = none then return -ebadf
  else
    let rc ← syncData f.fd
    -- the directory is left alone once the data could not be synchronised
    let rc ← (if rc = 0 then syncDirectoryIfDirty else pure rc)
    let f ← getFile
    -- a detached file stays in error even when both calls worked
    let rc : ℤ := if rc = 0 ∧ f.detached then f.detachedError else rc
    countMetrics fun m => { m with lastError := if rc < 0 then -rc else 0 }
    return rc

/-! ## Opening the active file -/

/-- `wall_day`: the local date of a second as a number. -/
def wallDay (libc : Libc) (sec : ℤ) : FileProg (Except ℤ ℤ) := do
  let a ← call
  if !a.ok then return .error (-(if a.errno = 0 then eoverflow else a.errno))
  else
    let t := libc.localtime sec
    if t.year < -1900 ∨ t.year > 8099 then return .error (-eoverflow)
    else return .ok ((t.year + 1900) * 10000 + (t.mon + 1) * 100 + t.mday)

/-- `regular_single_link`. -/
def regularSingleLink (st : Stat) : ℤ :=
  if st.kind ≠ .regular then -einval
  else if st.nlink ≠ 1 then -emlink
  else if st.size < 0 ∨ st.size > sizeMax then -eoverflow
  else 0

/-- `same_file`. -/
def sameFile (a b : Stat) : Bool := a.dev = b.dev ∧ a.ino = b.ino

/-- `check_named_fd`: the name still leads to the file of the descriptor. -/
def checkNamedFd (name : CString) (fd : Option ℕ) : FileProg (Except ℤ Stat) := do
  match ← fstat fd with
  | .error e => return .error (-e)
  | .ok st =>
    match ← fstatat name with
    | .error e => return .error (-e)
    | .ok named =>
      -- `fstatat` does not follow links, so a symbolic link shows itself here
      if named.kind = .symlink then return .error (-eloop)
      else if sameFile st named then return .ok st
      else return .error (-estale)

/-- `check_owner`: the lock file is still ours. -/
def checkOwner : FileProg ℤ := do
  let f ← getFile
  -- an unmanaged file has no lock file
  if !f.binding.managed then return 0
  else
    match ← checkNamedFd f.binding.lockName f.lockFd with
    | .error rc => return rc
    | .ok st => return regularSingleLink st

/-- `logger_fd_close_status`. -/
def loggerFdCloseStatus (fd : Option ℕ) : FileProg ℤ := do
  if fd = none then return 0
  else
    let a ← call
    return if a.ok then 0 else -a.errno

/-- `open_candidate`: open the active name for the caller to install. A candidate that fails its
checks is closed here. -/
def openCandidate (exclusive : Bool) : FileProg (Except ℤ (ℕ × Stat)) := do
  let rc ← checkOwner
  if rc ≠ 0 then return .error rc
  else
    let f ← getFile
    match ← openActive f.binding.managed exclusive with
    | .error e => return .error (-e)
    | .ok fd =>
      match ← checkNamedFd f.binding.name (some fd) with
      | .error rc =>
        let _ ← loggerFdCloseStatus (some fd)
        return .error rc
      | .ok st =>
        let rc : ℤ := if f.binding.managed then regularSingleLink st
          else if st.kind = .charDevice then 0 else -einval
        if rc ≠ 0 then
          let _ ← loggerFdCloseStatus (some fd)
          return .error rc
        else
          -- the mark is set although the caller may still give the candidate up
          setFile fun f => { f with dirDirty := f.dirDirty || f.binding.managed }
          return .ok (fd, st)

/-- `install_fd`. -/
def installFd (fd : ℕ) (st : Stat) (day : ℤ) : FileProg Unit :=
  Prog.modify fun w => { w.note (.install w.file.fd fd) with
    file := { w.file with
      fd := some fd
      device := st.dev
      inode := st.ino
      currentSize := if w.file.binding.managed then st.size.toNat else 0
      currentDay := day
      detached := false
      switchError := 0 } }

/-- `file_reopen_impl`. -/
def fileReopenImpl (libc : Libc) : FileProg ℤ := do
  let now ← call
  match ← wallDay libc now.time.sec with
  | .error rc => return rc
  | .ok day =>
    match ← openCandidate false with
    | .error rc => return rc
    | .ok (fd, st) =>
      let f ← getFile
      -- the old file is synchronised before anything of it is given up
      let rc ← (if f.binding.managed then syncData f.fd else pure 0)
      let rc ← (if rc = 0 then syncDirectoryIfDirty else pure rc)
      if rc ≠ 0 then
        let _ ← loggerFdCloseStatus (some fd)
        return rc
      else
        installFd fd st day
        -- the old descriptor is closed last, and its result is the result of the call
        loggerFdCloseStatus f.fd

/-- `logger_file_reopen`. -/
def loggerFileReopen (libc : Libc) : FileProg ℤ := do
  let f ← getFile
  if f.fd = none then return -ebadf
  else
    countMetrics fun m => { m with reopenAttempts := m.reopenAttempts + 1 }
    let rc ← fileReopenImpl libc
    if rc ≠ 0 then
      countMetrics fun m => { m with
        reopenFailures := m.reopenFailures + 1, lastReopenError := -rc, lastError := -rc }
      return rc
    else
      countMetrics fun m => { m with reopenSuccesses := m.reopenSuccesses + 1, lastError := 0 }
      return rc

/-! ## Rotation -/

/-- `internal_rotation`. -/
def FileBinding.internalRotation (b : FileBinding) : Bool :=
  b.mode = .size ∨ b.mode = .daily ∨ b.mode = .sizeDaily

/-- `check_active`: the active name still leads to the file this descriptor writes. -/
def checkActive : FileProg ℤ := do
  let rc ← checkOwner
  if rc ≠ 0 then return rc
  else
    let f ← getFile
    match ← checkNamedFd f.binding.name f.fd with
    | .error rc => return rc
    | .ok st =>
      -- the name and the descriptor agree, but not on the file this backend opened
      if st.dev ≠ f.device ∨ st.ino ≠ f.inode then return -estale
      else return regularSingleLink st

/-- `logger_libc_gmtime_r`, which may fail to get at the C library. -/
def loggerLibcGmtime (sec : ℤ) : FileProg (Option Tm) := do
  let a ← call
  return if a.ok then some (gmtime sec) else none

/-- `timestamp_valid`. -/
def timestampValid (t : Timespec) : FileProg Bool := do
  if t.nsec < 0 ∨ 1000000000 ≤ t.nsec then return false
  else
    match ← loggerLibcGmtime t.sec with
    | none => return false
    | some tm => return -1900 ≤ tm.year ∧ tm.year ≤ 8099

/-- The time one microsecond later, as `advance_microsecond` computes it; a 64-bit `time_t` does
not go past its maximum. -/
def Timespec.nextMicrosecond (t : Timespec) : Option Timespec :=
  if t.nsec < 999999000 then some { t with nsec := t.nsec + 1000 }
  else if t.sec = 2 ^ 63 - 1 then none
  else some ⟨t.sec + 1, 0⟩

/-- `advance_microsecond`. -/
def advanceMicrosecond (t : Timespec) : FileProg (Except ℤ Timespec) :=
  match t.nextMicrosecond with
  | none => return .error (-eoverflow)
  | some t => do
    if ← timestampValid t then return .ok t else return .error (-eoverflow)

/-- `LOGGER_FILENAME_MAX`. -/
def loggerFilenameMax : ℕ := 255

/-- `archive_name`. -/
def archiveName (libc : Libc) (t : Timespec) : FileProg (Except ℤ CString) := do
  let f ← getFile
  if !(← timestampValid t) then return .error (-eoverflow)
  else
    match ← loggerLibcGmtime t.sec with
    | none => return .error (-eoverflow)
    | some tm =>
      let a ← call
      let stamp := strftimeStamp libc.yearWidth tm
      -- the stamp has fixed width, so a year of five digits is refused here
      if !a.ok ∨ stamp.length ≠ 15 then return .error (-eoverflow)
      else
        let a ← call
        let name := archiveText f.binding.stem f.binding.ext stamp t.nsec
        if !a.ok then return .error (-(if a.errno = 0 then eilseq else a.errno))
        -- the name with its terminator has to fit the buffer
        else if loggerFilenameMax + 1 ≤ name.length then return .error (-enametoolong)
        else return .ok name

/-- The time `rotate_impl` starts with: the clock in whole microseconds, or the first microsecond
after the last archive when the clock has not passed it. -/
def archiveStart (now : Timespec) : FileProg (Except ℤ Timespec) := do
  let f ← getFile
  let t : Timespec := { now with nsec := now.nsec - now.nsec % 1000 }
  -- archive times strictly increase, whatever the clock says
  if f.archiveTimeValid ∧ (t.sec < f.archiveTime.sec ∨
      t.sec = f.archiveTime.sec ∧ t.nsec ≤ f.archiveTime.nsec) then
    advanceMicrosecond f.archiveTime
  else return .ok t

/-- The attempts of `rotate_impl` to move the active file to an unused archive name; the time
whose name was free. -/
def archiveRename (libc : Libc) : ℕ → Timespec → FileProg (Except ℤ Timespec)
  | 0, _ => return .error (-eexist)
  | n + 1, t => do
    match ← archiveName libc t with
    | .error rc => return .error rc
    | .ok name =>
      match ← loggerFileRenameNoreplace name with
      | .ok () => return .ok t
      | .error e =>
        -- only a name in use leads to another attempt
        if e ≠ eexist then return .error (-e)
        else
          match ← advanceMicrosecond t with
          | .error rc => return .error rc
          | .ok t' => archiveRename libc n t'

/-- The assignments of `rotate_impl` once the old file is an archive: nothing may be appended to
its descriptor any more. -/
def detach (t : Timespec) : FileProg Unit :=
  Prog.modify fun w => { w with
    file := { w.file with
      detached := true, switchError := eio, dirDirty := true
      archiveTime := t, archiveTimeValid := true }
    history := { w.history with times := w.history.times ++ [t] } }

/-- The error exit of `rotate_impl` after the rename. -/
def failSwitch (candidate : Option ℕ) (rc : ℤ) : FileProg ℤ := do
  -- the candidate is given up, and the file stays detached
  let _ ← loggerFdCloseStatus candidate
  setFile fun f => { f with switchError := -rc }
  return rc

/-- The character `archive_matches` expects at position `i` of the stamp. -/
def stampChar (i : ℕ) (c : UInt8) : Bool :=
  if i = 8 then c = 84
  else if i = 15 then c = 46
  else if i = 22 then c = 90
  else 48 ≤ c ∧ c ≤ 57

/-- `archive_matches`. -/
def FileBinding.archiveMatches (b : FileBinding) (name : CString) : Bool :=
  -- the text after the stem, its dot not counted
  let p := name.drop (b.stem.length + 1)
  name.length = b.stem.length + 24 + b.ext.length && name.take b.stem.length = b.stem &&
    name.getD b.stem.length 0 = 46 &&
    (List.range 23).all (fun i => stampChar i (p.getD i 0)) &&
    p.drop 23 = b.ext

/-- One entry of the directory scan in `retention`: go on, or leave with the result. -/
def retentionStep (now : ℤ) (changed : Bool) : FileProg (Bool ⊕ ℤ × Bool) := do
  let f ← getFile
  let a ← call
  match a.entry with
  | none => return .inr (if a.ok then 0 else -a.errno, changed)
  | some name =>
    if !f.binding.archiveMatches name then return .inl changed
    else
      match ← fstatat name with
      | .error e => return .inr (-e, changed)
      | .ok st =>
        -- the active file and anything that is not a plain file are passed over
        if st.kind ≠ .regular ∨ st.nlink ≠ 1 ∨ (st.dev = f.device ∧ st.ino = f.inode) then
          return .inl changed
        -- an archive that is exactly old enough is kept
        else if now - st.mtime ≤ f.binding.retentionDays * 86400 then return .inl changed
        else
          match ← unlinkat name with
          | .error e => return .inr (-e, changed)
          | .ok () =>
            countMetrics fun m => { m with retentionDeletions := m.retentionDeletions + 1 }
            return .inl true

/-- `retention`: delete archives that are too old. -/
def retention (now : ℤ) : FileProg ℤ := do
  let f ← getFile
  if f.binding.retentionDays = 0 then return 0
  else
    let dir ← call
    if !dir.ok then return -dir.errno
    else
      let scan ← call
      if !scan.ok then
        let _ ← call
        return -scan.errno
      else
        let (rc, changed) ← Prog.iterate (retentionStep now) false
        let closed ← call
        -- an earlier error is kept before that of `closedir`
        let rc : ℤ := if !closed.ok ∧ rc = 0 then -closed.errno else rc
        if changed then
          setFile fun f => { f with dirDirty := true }
          let synced ← syncDirectory
          return if rc = 0 then synced else rc
        else return rc

/-- The second half of `rotate_impl`: make the rename durable, create the new active file and
install it. -/
def switchActive (libc : Libc) (t : Timespec) : FileProg ℤ := do
  let rc ← syncDirectory
  if rc ≠ 0 then failSwitch none rc
  else
    -- the day of the new file is the day of the archive's time, not of the record
    match ← wallDay libc t.sec with
    | .error rc => failSwitch none rc
    | .ok day =>
      match ← openCandidate true with
      | .error rc => failSwitch none rc
      | .ok (fd, st) =>
        let rc ← syncData (some fd)
        if rc ≠ 0 then failSwitch (some fd) rc
        else
          let rc ← syncDirectory
          if rc ≠ 0 then failSwitch (some fd) rc
          else
            let f ← getFile
            installFd fd st day
            let rc ← loggerFdCloseStatus f.fd
            -- only a switch that is complete looks for old archives
            if rc ≠ 0 then return rc else retention t.sec

/-- `rotate_impl`. -/
def rotateImpl (libc : Libc) : FileProg ℤ := do
  let rc ← checkActive
  if rc ≠ 0 then return rc
  else
    let clock ← call
    if !clock.ok then return -clock.errno
    else if !(← timestampValid clock.time) then return -eoverflow
    else
      match ← archiveStart clock.time with
      | .error rc => return rc
      | .ok t =>
        -- everything accepted so far is durable before the name moves
        let rc ← loggerFileSync
        if rc ≠ 0 then return rc
        else
          match ← archiveRename libc loggerArchiveAttempts t with
          | .error rc => return rc
          | .ok t =>
            detach t
            switchActive libc t

/-- `rotate`. -/
def rotate (libc : Libc) : FileProg ℤ := do
  countMetrics fun m => { m with rotationAttempts := m.rotationAttempts + 1 }
  let rc ← rotateImpl libc
  if rc ≠ 0 then
    countMetrics fun m => { m with
      rotationFailures := m.rotationFailures + 1, lastRotationError := -rc, lastError := -rc }
    return rc
  else
    countMetrics fun m => { m with rotationSuccesses := m.rotationSuccesses + 1, lastError := 0 }
    return rc

/-! ## Writing -/

/-- The size condition of `prepare_write`. -/
def LoggerFile.sizeExceeded (f : LoggerFile) (n : ℕ) : Bool :=
  (f.binding.mode = .size ∨ f.binding.mode = .sizeDaily) ∧ f.binding.maxFileSize ≠ 0 ∧
    f.currentSize ≠ 0 ∧
    (f.currentSize ≥ f.binding.maxFileSize ∨ n > f.binding.maxFileSize - f.currentSize)

/-- `prepare_write`. The time of the record is absent for a null pointer. -/
def prepareWrite (libc : Libc) (n : ℕ) (t : Option Timespec) : FileProg ℤ := do
  let f ← getFile
  if f.fd = none then return -ebadf
  else
    match t with
    | none => return -einval
    | some t =>
      if t.nsec < 0 ∨ t.nsec ≥ 1000000000 ∨ n > ssizeMax then return -einval
      -- nothing is written behind a switch that has not finished
      else if f.detached then return f.detachedError
      -- an empty write never rotates
      else if !f.binding.internalRotation ∨ n = 0 then return 0
      else if f.binding.mode = .daily ∨ f.binding.mode = .sizeDaily then
        match ← wallDay libc t.sec with
        | .error rc => return rc
        | .ok d =>
          -- an empty file is not rotated for its day
          if f.sizeExceeded n ∨ (d ≠ f.currentDay ∧ f.currentSize ≠ 0) then rotate libc
          else return 0
      else if f.sizeExceeded n then rotate libc
      else return 0

/-- What the write loops do with one result of the kernel: retry after an interruption, fail, or
go on after the bytes taken. -/
def afterWrite {β : Type} (result : Except ℤ ℕ) (goOn : ℕ → β) (retry : β) (written : ℕ) :
    FileProg (β ⊕ ℤ × ℕ) :=
  match result with
  | .error e =>
    if e = eintr then do
      countMetrics fun m => { m with interruptedWriteSyscalls := m.interruptedWriteSyscalls + 1 }
      return .inl retry
    else do
      countMetrics fun m => { m with failedWriteSyscalls := m.failedWriteSyscalls + 1 }
      return .inr (-(if e = 0 then eio else e), written)
  | .ok 0 => do
    -- a write that takes nothing would not end the loop, so it is an error
    countMetrics fun m => { m with failedWriteSyscalls := m.failedWriteSyscalls + 1 }
    return .inr (-eio, written)
  | .ok (k + 1) => return .inl (goOn (k + 1))

/-- `all`: write the whole buffer; the result and the number of bytes written. -/
def all (fd : Option ℕ) (p : List UInt8) : FileProg (ℤ × ℕ) :=
  Prog.iterate (fun (p, written) => do
    if p = [] then return .inr (0, written)
    else
      countMetrics fun m => { m with writeSyscalls := m.writeSyscalls + 1 }
      let result ← writeCall fd p
      afterWrite result (fun k => (p.drop k, written + k)) (p, written) written) (p, 0)

/-- `vall`: write all vectors, at most `iov_max` of them in one call. The empty vectors that the
loop of the source steps over one by one are dropped together. -/
def vall (fd : Option ℕ) (iovMax : ℕ) (v : List (List UInt8)) : FileProg (ℤ × ℕ) :=
  Prog.iterate (fun (v, written) => do
    match v.dropWhile (·.isEmpty) with
    | [] => return .inr (0, written)
    | v :: vs =>
      countMetrics fun m => { m with writeSyscalls := m.writeSyscalls + 1 }
      let result ← writeCall fd ((v :: vs).take iovMax).flatten
      afterWrite result (fun k => (advanceVectors (v :: vs) k, written + k)) (v :: vs, written)
        written) (v, 0)

/-- `account`. -/
def account (written : ℕ) : FileProg Unit := do
  setFile fun f => { f with
    -- the size saturates, it never wraps
    currentSize := if sizeMax - f.currentSize < written then sizeMax
      else f.currentSize + written }
  countMetrics fun m => { m with
    bytesWritten := if 2 ^ 64 - 1 - m.bytesWritten.toNat < written then UInt64.ofNat (2 ^ 64 - 1)
      else m.bytesWritten + UInt64.ofNat written }

/-- The end of `logger_file_write` and `logger_file_writev` once `prepare_write` has returned
`rc`, `output` being the write loop. -/
def finishWrite (rc : ℤ) (output : FileProg (ℤ × ℕ)) (sync : Bool) : FileProg ℤ := do
  let (rc, written) ← (if rc = 0 then output else pure (rc, 0))
  -- the bytes taken before a failure count as well
  account written
  -- no synchronisation after a failed write
  let rc ← (if rc = 0 ∧ sync then loggerFileSync else pure rc)
  if rc ≠ 0 then
    countMetrics fun m => { m with
      failedWriteOperations := m.failedWriteOperations + 1, lastWriteError := -rc
      lastError := -rc }
    return rc
  else
    countMetrics fun m => { m with lastError := 0 }
    return rc

/-- A pointer to a number of bytes, or NULL: a `struct iovec`, or the arguments `p` and `n` of
`logger_file_write`. -/
structure Iovec where
  base : Option (List UInt8)
  len : ℕ
  /-- A pointer that is not NULL points to that many bytes. -/
  sized : ∀ bytes ∈ base, bytes.length = len

/-- A pointer to the bytes with their number. -/
def Iovec.ofBytes (bytes : List UInt8) : Iovec :=
  ⟨some bytes, bytes.length, fun _ h => congrArg List.length (Option.some.inj h).symm⟩

/-- The bytes behind the pointer. -/
def Iovec.bytes (v : Iovec) : List UInt8 := v.base.getD []

/-- `logger_file_write`. -/
def loggerFileWrite (libc : Libc) (p : Iovec) (t : Option Timespec) (sync : Bool) :
    FileProg ℤ := do
  -- a null pointer is good only for no bytes
  if p.base = none ∧ p.len ≠ 0 then return -einval
  else
    countMetrics fun m => { m with writeOperations := m.writeOperations + 1 }
    let rc ← prepareWrite libc p.len t
    let f ← getFile
    finishWrite rc (all f.fd p.bytes) sync

/-- The checks of the vectors in `logger_file_writev`: their total length, when all are good. -/
def totalLength : List Iovec → ℕ → Option ℕ
  | [], total => some total
  | v :: vs, total =>
    if v.base = none ∧ v.len ≠ 0 ∨ v.len > ssizeMax - total then none
    else totalLength vs (total + v.len)

/-- `logger_file_writev`. -/
def loggerFileWritev (libc : Libc) (v : List Iovec) (n : ℕ) (t : Option Timespec) (sync : Bool) :
    FileProg ℤ := do
  -- the caller's total has to be the sum of the vectors
  if totalLength v 0 ≠ some n then return -einval
  else
    countMetrics fun m => { m with writeOperations := m.writeOperations + 1 }
    let rc ← prepareWrite libc n t
    let f ← getFile
    finishWrite rc (vall f.fd f.binding.iovMax (v.map Iovec.bytes)) sync

/-! ## Runs -/

/-- A call of the file backend. -/
inductive FileOp where
  | write (p : Iovec) (t : Option Timespec) (sync : Bool)
  | writev (v : List Iovec) (n : ℕ) (t : Option Timespec) (sync : Bool)
  | sync
  | reopen

/-- The bytes the caller hands over. -/
def FileOp.bytes : FileOp → List UInt8
  | .write p _ _ => p.bytes
  | .writev v _ _ _ => (v.map Iovec.bytes).flatten
  | .sync => []
  | .reopen => []

/-- The program of a call. -/
def FileOp.run (libc : Libc) : FileOp → FileProg ℤ
  | .write p t synced => loggerFileWrite libc p t synced
  | .writev v n t synced => loggerFileWritev libc v n t synced
  | .sync => loggerFileSync
  | .reopen => loggerFileReopen libc

/-- The history at the start of a call with the given bytes. -/
def History.begin (h : History) (bytes : List UInt8) : History :=
  { h with past := h.past ++ h.current.take h.taken, current := bytes, taken := 0 }

/-- All bytes that the kernel has accepted, in order. -/
def History.accepted (h : History) : List UInt8 := h.past ++ h.current.take h.taken

/-- A call, entered in the history. -/
def FileOp.exec (libc : Libc) (op : FileOp) : FileProg ℤ := do
  Prog.modify fun w => { w with history := w.history.begin op.bytes }
  op.run libc

/-- A sequence of calls. -/
def runFileOps (libc : Libc) : List FileOp → FileProg Unit
  | [] => return ()
  | op :: ops => do
    let _ ← op.exec libc
    runFileOps libc ops

end CLogger
