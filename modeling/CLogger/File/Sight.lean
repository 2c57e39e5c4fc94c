import CLogger.File.Model

/-!
# What the file backend reads

The metrics, the history and the trace are only written: a call of the file backend does the same
from any two worlds with the same disk and the same `struct logger_file`.
-/

namespace CLogger

open TapeProgram

/-- The part of the world that the file backend reads. -/
def FileWorld.sight (w : FileWorld) : Disk × LoggerFile := (w.disk, w.file)

section

variable {libc : Libc} {w w' : FileWorld}

/-- Two states with one sight have the same disk. -/
theorem FileWorld.disk_of_sight (h : w.sight = w'.sight) : w.disk = w'.disk := congrArg Prod.fst h

/-- And they have the same fields of the file. -/
theorem FileWorld.file_of_sight (h : w.sight = w'.sight) : w.file = w'.file := congrArg Prod.snd h

/-- A call that reads the disk and the file, and leaves the world alone. -/
theorem sees_query {α : Type} {call : FileWorld → Answer → α × FileWorld}
    (hstate : ∀ w a, (call w a).2.sight = w.sight)
    (hresult : ∀ w w' a, w.sight = w'.sight → (call w a).1 = (call w' a).1) :
    Sees FileWorld.sight (Prog.ask call) :=
  Sees.ask fun w w' a h =>
    ⟨hresult w w' a h, ((hstate w a).trans h).trans (hstate w' a).symm⟩

/-- The environment answers without a look at the state. -/
theorem call_sees : Sees FileWorld.sight call := sees_query (fun _ _ => rfl) fun _ _ _ _ => rfl

/-- The fields of the file are in sight. -/
theorem getFile_sees : Sees FileWorld.sight getFile :=
  Sees.read fun _ _ => FileWorld.file_of_sight

/-- The metrics are out of sight, and nothing reads them. -/
theorem countMetrics_sees (g : FileMetrics → FileMetrics) :
    Sees FileWorld.sight (countMetrics g) := Sees.modify fun _ _ h => h

/-- A change of the fields depends on the fields. -/
theorem setFile_sees (g : LoggerFile → LoggerFile) : Sees FileWorld.sight (setFile g) :=
  Sees.modify fun _ _ h =>
    Prod.ext (FileWorld.disk_of_sight h) (congrArg g (FileWorld.file_of_sight h))

/-- `fstat` reads the inode behind the descriptor. -/
theorem fstat_sees (fd : Option ℕ) : Sees FileWorld.sight (fstat fd) := by
  cases fd with
  | none => exact sees_query (fun _ _ => rfl) fun _ _ _ _ => rfl
  | some ino =>
    refine sees_query (fun _ _ => rfl) fun w w' a h => ?_
    dsimp only
    rw [FileWorld.disk_of_sight h]

/-- `fstatat` reads the directory. -/
theorem fstatat_sees (name : CString) : Sees FileWorld.sight (fstatat name) := by
  refine sees_query (fun w a => ?_) fun w w' a h => ?_
  · cases w.disk.dir name <;> rfl
  · rw [FileWorld.disk_of_sight h]
    cases w'.disk.dir name <;> rfl

/-- `openat` reads the directory, creates the entry or fails. -/
theorem openActive_sees (create exclusive : Bool) :
    Sees FileWorld.sight (openActive create exclusive) := by
  refine Sees.ask fun w w' a h => ?_
  obtain ⟨hdisk, hfile⟩ := Prod.mk.inj h
  unfold FileWorld.openAnswer
  rw [hdisk, hfile]
  cases w'.disk.dir w'.file.binding.name with
  | none =>
    have hcreated : ∀ d, ({ w with disk := d }).sight = ({ w' with disk := d }).sight :=
      fun d => Prod.ext rfl hfile
    cases create <;> cases a.ok <;> cases a.created <;>
      exact ⟨rfl, by first | exact h | exact hcreated _⟩
  | some ino => cases a.ok <;> cases exclusive <;> exact ⟨rfl, h⟩

/-- The rename reads both entries, and fails if the new one is taken. -/
theorem loggerFileRenameNoreplace_sees (new : CString) :
    Sees FileWorld.sight (loggerFileRenameNoreplace new) := by
  refine Sees.ask fun w w' a h => ?_
  obtain ⟨hdisk, hfile⟩ := Prod.mk.inj h
  unfold FileWorld.renameAnswer
  rw [hdisk, hfile]
  cases a.ok with
  | false => exact ⟨rfl, h⟩
  | true =>
    cases w'.disk.dir w'.file.binding.name with
    | none => exact ⟨rfl, h⟩
    | some ino =>
      cases w'.disk.dir new with
      | none => exact ⟨rfl, Prod.ext rfl hfile⟩
      | some other => exact ⟨rfl, h⟩

/-- A write appends to the inode behind the descriptor. -/
theorem writeCall_sees (fd : Option ℕ) (bytes : List UInt8) :
    Sees FileWorld.sight (writeCall fd bytes) := by
  refine Sees.ask fun w w' a h => ?_
  cases fd with
  | none => exact ⟨rfl, h⟩
  | some ino =>
    unfold FileWorld.writeAnswer
    cases a.ok with
    | false => exact ⟨rfl, h⟩
    | true =>
      obtain ⟨hdisk, hfile⟩ := Prod.mk.inj h
      exact ⟨rfl, Prod.ext (congrArg (Disk.append · ino _) hdisk) hfile⟩

/-- `unlinkat` removes an entry. -/
theorem unlinkat_sees (name : CString) : Sees FileWorld.sight (unlinkat name) := by
  refine Sees.ask fun w w' a h => ?_
  obtain ⟨hdisk, hfile⟩ := Prod.mk.inj h
  unfold FileWorld.unlinkAnswer
  rw [hdisk]
  cases a.ok with
  | false => exact ⟨rfl, h⟩
  | true =>
    cases (w'.disk.dir name).isSome with
    | false => exact ⟨rfl, h⟩
    | true => exact ⟨rfl, Prod.ext rfl hfile⟩

/-- The event that `fsync` leaves is out of sight. -/
theorem fsync_sees (fd : Option ℕ) : Sees FileWorld.sight (fsync fd) := by
  cases fd with
  | none => exact sees_query (fun _ _ => rfl) fun _ _ _ _ => rfl
  | some ino =>
    refine sees_query (fun w a => ?_) fun _ _ _ _ => rfl
    dsimp only
    cases a.ok <;> rfl

/-- So is that of the directory. -/
theorem fsyncDirectory_sees : Sees FileWorld.sight fsyncDirectory := by
  refine sees_query (fun w a => ?_) fun _ _ _ _ => rfl
  dsimp only
  cases a.ok <;> rfl

/-! ## Synchronisation -/

/-- A synchronisation is repeated as its answers say. -/
theorem fsyncRetry_sees {sync : FileProg Answer} (hsync : Sees FileWorld.sight sync) :
    Sees FileWorld.sight (fsyncRetry sync) := by
  refine Sees.iterate () fun _ => Sees.bind hsync fun a => ?_
  exact Sees.ite (fun _ => Sees.pure) fun _ => Sees.ite (fun _ => Sees.pure) fun _ => Sees.pure

/-- Synchronising the data depends on nothing else. -/
theorem syncData_sees (fd : Option ℕ) : Sees FileWorld.sight (syncData fd) := by
  refine Sees.bind (countMetrics_sees _) fun _ =>
    Sees.bind (fsyncRetry_sees (fsync_sees fd)) fun r => ?_
  cases r with
  | none => exact Sees.pure
  | some error => exact Sees.bind (countMetrics_sees _) fun _ => Sees.pure

/-- Synchronising the directory clears `dir_dirty`, which is in sight. -/
theorem syncDirectory_sees : Sees FileWorld.sight syncDirectory := by
  refine Sees.bind (countMetrics_sees _) fun _ =>
    Sees.bind (fsyncRetry_sees fsyncDirectory_sees) fun r => ?_
  cases r with
  | none => exact Sees.bind (setFile_sees _) fun _ => Sees.pure
  | some error => exact Sees.bind (countMetrics_sees _) fun _ => Sees.pure

/-- Whether it is done depends on `dir_dirty`. -/
theorem syncDirectoryIfDirty_sees : Sees FileWorld.sight syncDirectoryIfDirty :=
  Sees.bind getFile_sees fun _ => Sees.ite (fun _ => syncDirectory_sees) fun _ => Sees.pure

/-- `logger_file_sync` depends on the fields and the answers. -/
theorem loggerFileSync_sees : Sees FileWorld.sight loggerFileSync := by
  refine Sees.bind getFile_sees fun f => Sees.ite (fun _ => Sees.pure) fun _ => ?_
  refine Sees.bind (syncData_sees f.fd) fun rc => ?_
  refine Sees.bind (Sees.ite (fun _ => syncDirectoryIfDirty_sees) fun _ => Sees.pure) fun rc => ?_
  exact Sees.bind getFile_sees fun f => Sees.bind (countMetrics_sees _) fun _ => Sees.pure

/-! ## Opening -/

/-- The local day of a time depends on the time alone. -/
theorem wallDay_sees (sec : ℤ) : Sees FileWorld.sight (wallDay libc sec) :=
  Sees.bind call_sees fun _ => Sees.ite (fun _ => Sees.pure) fun _ =>
    Sees.ite (fun _ => Sees.pure) fun _ => Sees.pure

/-- The check of a descriptor compares the inode with that of the entry. -/
theorem checkNamedFd_sees (name : CString) (fd : Option ℕ) :
    Sees FileWorld.sight (checkNamedFd name fd) := by
  refine Sees.bind (fstat_sees fd) fun r => ?_
  cases r with
  | error e => exact Sees.pure
  | ok st =>
    refine Sees.bind (fstatat_sees name) fun r => ?_
    cases r with
    | error e => exact Sees.pure
    | ok named =>
      refine Sees.ite (fun _ => Sees.pure) fun _ => ?_
      exact Sees.ite (fun _ => Sees.pure) fun _ => Sees.pure

/-- The check of the owner compares the process. -/
theorem checkOwner_sees : Sees FileWorld.sight checkOwner := by
  refine Sees.bind getFile_sees fun f => Sees.ite (fun _ => Sees.pure) fun _ => ?_
  refine Sees.bind (checkNamedFd_sees _ _) fun r => ?_
  cases r <;> exact Sees.pure

/-- Closing a descriptor leaves the disk alone. -/
theorem loggerFdCloseStatus_sees (fd : Option ℕ) : Sees FileWorld.sight (loggerFdCloseStatus fd) :=
  Sees.ite (fun _ => Sees.pure) fun _ => Sees.bind call_sees fun _ => Sees.pure

/-- Opening a candidate depends on the entry of the active file. -/
theorem openCandidate_sees (exclusive : Bool) : Sees FileWorld.sight (openCandidate exclusive) := by
  refine Sees.bind checkOwner_sees fun rc => Sees.ite (fun _ => Sees.pure) fun _ => ?_
  refine Sees.bind getFile_sees fun f => Sees.bind (openActive_sees _ exclusive) fun r => ?_
  cases r with
  | error e => exact Sees.pure
  | ok fd =>
    refine Sees.bind (checkNamedFd_sees _ _) fun r => ?_
    cases r with
    | error rc => exact Sees.bind (loggerFdCloseStatus_sees _) fun _ => Sees.pure
    | ok st =>
      refine Sees.ite (fun _ => ?_) fun _ => ?_
      · exact Sees.bind (loggerFdCloseStatus_sees _) fun _ => Sees.pure
      · exact Sees.bind (setFile_sees _) fun _ => Sees.pure

/-- The installation sets fields of the file. -/
theorem installFd_sees (fd : ℕ) (st : Stat) (day : ℤ) :
    Sees FileWorld.sight (installFd fd st day) := by
  refine Sees.modify fun w w' h => ?_
  obtain ⟨hdisk, hfile⟩ := Prod.mk.inj h
  refine Prod.ext hdisk ?_
  dsimp only [FileWorld.sight, FileWorld.note]
  rw [hfile]

/-- `file_reopen_impl` depends on the disk, the fields and the answers. -/
theorem fileReopenImpl_sees : Sees FileWorld.sight (fileReopenImpl libc) := by
  refine Sees.bind call_sees fun now => Sees.bind (wallDay_sees _) fun r => ?_
  cases r with
  | error rc => exact Sees.pure
  | ok day =>
    refine Sees.bind (openCandidate_sees false) fun r => ?_
    cases r with
    | error rc => exact Sees.pure
    | ok candidate =>
      refine Sees.bind getFile_sees fun f => ?_
      refine Sees.bind (Sees.ite (fun _ => syncData_sees _) fun _ => Sees.pure) fun rc => ?_
      refine Sees.bind (Sees.ite (fun _ => syncDirectoryIfDirty_sees) fun _ => Sees.pure)
        fun rc => ?_
      refine Sees.ite (fun _ => ?_) fun _ => ?_
      · exact Sees.bind (loggerFdCloseStatus_sees _) fun _ => Sees.pure
      · exact Sees.bind (installFd_sees _ _ _) fun _ => loggerFdCloseStatus_sees _

/-- So does `logger_file_reopen`. -/
theorem loggerFileReopen_sees : Sees FileWorld.sight (loggerFileReopen libc) := by
  refine Sees.bind getFile_sees fun f => Sees.ite (fun _ => Sees.pure) fun _ => ?_
  refine Sees.bind (countMetrics_sees _) fun _ => Sees.bind fileReopenImpl_sees fun rc => ?_
  exact Sees.ite (fun _ => Sees.bind (countMetrics_sees _) fun _ => Sees.pure) fun _ =>
    Sees.bind (countMetrics_sees _) fun _ => Sees.pure

/-! ## Rotation -/

/-- The check of the active file looks at the entry behind its name. -/
theorem checkActive_sees : Sees FileWorld.sight checkActive := by
  refine Sees.bind checkOwner_sees fun rc => Sees.ite (fun _ => Sees.pure) fun _ => ?_
  refine Sees.bind getFile_sees fun f => Sees.bind (checkNamedFd_sees _ _) fun r => ?_
  cases r with
  | error rc => exact Sees.pure
  | ok st => exact Sees.ite (fun _ => Sees.pure) fun _ => Sees.pure

/-- A time is valid or not by itself. -/
theorem timestampValid_sees (t : Timespec) : Sees FileWorld.sight (timestampValid t) := by
  refine Sees.ite (fun _ => Sees.pure) fun _ => ?_
  refine Sees.bind (Sees.bind call_sees fun _ => Sees.pure) fun r => ?_
  cases r <;> exact Sees.pure

/-- The next microsecond depends on the time alone. -/
theorem advanceMicrosecond_sees (t : Timespec) : Sees FileWorld.sight (advanceMicrosecond t) := by
  unfold advanceMicrosecond
  cases t.nextMicrosecond with
  | none => exact Sees.pure
  | some t' =>
    refine Sees.bind (timestampValid_sees t') fun _ => ?_
    exact Sees.ite (fun _ => Sees.pure) fun _ => Sees.pure

/-- The name of an archive depends on the time and the names that are bound. -/
theorem archiveName_sees (t : Timespec) : Sees FileWorld.sight (archiveName libc t) := by
  refine Sees.bind getFile_sees fun f => Sees.bind (timestampValid_sees t) fun valid => ?_
  refine Sees.ite (fun _ => Sees.pure) fun _ => ?_
  refine Sees.bind (Sees.bind call_sees fun _ => Sees.pure) fun r => ?_
  cases r with
  | none => exact Sees.pure
  | some tm =>
    refine Sees.bind call_sees fun a => Sees.ite (fun _ => Sees.pure) fun _ => ?_
    refine Sees.bind call_sees fun a => Sees.ite (fun _ => Sees.pure) fun _ => ?_
    exact Sees.ite (fun _ => Sees.pure) fun _ => Sees.pure

/-- The first candidate depends on the last archive time. -/
theorem archiveStart_sees (now : Timespec) : Sees FileWorld.sight (archiveStart now) :=
  Sees.bind getFile_sees fun _ =>
    Sees.ite (fun _ => advanceMicrosecond_sees _) fun _ => Sees.pure

/-- The search for a free name reads the directory. -/
theorem archiveRename_sees (n : ℕ) (t : Timespec) :
    Sees FileWorld.sight (archiveRename libc n t) := by
  induction n generalizing t with
  | zero => exact Sees.pure
  | succ n ih =>
    refine Sees.bind (archiveName_sees t) fun r => ?_
    cases r with
    | error rc => exact Sees.pure
    | ok name =>
      refine Sees.bind (loggerFileRenameNoreplace_sees name) fun r => ?_
      cases r with
      | ok u => exact Sees.pure
      | error e =>
        refine Sees.ite (fun _ => Sees.pure) fun _ => ?_
        refine Sees.bind (advanceMicrosecond_sees t) fun r => ?_
        cases r with
        | error rc => exact Sees.pure
        | ok t' => exact ih t'

/-- Detaching sets fields of the file. -/
theorem detach_sees (t : Timespec) : Sees FileWorld.sight (detach t) := by
  refine Sees.modify fun w w' h => ?_
  obtain ⟨hdisk, hfile⟩ := Prod.mk.inj h
  refine Prod.ext hdisk ?_
  dsimp only [FileWorld.sight]
  rw [hfile]

/-- A switch that fails closes its candidate and keeps the disk. -/
theorem failSwitch_sees (candidate : Option ℕ) (rc : ℤ) :
    Sees FileWorld.sight (failSwitch candidate rc) :=
  Sees.bind (loggerFdCloseStatus_sees candidate) fun _ =>
    Sees.bind (setFile_sees _) fun _ => Sees.pure

/-- One entry is removed or kept by its name, its kind and its age. -/
theorem retentionStep_sees (now : ℤ) (changed : Bool) :
    Sees FileWorld.sight (retentionStep now changed) := by
  refine Sees.bind getFile_sees fun f => Sees.bind call_sees fun a => ?_
  cases a.entry with
  | none => exact Sees.pure
  | some name =>
    refine Sees.ite (fun _ => Sees.pure) fun _ => Sees.bind (fstatat_sees name) fun r => ?_
    cases r with
    | error e => exact Sees.pure
    | ok st =>
      refine Sees.ite (fun _ => Sees.pure) fun _ => Sees.ite (fun _ => Sees.pure) fun _ => ?_
      refine Sees.bind (unlinkat_sees name) fun r => ?_
      cases r with
      | error e => exact Sees.pure
      | ok u => exact Sees.bind (countMetrics_sees _) fun _ => Sees.pure

/-- The scan of the directory depends on the entries it is given. -/
theorem retention_sees (now : ℤ) : Sees FileWorld.sight (retention now) := by
  refine Sees.bind getFile_sees fun f => Sees.ite (fun _ => Sees.pure) fun _ => ?_
  refine Sees.bind call_sees fun dir => Sees.ite (fun _ => Sees.pure) fun _ => ?_
  refine Sees.bind call_sees fun scan => Sees.ite (fun _ => ?_) fun _ => ?_
  · exact Sees.bind call_sees fun _ => Sees.pure
  refine Sees.bind (Sees.iterate false (retentionStep_sees now)) fun r => ?_
  refine Sees.bind call_sees fun closed => Sees.ite (fun _ => ?_) fun _ => Sees.pure
  exact Sees.bind (setFile_sees _) fun _ => Sees.bind syncDirectory_sees fun _ => Sees.pure

/-- The switch depends on the disk, the fields and the answers. -/
theorem switchActive_sees (t : Timespec) : Sees FileWorld.sight (switchActive libc t) := by
  refine Sees.bind syncDirectory_sees fun rc => Sees.ite (fun _ => failSwitch_sees _ _) fun _ => ?_
  refine Sees.bind (wallDay_sees _) fun r => ?_
  cases r with
  | error rc => exact failSwitch_sees _ _
  | ok day =>
    refine Sees.bind (openCandidate_sees true) fun r => ?_
    cases r with
    | error rc => exact failSwitch_sees _ _
    | ok candidate =>
      refine Sees.bind (syncData_sees _) fun rc => Sees.ite (fun _ => failSwitch_sees _ _)
        fun _ => ?_
      refine Sees.bind syncDirectory_sees fun rc =>
        Sees.ite (fun _ => failSwitch_sees _ _) fun _ => ?_
      refine Sees.bind getFile_sees fun f => Sees.bind (installFd_sees _ _ _) fun _ => ?_
      exact Sees.bind (loggerFdCloseStatus_sees _) fun _ =>
        Sees.ite (fun _ => Sees.pure) fun _ => retention_sees _

/-- `rotate_impl` depends on them too. -/
theorem rotateImpl_sees : Sees FileWorld.sight (rotateImpl libc) := by
  refine Sees.bind checkActive_sees fun rc => Sees.ite (fun _ => Sees.pure) fun _ => ?_
  refine Sees.bind call_sees fun clock => Sees.ite (fun _ => Sees.pure) fun _ => ?_
  refine Sees.bind (timestampValid_sees _) fun valid => Sees.ite (fun _ => Sees.pure) fun _ => ?_
  refine Sees.bind (archiveStart_sees _) fun r => ?_
  cases r with
  | error rc => exact Sees.pure
  | ok t =>
    refine Sees.bind loggerFileSync_sees fun rc => Sees.ite (fun _ => Sees.pure) fun _ => ?_
    refine Sees.bind (archiveRename_sees _ t) fun r => ?_
    cases r with
    | error rc => exact Sees.pure
    | ok t => exact Sees.bind (detach_sees t) fun _ => switchActive_sees t

/-- A rotation depends on them, and on the switch that has failed before. -/
theorem rotate_sees : Sees FileWorld.sight (rotate libc) := by
  refine Sees.bind (countMetrics_sees _) fun _ => Sees.bind rotateImpl_sees fun rc => ?_
  exact Sees.ite (fun _ => Sees.bind (countMetrics_sees _) fun _ => Sees.pure) fun _ =>
    Sees.bind (countMetrics_sees _) fun _ => Sees.pure

/-! ## Writing -/

/-- Whether a write rotates depends on the size, the mode and the day. -/
theorem prepareWrite_sees (n : ℕ) (t : Option Timespec) :
    Sees FileWorld.sight (prepareWrite libc n t) := by
  refine Sees.bind getFile_sees fun f => Sees.ite (fun _ => Sees.pure) fun _ => ?_
  cases t with
  | none => exact Sees.pure
  | some t =>
    refine Sees.ite (fun _ => Sees.pure) fun _ => Sees.ite (fun _ => Sees.pure) fun _ => ?_
    refine Sees.ite (fun _ => Sees.pure) fun _ => Sees.ite (fun _ => ?_) fun _ => ?_
    · refine Sees.bind (wallDay_sees _) fun r => ?_
      cases r with
      | error rc => exact Sees.pure
      | ok d => exact Sees.ite (fun _ => rotate_sees) fun _ => Sees.pure
    · exact Sees.ite (fun _ => rotate_sees) fun _ => Sees.pure

/-- What follows a write depends on its result. -/
theorem afterWrite_sees {β : Type} (result : Except ℤ ℕ) (goOn : ℕ → β) (retry : β) (written : ℕ) :
    Sees FileWorld.sight (afterWrite result goOn retry written) := by
  cases result with
  | error e =>
    exact Sees.ite (fun _ => Sees.bind (countMetrics_sees _) fun _ => Sees.pure) fun _ =>
      Sees.bind (countMetrics_sees _) fun _ => Sees.pure
  | ok k =>
    cases k with
    | zero => exact Sees.bind (countMetrics_sees _) fun _ => Sees.pure
    | succ k => exact Sees.pure

/-- The loop over one buffer depends on the answers. -/
theorem all_sees (fd : Option ℕ) (p : List UInt8) : Sees FileWorld.sight (all fd p) := by
  refine Sees.iterate _ fun b => Sees.ite (fun _ => Sees.pure) fun _ => ?_
  exact Sees.bind (countMetrics_sees _) fun _ => Sees.bind (writeCall_sees fd _) fun result =>
    afterWrite_sees result _ _ _

/-- So does the loop over vectors. -/
theorem vall_sees (fd : Option ℕ) (iovMax : ℕ) (v : List (List UInt8)) :
    Sees FileWorld.sight (vall fd iovMax v) := by
  refine Sees.iterate _ fun b => ?_
  dsimp only
  cases b.1.dropWhile (·.isEmpty) with
  | nil => exact Sees.pure
  | cons v vs =>
    exact Sees.bind (countMetrics_sees _) fun _ => Sees.bind (writeCall_sees fd _) fun result =>
      afterWrite_sees result _ _ _

/-- The end of a write depends on its results. -/
theorem finishWrite_sees (rc : ℤ) {output : FileProg (ℤ × ℕ)}
    (houtput : Sees FileWorld.sight output) (sync : Bool) :
    Sees FileWorld.sight (finishWrite rc output sync) := by
  refine Sees.bind (Sees.ite (fun _ => houtput) fun _ => Sees.pure) fun r => ?_
  refine Sees.bind (Sees.bind (setFile_sees _) fun _ => countMetrics_sees _) fun _ => ?_
  refine Sees.bind (Sees.ite (fun _ => loggerFileSync_sees) fun _ => Sees.pure) fun rc => ?_
  exact Sees.ite (fun _ => Sees.bind (countMetrics_sees _) fun _ => Sees.pure) fun _ =>
    Sees.bind (countMetrics_sees _) fun _ => Sees.pure

/-- A call reads the disk and the file only. -/
theorem fileOp_exec_sees (op : FileOp) : Sees FileWorld.sight (op.exec libc) := by
  refine Sees.bind (Sees.modify fun _ _ h => h) fun _ => ?_
  cases op with
  | write p t synced =>
    refine Sees.ite (fun _ => Sees.pure) fun _ => Sees.bind (countMetrics_sees _) fun _ => ?_
    exact Sees.bind (prepareWrite_sees _ t) fun rc => Sees.bind getFile_sees fun f =>
      finishWrite_sees rc (all_sees _ _) synced
  | writev v n t synced =>
    refine Sees.ite (fun _ => Sees.pure) fun _ => Sees.bind (countMetrics_sees _) fun _ => ?_
    exact Sees.bind (prepareWrite_sees _ t) fun rc => Sees.bind getFile_sees fun f =>
      finishWrite_sees rc (vall_sees _ _ _) synced
  | sync => exact loggerFileSync_sees
  | reopen => exact loggerFileReopen_sees

/-- A sequence of calls depends on the disk, the fields and the answers, and on nothing else. -/
theorem runFileOps_sees (ops : List FileOp) : Sees FileWorld.sight (runFileOps libc ops) := by
  induction ops with
  | nil => exact Sees.pure
  | cons op ops ih => exact Sees.bind (fileOp_exec_sees op) fun _ => ih

end

end CLogger
