import CLogger.File.Invariant

/-!
# What the functions of the file backend do to the core

One lemma per function. Most of them leave the core of the state alone (`*_keeps`): every check,
clock reading, conversion, synchronisation and close. The others keep the invariant at each of
their calls and say what they have changed when they return (`*_spec`).
-/

namespace CLogger

open TapeProgram

/-! ## Functions that leave the core alone -/

section Keeps

variable {libc : Libc} {α τ : Type}

/-- A part of the state that the metrics are not in. -/
class Unmetered (π : FileWorld → τ) : Prop where
  metrics : ∀ w m, π { w with metrics := m } = π w

/-- The state without the metrics. -/
def FileWorld.frame (w : FileWorld) : FileWorld := { w with metrics := .zero }

instance : Unmetered FileWorld.frame := ⟨fun _ _ => rfl⟩

/-- The core with the error that a detached file reports. -/
def FileWorld.shape (w : FileWorld) : FileCore × ℤ := (w.core, w.file.switchError)

instance : Unmetered FileWorld.shape := ⟨fun _ _ => rfl⟩

/-- A part of the state that a synchronisation leaves alone: it counts, but not bytes, marks the
directory clean, and is noted. -/
class Unsynced (π : FileWorld → τ) : Prop where
  metrics : ∀ w m, m.bytesWritten = w.metrics.bytesWritten → π { w with metrics := m } = π w
  dirDirty : ∀ w dirty, π { w with file := { w.file with dirDirty := dirty } } = π w
  fsync : ∀ w ino, π (FileWorld.note w (.fsync ino)) = π w
  fsyncDir : ∀ w, π (FileWorld.note w .fsyncDir) = π w

instance : Unsynced FileWorld.shape :=
  ⟨fun _ _ _ => rfl, fun _ _ => rfl, fun _ _ => rfl, fun _ => rfl⟩

variable {π : FileWorld → τ}

/-- The result of a function that fails with a negated error number: it is not mistaken for
success. -/
def Failing (r : Except ℤ α) : Prop := ∀ rc, r = .error rc → rc < 0

/-- A value is no failure. -/
theorem Failing.ok (a : α) : Failing (.ok a) := nofun

/-- A negative error is one. -/
theorem Failing.error {rc : ℤ} (h : rc < 0) : Failing (.error rc : Except ℤ α) := by
  intro rc' hrc
  rw [← Except.error.inj hrc]
  exact h

/-- A positive error number becomes a negative error. -/
theorem ErrorNumber.failing {e : ℤ} (h : ErrorNumber (.error e : Except ℤ α)) {β : Type} :
    Failing (.error (-e) : Except ℤ β) := .error (neg_neg_of_pos (h e rfl))

/-- An answer that fails has an error number, or gets one. -/
theorem Answer.neg_errno_or_neg (a : Answer) {e : ℤ} :
    -(if a.errno = 0 then e else a.errno) < 0 := by
  rw [if_neg a.errno_ne_zero]
  exact a.neg_errno_neg

/-- The environment answers without changing the state. -/
theorem call_keeps : Keeps π (fun _ => True) call :=
  Keeps.ask (fun _ _ => rfl) fun _ _ => trivial

/-- `fstat` keeps the state and fails with an error number. -/
theorem fstat_keeps (fd : Option ℕ) : Keeps π ErrorNumber (fstat fd) := by
  refine Keeps.ask (fun w a => ?_) fun w a => ?_
  · cases fd <;> rfl
  · cases fd with
    | none => exact .error (by decide)
    | some ino =>
      cases a.ok
      · exact .error a.errno_pos
      · exact .ok _

/-- So does `fstatat`. -/
theorem fstatat_keeps (name : CString) : Keeps π ErrorNumber (fstatat name) := by
  refine Keeps.ask (fun w a => ?_) fun w a => ?_
  · cases hdir : w.disk.dir name <;> rfl
  · cases w.disk.dir name with
    | none =>
      cases a.ok
      · exact .error a.errno_pos
      · exact .error (show 0 < enoent by decide)
    | some ino =>
      cases a.ok
      · exact .error a.errno_pos
      · exact .ok _

/-- The metrics are no part of what is kept. -/
theorem countMetrics_keeps [Unmetered π] (g : FileMetrics → FileMetrics) :
    Keeps π (fun _ => True) (countMetrics g) := Keeps.modify fun w => Unmetered.metrics w _

/-- An update of the counters other than the bytes. -/
theorem countMetrics_unsynced [Unsynced π] {g : FileMetrics → FileMetrics}
    (hg : ∀ m, (g m).bytesWritten = m.bytesWritten) : Keeps π (fun _ => True) (countMetrics g) :=
  Keeps.modify fun w => Unsynced.metrics w _ (hg w.metrics)

/-- Assignments to fields outside the core. -/
theorem setFile_keeps {g : LoggerFile → LoggerFile}
    (h : ∀ w : FileWorld, FileWorld.shape { w with file := g w.file } = w.shape) :
    Keeps FileWorld.shape (fun _ => True) (setFile g) := Keeps.modify h

/-- A look at the fields keeps the state. -/
theorem getFile_keeps : Keeps π (fun _ => True) getFile :=
  (Keeps.get fun _ => trivial).bind fun _ _ => .pure trivial

/-- `fsync` changes no more than the trace. -/
theorem fsync_keeps [Unsynced π] (fd : Option ℕ) : Keeps π (fun _ => True) (fsync fd) := by
  refine Keeps.ask (fun w a => ?_) fun _ _ => trivial
  cases fd with
  | none => rfl
  | some ino =>
    show π (if a.ok then w.note (.fsync ino) else w) = π w
    cases a.ok
    · rfl
    · exact Unsynced.fsync w ino

/-- Nor does that of the directory. -/
theorem fsyncDirectory_keeps [Unsynced π] : Keeps π (fun _ => True) fsyncDirectory := by
  refine Keeps.ask (fun w a => ?_) fun _ _ => trivial
  show π (if a.ok then w.note .fsyncDir else w) = π w
  cases a.ok
  · rfl
  · exact Unsynced.fsyncDir w

/-- A synchronisation that is given up has a positive error number. -/
theorem fsyncRetry_keeps {sync : FileProg Answer} (hsync : Keeps π (fun _ => True) sync) :
    Keeps π (fun r => ∀ error ∈ r, 0 < error) (fsyncRetry sync) := by
  refine Keeps.iterate () fun _ => hsync.bind fun a _ => ?_
  refine .ite (fun _ => .pure nofun) fun _ => .ite (fun _ => .pure trivial) fun _ => .pure ?_
  intro error herror
  rw [if_neg a.errno_ne_zero, Option.mem_some_iff] at herror
  exact herror ▸ a.errno_pos

/-- Synchronising the data returns 0 or a negative error. -/
theorem syncData_keeps [Unsynced π] (fd : Option ℕ) : Keeps π (· ≤ 0) (syncData fd) := by
  refine Keeps.bind (countMetrics_unsynced fun _ => rfl) fun _ _ => ?_
  refine (fsyncRetry_keeps (fsync_keeps fd)).bind fun r hr => ?_
  cases r with
  | none => exact .pure le_rfl
  | some error =>
    refine Keeps.bind (countMetrics_unsynced fun _ => rfl) fun _ _ => .pure ?_
    exact neg_nonpos.mpr (hr error rfl).le

/-- So does synchronising the directory. -/
theorem syncDirectory_keeps [Unsynced π] : Keeps π (· ≤ 0) syncDirectory := by
  refine Keeps.bind (countMetrics_unsynced fun _ => rfl) fun _ _ => ?_
  refine (fsyncRetry_keeps fsyncDirectory_keeps).bind fun r hr => ?_
  cases r with
  | none =>
    refine Keeps.bind (Keeps.modify fun w => ?_) fun _ _ => .pure le_rfl
    exact Unsynced.dirDirty w false
  | some error =>
    refine Keeps.bind (countMetrics_unsynced fun _ => rfl) fun _ _ => .pure ?_
    exact neg_nonpos.mpr (hr error rfl).le

/-- So it does if it is skipped. -/
theorem syncDirectoryIfDirty_keeps [Unsynced π] : Keeps π (· ≤ 0) syncDirectoryIfDirty :=
  getFile_keeps.bind fun _ _ => .ite (fun _ => syncDirectory_keeps) fun _ => .pure le_rfl

/-- `logger_file_sync` keeps all but the trace and the dirty flag. -/
theorem loggerFileSync_keeps [Unsynced π] : Keeps π (fun _ => True) loggerFileSync := by
  refine getFile_keeps.bind fun f _ => .ite (fun _ => .pure trivial) fun _ => ?_
  refine (syncData_keeps f.fd).bind fun rc hrc => ?_
  refine Keeps.bind (.ite (fun _ => syncDirectoryIfDirty_keeps) fun _ => .pure hrc) fun rc _ => ?_
  refine getFile_keeps.bind fun f _ => ?_
  exact Keeps.bind (countMetrics_unsynced fun _ => rfl) fun _ _ => .pure trivial

/-- The local day of a time is found, or the call fails. -/
theorem wallDay_keeps (sec : ℤ) : Keeps π Failing (wallDay libc sec) := by
  refine call_keeps.bind fun a _ => .ite (fun _ => .pure (.error a.neg_errno_or_neg)) fun _ => ?_
  exact .ite (fun _ => .pure (.error (by decide))) fun _ => .pure (.ok _)

/-- The check of a descriptor keeps the state. -/
theorem checkNamedFd_keeps (name : CString) (fd : Option ℕ) :
    Keeps π Failing (checkNamedFd name fd) := by
  refine (fstat_keeps fd).bind fun r hr => ?_
  cases r with
  | error e => exact .pure hr.failing
  | ok st =>
    refine (fstatat_keeps name).bind fun r hr => ?_
    cases r with
    | error e => exact .pure hr.failing
    | ok named =>
      refine .ite (fun _ => .pure (.error (by decide))) fun _ => ?_
      exact .ite (fun _ => .pure (.ok _)) fun _ => .pure (.error (by decide))

/-- The kind of an inode is right, or the error is negative. -/
theorem regularSingleLink_nonpos (st : Stat) : regularSingleLink st ≤ 0 := by
  unfold regularSingleLink
  split_ifs <;> decide

/-- The check of the owner keeps the state. -/
theorem checkOwner_keeps : Keeps π (· ≤ 0) checkOwner := by
  refine getFile_keeps.bind fun f _ => .ite (fun _ => .pure le_rfl) fun _ => ?_
  refine (checkNamedFd_keeps _ _).bind fun r hr => ?_
  cases r with
  | error rc => exact .pure (hr rc rfl).le
  | ok st => exact .pure (regularSingleLink_nonpos st)

/-- Closing a descriptor keeps the state. -/
theorem loggerFdCloseStatus_keeps (fd : Option ℕ) :
    Keeps π (· ≤ 0) (loggerFdCloseStatus fd) := by
  refine .ite (fun _ => .pure le_rfl) fun _ => call_keeps.bind fun a _ => .pure ?_
  cases a.ok
  · exact a.neg_errno_neg.le
  · exact le_rfl

/-- The check of the active file keeps the state. -/
theorem checkActive_keeps : Keeps π (· ≤ 0) checkActive := by
  refine checkOwner_keeps.bind fun rc hrc => .ite (fun _ => .pure hrc) fun _ => ?_
  refine getFile_keeps.bind fun f _ => (checkNamedFd_keeps _ _).bind fun r hr => ?_
  cases r with
  | error rc => exact .pure (hr rc rfl).le
  | ok st =>
    exact .ite (fun _ => .pure (by decide)) fun _ => .pure (regularSingleLink_nonpos st)

/-- The conversion of a time keeps the state. -/
theorem loggerLibcGmtime_keeps (sec : ℤ) :
    Keeps π (fun _ => True) (loggerLibcGmtime sec) :=
  call_keeps.bind fun _ _ => .pure trivial

/-- The accounting of written bytes keeps the disk and what the file is bound to. -/
theorem account_keeps (written : ℕ) : Keeps FileWorld.shape (fun _ => True) (account written) := by
  refine (setFile_keeps ?_).bind fun _ _ => countMetrics_keeps _
  exact fun _ => rfl

/-- The check of a time keeps the state. -/
theorem timestampValid_keeps (t : Timespec) :
    Keeps π (fun _ => True) (timestampValid t) := by
  refine .ite (fun _ => .pure trivial) fun _ => (loggerLibcGmtime_keeps _).bind fun r _ => ?_
  cases r <;> exact .pure trivial

/-- The next microsecond is found without the state. -/
theorem advanceMicrosecond_keeps (t : Timespec) :
    Keeps π Failing (advanceMicrosecond t) := by
  unfold advanceMicrosecond
  cases t.nextMicrosecond with
  | none => exact .pure (.error (by decide))
  | some t =>
    refine (timestampValid_keeps t).bind fun _ _ => .ite (fun _ => .pure (.ok _)) fun _ => ?_
    exact .pure (.error (by decide))

/-- The name of an archive is built without a change. -/
theorem archiveName_keeps (t : Timespec) :
    Keeps π Failing (archiveName libc t) := by
  refine getFile_keeps.bind fun f _ => (timestampValid_keeps t).bind fun _ _ => ?_
  refine .ite (fun _ => .pure (.error (by decide))) fun _ => ?_
  refine (loggerLibcGmtime_keeps _).bind fun tm _ => ?_
  cases tm with
  | none => exact .pure (.error (by decide))
  | some tm =>
    refine call_keeps.bind fun _ _ => .ite (fun _ => .pure (.error (by decide))) fun _ => ?_
    refine call_keeps.bind fun a _ => .ite (fun _ => .pure (.error a.neg_errno_or_neg)) fun _ => ?_
    exact .ite (fun _ => .pure (.error (by decide))) fun _ => .pure (.ok _)

/-- So is the first candidate. -/
theorem archiveStart_keeps (now : Timespec) :
    Keeps π Failing (archiveStart now) :=
  getFile_keeps.bind fun _ _ => .ite (fun _ => advanceMicrosecond_keeps _) fun _ => .pure (.ok _)

/-! ### Writing -/

/-- A part of the state that writes leave alone: what they append and note, the bytes taken, and the
size they account. -/
class Unwritten (π : FileWorld → τ) : Prop where
  refused : ∀ w ino, π (FileWorld.note w (.write ino [])) = π w
  taken : ∀ w ino bytes n, π { FileWorld.note w (.write ino bytes) with
    disk := w.disk.append ino bytes, history := { w.history with taken := n } } = π w
  currentSize : ∀ w n, π { w with file := { w.file with currentSize := n } } = π w

/-- A write call changes what is written, and no more. -/
theorem writeCall_keeps [Unwritten π] (fd : Option ℕ) (bytes : List UInt8) :
    Keeps π (fun _ => True) (writeCall fd bytes) := by
  refine Keeps.ask (fun w a => ?_) fun _ _ => trivial
  unfold FileWorld.writeAnswer
  cases fd with
  | none => rfl
  | some ino =>
    cases a.ok with
    | false => exact Unwritten.refused w ino
    | true => exact Unwritten.taken w ino _ _

/-- What follows a write call only counts. -/
theorem afterWrite_keeps [Unmetered π] {β : Type} (result : Except ℤ ℕ) (goOn : ℕ → β) (retry : β)
    (written : ℕ) : Keeps π (fun _ => True) (afterWrite result goOn retry written) := by
  cases result with
  | error e =>
    refine .ite (fun _ => ?_) fun _ => ?_
    · exact (countMetrics_keeps _).bind fun _ _ => .pure trivial
    · exact (countMetrics_keeps _).bind fun _ _ => .pure trivial
  | ok k =>
    cases k with
    | zero => exact (countMetrics_keeps _).bind fun _ _ => .pure trivial
    | succ k => exact .pure trivial

/-- A loop keeps what each of its rounds keeps. -/
theorem iterate_keeps {β γ : Type} {body : β → FileProg (β ⊕ γ)} (b : β)
    (hbody : ∀ b, Keeps π (fun _ => True) (body b)) :
    Keeps π (fun _ => True) (Prog.iterate body b) :=
  Keeps.iterate b fun b => (hbody b).mono fun r _ => by cases r <;> trivial

/-- The loop over the bytes of a buffer changes what is written, and no more. -/
theorem all_keeps [Unmetered π] [Unwritten π] (fd : Option ℕ) (p : List UInt8) :
    Keeps π (fun _ => True) (all fd p) := by
  refine iterate_keeps _ fun ⟨p, written⟩ => .ite (fun _ => .pure trivial) fun _ => ?_
  refine (countMetrics_keeps _).bind fun _ _ => (writeCall_keeps fd p).bind fun result _ => ?_
  exact afterWrite_keeps result _ _ written

/-- So does the loop over vectors. -/
theorem vall_keeps [Unmetered π] [Unwritten π] (fd : Option ℕ) (iovMax : ℕ)
    (v : List (List UInt8)) : Keeps π (fun _ => True) (vall fd iovMax v) := by
  refine iterate_keeps _ fun ⟨v, written⟩ => ?_
  dsimp only
  cases v.dropWhile (·.isEmpty) with
  | nil => exact .pure trivial
  | cons v vs =>
    refine (countMetrics_keeps _).bind fun _ _ => (writeCall_keeps fd _).bind fun result _ => ?_
    exact afterWrite_keeps result _ _ written

/-- The accounting changes the size and the metrics. -/
theorem account_unwritten [Unmetered π] [Unwritten π] (written : ℕ) :
    Keeps π (fun _ => True) (account written) := by
  refine Keeps.bind (Keeps.modify fun w => ?_) fun _ _ => countMetrics_keeps _
  exact Unwritten.currentSize w _

/-- The end of a write changes no more either, and succeeds only after the write was let through. -/
theorem finishWrite_keeps [Unmetered π] [Unsynced π] [Unwritten π] {rc : ℤ}
    {output : FileProg (ℤ × ℕ)} (sync : Bool) (houtput : Keeps π (fun _ => True) output) :
    Keeps π (fun rc' => rc' = 0 → rc = 0) (finishWrite rc output sync) := by
  by_cases hrc : rc = 0
  · refine Keeps.mono (P := fun _ => True) ?_ fun _ _ _ => hrc
    have hloop : Keeps π (fun _ => True) (if rc = 0 then output else pure (rc, 0)) :=
      .ite (fun _ => houtput) fun _ => .pure trivial
    refine hloop.bind fun r _ => (account_unwritten r.2).bind fun _ _ => ?_
    have hsync : Keeps π (fun _ => True)
        (if r.1 = 0 ∧ sync then loggerFileSync else pure r.1) :=
      .ite (fun _ => loggerFileSync_keeps) fun _ => .pure trivial
    refine hsync.bind fun rc' _ => .ite (fun _ => ?_) fun _ => ?_
    · exact (countMetrics_keeps _).bind fun _ _ => .pure trivial
    · exact (countMetrics_keeps _).bind fun _ _ => .pure trivial
  · unfold finishWrite
    rw [if_neg hrc]
    refine (account_unwritten 0).bind fun _ _ => ?_
    rw [if_neg fun h => hrc h.1]
    show Keeps _ _ (if rc ≠ 0 then _ else _)
    rw [if_pos hrc]
    exact (countMetrics_keeps _).bind fun _ _ => .pure fun h => absurd h hrc

end Keeps

/-! ## Functions that change the core -/

/-- The crash condition: the invariant of the run. -/
abbrev fileSafe (libc : Libc) (c₀ : FileCore) (w : FileWorld) : Prop := FileInv libc c₀ w.core

section Specs

variable {libc : Libc} {c₀ : FileCore} {w : FileWorld} {α β : Type}

/-- The invariant is about the core. -/
theorem FileInv.of_core {c c' : FileCore} (h : FileInv libc c₀ c) (hc : c' = c) :
    FileInv libc c₀ c' := hc ▸ h

/-- Passing a function that leaves the core alone, with what it returns. -/
theorem wp_keeps_result {P : α → Prop} {m : FileProg α} {Q : α → FileWorld → Prop}
    (hm : Keeps FileWorld.shape P m) (h : FileInv libc c₀ w.core)
    (hQ : ∀ a w', w'.core = w.core ∧ P a → Q a w') : wp (fileSafe libc c₀) m Q w := by
  refine wp_of_keeps (hm.comp Prod.fst) (fun w' hw' => ?_) (fun _ _ => trivial) ?_
  · exact h.of_core hw'
  · exact fun a w' ha hw' => hQ a w' ⟨hw', ha⟩

/-- Passing a function that leaves the core alone. -/
theorem wp_keeps {P : α → Prop} {m : FileProg α} {Q : α → FileWorld → Prop}
    (hm : Keeps FileWorld.shape P m) (h : FileInv libc c₀ w.core)
    (hQ : ∀ a w', w'.core = w.core → Q a w') : wp (fileSafe libc c₀) m Q w :=
  wp_keeps_result hm h fun a w' hw' => hQ a w' hw'.1

/-- Passing a function that leaves the core alone, with its continuation. -/
theorem wp_keeps_bind {P : α → Prop} {m : FileProg α} {f : α → FileProg β}
    {Q : β → FileWorld → Prop} (hm : Keeps FileWorld.shape P m) (h : FileInv libc c₀ w.core)
    (hf : ∀ a w', w'.core = w.core → wp (fileSafe libc c₀) (f a) Q w') :
    wp (fileSafe libc c₀) (m >>= f) Q w := wp_bind (wp_keeps hm h hf)

/-- After a look at the fields the code goes on with them. -/
theorem wp_getFile_bind {C D : FileWorld → Prop} {f : LoggerFile → FileProg β}
    {Q : β → FileWorld → Prop} (h : Safe C D (f w.file) Q w) : Safe C D (getFile >>= f) Q w :=
  wp_bind (wp_bind (wp_get (wp_pure h)))

/-- A time that `timestamp_valid` accepts. -/
structure Timespec.InRange (t : Timespec) : Prop where
  nsec_nonneg : 0 ≤ t.nsec
  nsec_lt : t.nsec < 1000000000
  year_nonneg : 0 ≤ (gmtime t.sec).year + 1900
  year_le : (gmtime t.sec).year + 1900 ≤ 9999

/-- A time that is found valid is in range. -/
theorem timestampValid_spec (h : FileInv libc c₀ w.core) (t : Timespec) :
    wp (fileSafe libc c₀) (timestampValid t)
      (fun r w' => w'.core = w.core ∧ (r = true → t.InRange)) w := by
  unfold timestampValid
  refine wp_ite (fun _ => wp_pure ⟨rfl, nofun⟩) fun hnsec => ?_
  refine wp_bind (wp_bind (wp_ask h fun a => wp_pure ?_))
  cases hok : a.ok with
  | false => exact wp_pure ⟨rfl, nofun⟩
  | true =>
    refine wp_pure ⟨rfl, fun hr => ?_⟩
    have hyear : -1900 ≤ (gmtime t.sec).year ∧ (gmtime t.sec).year ≤ 8099 := of_decide_eq_true hr
    exact ⟨by omega, by omega, by omega, by omega⟩

/-- The next microsecond is later, and stays on a whole one. -/
theorem nextMicrosecond_before {t t' : Timespec} (h : t.nextMicrosecond = some t') :
    t.Before t' ∧ (t.nsec % 1000 = 0 → t'.nsec % 1000 = 0) := by
  unfold Timespec.nextMicrosecond at h
  split at h
  · obtain rfl := Option.some.inj h
    exact ⟨.inr ⟨rfl, by simp⟩, fun hmicro => by simp only; omega⟩
  · split at h
    · exact absurd h nofun
    · obtain rfl := Option.some.inj h
      exact ⟨.inl (by simp), fun _ => rfl⟩

/-- The candidate that follows another is later. -/
theorem advanceMicrosecond_spec (h : FileInv libc c₀ w.core) (t : Timespec) :
    wp (fileSafe libc c₀) (advanceMicrosecond t)
      (fun r w' => w'.core = w.core ∧
        ∀ t', r = .ok t' → t.Before t' ∧ (t.nsec % 1000 = 0 → t'.nsec % 1000 = 0)) w := by
  unfold advanceMicrosecond
  cases hnext : t.nextMicrosecond with
  | none => exact wp_pure ⟨rfl, nofun⟩
  | some t₁ =>
    refine wp_bind (wp_mono (timestampValid_spec h t₁) ?_)
    intro valid w' hw
    refine wp_ite (fun _ => wp_pure ⟨hw.1, ?_⟩) fun _ => wp_pure ⟨hw.1, nofun⟩
    intro t' ht'
    rw [← Except.ok.inj ht']
    exact nextMicrosecond_before hnext

/-- A name that `archive_name` returns is the name at that time. -/
theorem archiveName_spec (h : FileInv libc c₀ w.core) {t : Timespec} (hmicro : t.nsec % 1000 = 0) :
    wp (fileSafe libc c₀) (archiveName libc t)
      (fun r w' => w'.core = w.core ∧ ∀ name, r = .ok name →
        name = w.core.binding.nameAt libc t ∧ t.Printable libc.yearWidth) w := by
  refine wp_getFile_bind (wp_bind (wp_mono (timestampValid_spec h t) ?_))
  rintro valid w₁ ⟨hw₁, hvalid⟩
  refine wp_ite (fun _ => wp_pure ⟨hw₁, nofun⟩) fun hv => ?_
  have hrange : t.InRange := hvalid (by simpa using hv)
  refine wp_bind (wp_bind (wp_ask (h.of_core hw₁) fun a => wp_pure ?_))
  cases hok : a.ok with
  | false => exact wp_pure ⟨hw₁, nofun⟩
  | true =>
    refine wp_keeps_bind call_keeps (h.of_core hw₁) fun a w₂ hw₂ => ?_
    have h₂ : w₂.core = w.core := hw₂.trans hw₁
    refine wp_ite (fun _ => wp_pure ⟨h₂, nofun⟩) fun hstamp => ?_
    refine wp_keeps_bind call_keeps (h.of_core h₂) fun a w₃ hw₃ => ?_
    have h₃ : w₃.core = w.core := hw₃.trans h₂
    refine wp_ite (fun _ => wp_pure ⟨h₃, nofun⟩) fun _ => ?_
    refine wp_ite (fun _ => wp_pure ⟨h₃, nofun⟩) fun _ => wp_pure ⟨h₃, ?_⟩
    intro name hname
    refine ⟨(Except.ok.inj hname).symm, ?_⟩
    exact ⟨hrange.nsec_nonneg, hrange.nsec_lt, hmicro, hrange.year_nonneg, hrange.year_le,
      not_not.mp fun hlen => hstamp (.inr hlen)⟩

/-- The time a rotation starts with is after the last archive. -/
theorem archiveStart_spec (h : FileInv libc c₀ w.core) (now : Timespec) :
    wp (fileSafe libc c₀) (archiveStart now)
      (fun r w' => w'.core = w.core ∧ ∀ t, r = .ok t →
        t.nsec % 1000 = 0 ∧ ∀ t₀ ∈ w.core.lastTime, t₀.Before t) w := by
  refine wp_getFile_bind (wp_ite (fun hback => ?_) fun hforward => wp_pure ⟨rfl, ?_⟩)
  · -- the clock has not passed the last archive: one microsecond after it
    have hlast : w.core.lastTime = some w.file.archiveTime := if_pos hback.1
    have hmem : w.file.archiveTime ∈ w.core.history.times := by
      rw [h.last] at hlast
      exact List.mem_of_getLast? hlast
    refine wp_mono (advanceMicrosecond_spec h w.file.archiveTime) ?_
    rintro r w' ⟨hw', hnext⟩
    refine ⟨hw', fun t ht => ?_⟩
    obtain ⟨hbefore, hmicro⟩ := hnext t ht
    refine ⟨hmicro (h.printable _ hmem).nsec_micro, fun t₀ ht₀ => ?_⟩
    rw [hlast, Option.mem_some_iff] at ht₀
    exact ht₀ ▸ hbefore
  -- the clock has passed the last archive, if there is one
  · intro t ht
    obtain rfl := Except.ok.inj ht
    refine ⟨by simp only; omega, fun t₀ ht₀ => ?_⟩
    -- the time is rounded down to microseconds, as that of the last archive is
    by_cases hvalid : w.file.archiveTimeValid = true
    · have hlast : w.core.lastTime = some w.file.archiveTime := if_pos hvalid
      rw [hlast, Option.mem_some_iff] at ht₀
      subst ht₀
      simp only [hvalid, true_and, not_or, not_and, not_le, not_lt] at hforward
      unfold Timespec.Before
      simp only
      omega
    · have hlast : w.core.lastTime = none := if_neg hvalid
      rw [hlast] at ht₀
      exact absurd ht₀ nofun

/-- What a successful attempt to archive has done: the active file has moved to the name of a time
after the last archive, and nothing had that name. -/
structure Renamed (libc : Libc) (c : FileCore) (t : Timespec) (c' : FileCore) : Prop where
  printable : t.Printable libc.yearWidth
  after_last : ∀ t₀ ∈ c.lastTime, t₀.Before t
  active : c.disk.dir c.binding.name ≠ none
  free : c.disk.dir (c.binding.nameAt libc t) = none
  renamed : c' = c.rename (c.binding.nameAt libc t)

/-- A rename fails, or moves the active file to a name that was free. -/
theorem renameAnswer_cases (w : FileWorld) (new : CString) (a : Answer) :
    (∃ e, 0 < e ∧ w.renameAnswer new a = (.error e, w)) ∨
      ∃ ino, w.disk.dir w.file.binding.name = some ino ∧ w.disk.dir new = none ∧
        w.renameAnswer new a = (.ok (), { w.note (.rename ino new) with
          disk := w.disk.rename w.file.binding.name new
          history := { w.history with archives := w.history.archives ++ [new] } }) := by
  unfold FileWorld.renameAnswer
  split
  · refine .inl ⟨_, ?_, rfl⟩
    split
    · decide
    · exact a.errno_pos
  split
  · exact .inl ⟨enoent, by decide, rfl⟩
  · exact .inl ⟨eexist, by decide, rfl⟩
  · rename_i hactive hfree
    exact .inr ⟨_, hactive, hfree, rfl⟩

/-- The attempts to archive fail with a negated error number. -/
theorem archiveRename_failing (n : ℕ) (t : Timespec) :
    Keeps (fun _ : FileWorld => ()) Failing (archiveRename libc n t) := by
  induction n generalizing t with
  | zero => exact .pure (.error (by decide))
  | succ n ih =>
    refine (archiveName_keeps t).bind fun r hr => ?_
    cases r with
    | error rc => exact .pure (.error (hr rc rfl))
    | ok name =>
      have hrename : Keeps (fun _ : FileWorld => ()) ErrorNumber
        (loggerFileRenameNoreplace name) := by
        refine Keeps.ask (fun _ _ => rfl) fun w a => ?_
        rcases renameAnswer_cases w name a with ⟨e, hpos, hanswer⟩ | ⟨ino, -, -, hanswer⟩
        · rw [hanswer]
          exact .error hpos
        · rw [hanswer]
          exact .ok ()
      refine hrename.bind fun r hr => ?_
      cases r with
      | ok _ => exact .pure (.ok t)
      | error e =>
        refine .ite (fun _ => .pure hr.failing) fun _ => ?_
        refine (advanceMicrosecond_keeps t).bind fun r hr => ?_
        cases r with
        | error rc => exact .pure (.error (hr rc rfl))
        | ok t' => exact ih t'

/-- The search for a name either fails with the disk as it was, or has archived the active file
under a new name that is later than the last one. -/
theorem archiveRename_spec (n : ℕ) {t : Timespec} (h : FileInv libc c₀ w.core)
    (hmicro : t.nsec % 1000 = 0) (hlast : ∀ t₀ ∈ w.core.lastTime, t₀.Before t) :
    wp (fileSafe libc c₀) (archiveRename libc n t)
      (fun r w' => match r with
        | .error _ => w'.core = w.core
        | .ok t' => Renamed libc w.core t' w'.core) w := by
  induction n generalizing t w with
  | zero => exact wp_pure rfl
  | succ n ih =>
    refine wp_bind (wp_mono (archiveName_spec h hmicro) ?_)
    rintro (rc | name) w₁ ⟨hw₁, hname⟩
    · exact wp_pure hw₁
    obtain ⟨rfl, hprint⟩ := hname name rfl
    refine wp_bind (wp_ask (h.of_core hw₁) fun a => ?_)
    -- a name that is taken, and any other failure, leaves the disk as it was
    have hretry : ∀ e : ℤ, wp (fileSafe libc c₀)
        (if e ≠ eexist then pure (.error (-e)) else do
          match ← advanceMicrosecond t with
          | .error rc => return .error rc
          | .ok t' => archiveRename libc n t')
        (fun r w' => match r with
          | .error _ => w'.core = w.core
          | .ok t' => Renamed libc w.core t' w'.core) w₁ := by
      intro e
      refine wp_ite (fun _ => wp_pure hw₁) fun _ => ?_
      refine wp_bind (wp_mono (advanceMicrosecond_spec (h.of_core hw₁) t) ?_)
      rintro (rc | t') w₂ ⟨hw₂, hnext⟩
      · exact wp_pure (hw₂.trans hw₁)
      obtain ⟨hbefore, hmicro'⟩ := hnext t' rfl
      have h₂ : w₂.core = w.core := hw₂.trans hw₁
      rw [← h₂]
      exact ih (h.of_core h₂) (hmicro' hmicro) fun t₀ ht₀ => (hlast t₀ (h₂ ▸ ht₀)).trans hbefore
    rcases renameAnswer_cases w₁ (w.core.binding.nameAt libc t) a with
      ⟨e, -, hrename⟩ | ⟨ino, hactive, hfree, hrename⟩
    all_goals rw [hrename]
    -- the name is taken, or the rename failed
    · exact hretry _
    -- the rename has succeeded, and the state is that of the new archive
    · refine wp_pure ⟨hprint, hlast, ?_, ?_, ?_⟩
      · rw [← hw₁]
        exact fun hnone => absurd (hnone.symm.trans hactive) nofun
      · rw [← congrArg FileCore.disk hw₁]
        exact hfree
      · rw [← hw₁]
        rfl

/-- The active file may have been created on the way. -/
def OpenedFrom (c c' : FileCore) : Prop :=
  c' = c ∨ c.disk.dir c.binding.name = none ∧ c' = c.create

/-- Opening a file keeps the invariant. -/
theorem OpenedFrom.inv {c c' : FileCore} (h : FileInv libc c₀ c) (hc : OpenedFrom c c') :
    FileInv libc c₀ c' := by
  rcases hc with rfl | ⟨hnone, rfl⟩
  · exact h
  · exact h.create hnone

/-- Opening a file neither attaches nor detaches. -/
theorem OpenedFrom.detached {c c' : FileCore} (hc : OpenedFrom c c') :
    c'.detached = c.detached := by
  rcases hc with rfl | ⟨-, rfl⟩ <;> rfl

/-- What opening the active file has done: it may have been created, and the descriptor is its. An
exclusive open has created it. -/
structure Opening (exclusive : Bool) (w w' : FileWorld) (r : Except ℤ α) (fd : α → ℕ) : Prop where
  opened : OpenedFrom w.core w'.core
  switchError : w'.file.switchError = w.file.switchError
  active : ∀ a, r = .ok a → w'.core.disk.dir w'.core.binding.name = some (fd a)
  fresh : ∀ a, r = .ok a → exclusive = true → w.core.disk.nextIno ≤ fd a ∧
    fd a < w'.core.disk.nextIno

/-- A failed opening has changed no more than the directory. -/
theorem Opening.error {exclusive : Bool} {w w' : FileWorld} {rc : ℤ} {fd : α → ℕ}
    (hopen : OpenedFrom w.core w'.core) (hswitch : w'.file.switchError = w.file.switchError) :
    Opening exclusive w w' (.error rc) fd := ⟨hopen, hswitch, nofun, nofun⟩

/-- The states that opening the active file passes. -/
def OpeningState (w w' : FileWorld) : Prop :=
  OpenedFrom w.core w'.core ∧ w'.file.switchError = w.file.switchError

/-- The disk is the old one, or the active file has been created on it. -/
theorem openAnswer_opening (w : FileWorld) (create exclusive : Bool) (a : Answer) :
    Opening exclusive w (w.openAnswer create exclusive a).2 (w.openAnswer create exclusive a).1 id ∧
      ErrorNumber (w.openAnswer create exclusive a).1 := by
  have herrno := a.errno_pos
  unfold FileWorld.openAnswer
  cases hdir : w.disk.dir w.file.binding.name with
  | some ino =>
    simp only
    split_ifs
    · exact ⟨.error (.inl rfl) rfl, .error herrno⟩
    · exact ⟨.error (.inl rfl) rfl, .error (by decide)⟩
    · rename_i hexclusive
      refine ⟨⟨.inl rfl, rfl, fun fd hfd => ?_, fun _ _ h => absurd h hexclusive⟩, .ok _⟩
      rw [← Except.ok.inj hfd]
      exact hdir
  | none =>
    simp only
    split_ifs
    · exact ⟨.error (.inl rfl) rfl, .error (by decide)⟩
    · exact ⟨.error (.inl rfl) rfl, .error herrno⟩
    · refine ⟨⟨.inr ⟨hdir, rfl⟩, rfl, fun fd hfd => ?_, fun fd hfd _ => ?_⟩, .ok _⟩
      · rw [← Except.ok.inj hfd]
        exact Disk.dir_create_self
      · rw [← Except.ok.inj hfd]
        exact ⟨le_rfl, Nat.lt_succ_self _⟩
    · exact ⟨.error (.inr ⟨hdir, rfl⟩) rfl, .error herrno⟩
    · exact ⟨.error (.inl rfl) rfl, .error herrno⟩

/-- `openat` of the active file opens the inode behind the entry, or a new one. -/
theorem openActive_spec {C D : FileWorld → Prop} (hC : C w)
    (hD : ∀ w', OpeningState w w' → D w') (create exclusive : Bool) :
    Safe C D (openActive create exclusive)
      (fun r w' => Opening exclusive w w' r id ∧ ErrorNumber r) w := by
  refine Safe.ask hC (fun a => openAnswer_opening w create exclusive a) fun a => ?_
  have hopening := (openAnswer_opening w create exclusive a).1
  exact hD _ ⟨hopening.opened, hopening.switchError⟩

/-- A candidate is the active file, and nothing but its creation has happened to the core. -/
theorem openCandidate_spec {C D : FileWorld → Prop} (hC : ∀ w', OpeningState w w' → C w')
    (hD : ∀ w', OpeningState w w' → D w') (exclusive : Bool) :
    Safe C D (openCandidate exclusive)
      (fun r w' => Opening exclusive w w' r Prod.fst ∧ Failing r) w := by
  -- what is not seen in the shape cannot spoil an opening state
  have hkept : ∀ w₁ w₂ : FileWorld, OpeningState w w₁ → w₂.shape = w₁.shape →
    OpeningState w w₂ := by
    intro w₁ w₂ h₁ hshape
    have hcore : w₂.core = w₁.core := congrArg Prod.fst hshape
    have hswitch : w₂.file.switchError = w₁.file.switchError := congrArg Prod.snd hshape
    exact ⟨hcore ▸ h₁.1, hswitch.trans h₁.2⟩
  have hkeeps : ∀ {γ : Type} {P : γ → Prop} {m : FileProg γ} {Q : γ → FileWorld → Prop}
      (w₁ : FileWorld), OpeningState w w₁ → Keeps FileWorld.shape P m →
      (∀ a w₂, P a → w₂.shape = w₁.shape → Q a w₂) → Safe C D m Q w₁ := by
    intro γ P m Q w₁ h₁ hm hQ
    exact wp_of_keeps hm (fun w₂ h₂ => hC w₂ (hkept w₁ w₂ h₁ h₂))
      (fun w₂ h₂ => hD w₂ (hkept w₁ w₂ h₁ h₂)) hQ
  have h₀ : OpeningState w w := ⟨.inl rfl, rfl⟩
  refine wp_bind (hkeeps w h₀ checkOwner_keeps fun rc w₁ hle hw₁ => ?_)
  have h₁ := hkept w w₁ h₀ hw₁
  refine wp_ite (fun hrc => wp_pure ⟨.error h₁.1 h₁.2, .error (lt_of_le_of_ne hle hrc)⟩) fun _ => ?_
  refine wp_bind (wp_bind (wp_get (wp_pure ?_)))
  have hstates : ∀ w', OpeningState w₁ w' → OpeningState w w' := by
    intro w' h'
    have hcore : w₁.core = w.core := congrArg Prod.fst hw₁
    exact ⟨hcore ▸ h'.1, h'.2.trans h₁.2⟩
  refine wp_bind (wp_mono (openActive_spec (hC w₁ h₁) (fun w' h' => hD w' (hstates w' h')) _ _) ?_)
  rintro (e | fd) w₂ ⟨hopening, herror⟩
  all_goals have h₂ := hstates w₂ ⟨hopening.opened, hopening.switchError⟩
  · exact wp_pure ⟨.error h₂.1 h₂.2, herror.failing⟩
  have hdir := hopening.active fd rfl
  refine wp_bind (hkeeps w₂ h₂ (checkNamedFd_keeps _ _) fun r w₃ hfail hw₃ => ?_)
  have h₃ := hkept w₂ w₃ h₂ hw₃
  -- a candidate that fails a check is closed
  have hreject : ∀ rc : ℤ, rc < 0 → Safe C D
      (loggerFdCloseStatus (some fd) >>= fun _ => pure (.error rc))
      (fun (r : Except ℤ (ℕ × Stat)) w' => Opening exclusive w w' r Prod.fst ∧ Failing r) w₃ := by
    intro rc hrc
    refine wp_bind (hkeeps w₃ h₃ (loggerFdCloseStatus_keeps _) fun _ w₄ _ hw₄ => ?_)
    have h₄ := hkept w₃ w₄ h₃ hw₄
    exact wp_pure ⟨.error h₄.1 h₄.2, .error hrc⟩
  cases r with
  | error rc => exact hreject rc (hfail rc rfl)
  | ok st =>
    -- the last check depends on the kind of the file
    refine wp_ite (fun hrc => hreject _ (lt_of_le_of_ne ?_ hrc)) fun _ => ?_
    · split_ifs
      · exact regularSingleLink_nonpos st
      · exact le_rfl
      · decide
    · have hcore : w₃.core = w₂.core := congrArg Prod.fst hw₃
      have hcore₁ : w₁.core = w.core := congrArg Prod.fst hw₁
      have hfresh := hopening.fresh fd rfl
      rw [← hcore] at hdir hfresh
      rw [hcore₁] at hfresh
      refine wp_bind (Safe.modify (wp_pure ⟨⟨h₃.1, h₃.2, fun r hr => ?_, fun r hr => ?_⟩, .ok _⟩)
        (hD _ h₃))
      · obtain rfl := Except.ok.inj hr
        exact hdir
      · obtain rfl := Except.ok.inj hr
        exact hfresh

/-- Opening a candidate keeps the invariant. -/
theorem openCandidate_inv (h : FileInv libc c₀ w.core) (exclusive : Bool) :
    wp (fileSafe libc c₀) (openCandidate exclusive)
      (fun r w' => Opening exclusive w w' r Prod.fst ∧ Failing r) w :=
  openCandidate_spec (fun _ h' => h'.1.inv h) (fun _ _ => trivial) exclusive

/-- Without retention days nothing is deleted. -/
theorem retention_spec (h : FileInv libc c₀ w.core) (hdays : c₀.binding.retentionDays = 0)
    (now : ℤ) : wp (fileSafe libc c₀) (retention now) (fun _ w' => w'.core = w.core) w := by
  have hdays' : w.file.binding.retentionDays = 0 :=
    (congrArg FileBinding.retentionDays h.binding).trans hdays
  exact wp_getFile_bind (wp_ite (fun _ => wp_pure rfl) fun hne => absurd hdays' hne)

/-- The bytes of the current call and how many of them the kernel has taken. -/
def FileCore.progress (c : FileCore) : List UInt8 × ℕ := (c.history.current, c.history.taken)

/-- What holds after a rotation, complete or not: the stream is intact, no byte of the current
call has been taken, and the file is attached unless an error is reported. -/
structure AfterRotation (libc : Libc) (c₀ c : FileCore) (rc : ℤ) (c' : FileCore) : Prop where
  inv : FileInv libc c₀ c'
  progress : c'.progress = c.progress
  attached : rc = 0 → c'.detached = false

/-- A rotation that returns an error may leave the file detached. -/
theorem AfterRotation.failed {c c' : FileCore} {rc : ℤ} (h : FileInv libc c₀ c')
    (hprogress : c'.progress = c.progress) (hrc : rc ≠ 0) : AfterRotation libc c₀ c rc c' :=
  ⟨h, hprogress, fun hzero => absurd hzero hrc⟩

/-- Nothing has happened to a file that was attached. -/
theorem AfterRotation.unchanged {c c' : FileCore} (h : FileInv libc c₀ c)
    (hattached : c.detached = false) (hc : c' = c) (rc : ℤ) : AfterRotation libc c₀ c rc c' := by
  subst hc
  exact ⟨h, rfl, fun _ => hattached⟩

/-- Opening a file concerns no bytes. -/
theorem OpenedFrom.progress {c c' : FileCore} (hc : OpenedFrom c c') :
    c'.progress = c.progress := by
  rcases hc with rfl | ⟨-, rfl⟩ <;> rfl

/-- The second half of a rotation ends attached to the new active file, or with an error. -/
theorem switchActive_spec (h : FileInv libc c₀ w.core) (hdays : c₀.binding.retentionDays = 0)
    (t : Timespec) : wp (fileSafe libc c₀) (switchActive libc t)
      (fun rc w' => AfterRotation libc c₀ w.core rc w'.core) w := by
  have hfail : ∀ (candidate : Option ℕ) (rc : ℤ) (w₁ : FileWorld), FileInv libc c₀ w₁.core →
      w₁.core.progress = w.core.progress → rc ≠ 0 →
      wp (fileSafe libc c₀) (failSwitch candidate rc)
        (fun rc w' => AfterRotation libc c₀ w.core rc w'.core) w₁ := by
    intro candidate rc w₁ h₁ hprogress hrc
    refine wp_keeps_bind (loggerFdCloseStatus_keeps _) h₁ fun _ w₂ hw₂ => ?_
    refine wp_bind (wp_modify (wp_pure (.failed (h₁.of_core hw₂) ?_ hrc)))
    exact (congrArg FileCore.progress hw₂).trans hprogress
  refine wp_keeps_bind syncDirectory_keeps h fun rc w₁ hw₁ => ?_
  have h₁ := h.of_core hw₁
  have hp₁ := congrArg FileCore.progress hw₁
  refine wp_ite (hfail none rc w₁ h₁ hp₁) fun _ => ?_
  -- the day is read before the new file is opened
  refine wp_bind (wp_keeps_result (wallDay_keeps t.sec) h₁ ?_)
  rintro (rc | day) w₂ ⟨hw₂, hfailing⟩
  all_goals
    have h₂ := h₁.of_core hw₂
    have hp₂ := (congrArg FileCore.progress hw₂).trans hp₁
  · exact hfail none rc w₂ h₂ hp₂ (hfailing rc rfl).ne
  refine wp_bind (wp_mono (openCandidate_inv h₂ true) ?_)
  rintro (rc | ⟨fd, st⟩) w₃ ⟨hopening, hfailing'⟩
  all_goals
    have h₃ := hopening.opened.inv h₂
    have hp₃ := hopening.opened.progress.trans hp₂
  · exact hfail none rc w₃ h₃ hp₃ (hfailing' rc rfl).ne
  have hdir := hopening.active _ rfl
  refine wp_keeps_bind (syncData_keeps _) h₃ fun rc w₄ hw₄ => ?_
  have h₄ := h₃.of_core hw₄
  have hp₄ := (congrArg FileCore.progress hw₄).trans hp₃
  refine wp_ite (hfail (some fd) rc w₄ h₄ hp₄) fun _ => ?_
  refine wp_keeps_bind syncDirectory_keeps h₄ fun rc w₅ hw₅ => ?_
  have h₅ := h₄.of_core hw₅
  have hp₅ := (congrArg FileCore.progress hw₅).trans hp₄
  refine wp_ite (hfail (some fd) rc w₅ h₅ hp₅) fun _ => wp_getFile_bind (wp_bind (wp_modify ?_))
  -- the new file is installed: from here on the descriptor is the active file's
  have hinstalled : FileInv libc c₀ (w₅.core.install fd) := by
    apply h₅.install
    rw [hw₅, hw₄]
    exact hdir
  have hafter : ∀ (rc : ℤ) (c' : FileCore), c' = w₅.core.install fd →
      AfterRotation libc c₀ w.core rc c' := by
    rintro rc c' rfl
    exact ⟨hinstalled, hp₅, fun _ => rfl⟩
  refine wp_keeps_bind (loggerFdCloseStatus_keeps _) hinstalled fun rc w₆ hw₆ => ?_
  refine wp_ite (fun _ => wp_pure (hafter rc w₆.core hw₆)) fun _ => ?_
  refine wp_mono (retention_spec (hinstalled.of_core hw₆) hdays t.sec) ?_
  exact fun rc w₇ hw₇ => hafter rc w₇.core (hw₇.trans hw₆)

/-- A rotation keeps the stream, and ends attached unless it reports an error. -/
theorem rotateImpl_spec (h : FileInv libc c₀ w.core) (hdays : c₀.binding.retentionDays = 0)
    (hname : c₀.binding.name = c₀.binding.stem ++ c₀.binding.ext)
    (hattached : w.core.detached = false) : wp (fileSafe libc c₀) (rotateImpl libc)
      (fun rc w' => AfterRotation libc c₀ w.core rc w'.core) w := by
  have hstay : ∀ (rc : ℤ) (w' : FileWorld), w'.core = w.core →
      AfterRotation libc c₀ w.core rc w'.core :=
    fun rc w' hw' => .unchanged h hattached hw' rc
  refine wp_keeps_bind checkActive_keeps h fun rc w₁ hw₁ => ?_
  refine wp_ite (fun _ => wp_pure (hstay rc w₁ hw₁)) fun _ => ?_
  refine wp_keeps_bind call_keeps (h.of_core hw₁) fun clock w₂ hw₂ => ?_
  have h₂ : w₂.core = w.core := hw₂.trans hw₁
  refine wp_ite (fun _ => wp_pure (hstay _ w₂ h₂)) fun _ => ?_
  refine wp_bind (wp_mono (timestampValid_spec (h.of_core h₂) clock.time) ?_)
  rintro valid w₃ ⟨hw₃, -⟩
  have h₃ : w₃.core = w.core := hw₃.trans h₂
  refine wp_ite (fun _ => wp_pure (hstay _ w₃ h₃)) fun _ => ?_
  refine wp_bind (wp_mono (archiveStart_spec (h.of_core h₃) clock.time) ?_)
  rintro (rc | t) w₄ ⟨hw₄, hstart⟩
  · exact wp_pure (hstay rc w₄ (hw₄.trans h₃))
  obtain ⟨hmicro, hlast⟩ := hstart t rfl
  have h₄ : w₄.core = w.core := hw₄.trans h₃
  refine wp_keeps_bind loggerFileSync_keeps (h.of_core h₄) fun rc w₅ hw₅ => ?_
  have h₅ : w₅.core = w.core := hw₅.trans h₄
  refine wp_ite (fun _ => wp_pure (hstay rc w₅ h₅)) fun _ => ?_
  -- the time is later than the last archive, in the state as it is now
  rw [h₃, ← h₅] at hlast
  refine wp_bind (wp_mono (archiveRename_spec _ (h.of_core h₅) hmicro hlast) ?_)
  rintro (rc | t') w₆ hrenamed
  · exact wp_pure (hstay rc w₆ (hrenamed.trans h₅))
  refine wp_bind (wp_modify ?_)
  -- between the rename and the new state of the descriptor there is no call
  have hcut : FileInv libc c₀ (w₆.core.detach t') := by
    -- the archive cuts the stream
    rw [hrenamed.renamed]
    refine (h.of_core h₅).archive ?_ hrenamed.printable hrenamed.after_last hrenamed.active
      hrenamed.free
    rw [(h.of_core h₅).binding]
    exact hname
  have hprogress : (w₆.core.detach t').progress = w.core.progress := by
    rw [hrenamed.renamed, ← h₅]
    rfl
  -- the second half does not move the cut
  refine wp_mono (switchActive_spec hcut hdays t') ?_
  exact fun rc w₇ hafter => ⟨hafter.inv, hafter.progress.trans hprogress, hafter.attached⟩

/-- A rotation keeps the invariant, and a successful one leaves the file attached. -/
theorem rotate_spec (h : FileInv libc c₀ w.core) (hdays : c₀.binding.retentionDays = 0)
    (hname : c₀.binding.name = c₀.binding.stem ++ c₀.binding.ext)
    (hattached : w.core.detached = false) : wp (fileSafe libc c₀) (rotate libc)
      (fun rc w' => AfterRotation libc c₀ w.core rc w'.core) w := by
  refine wp_keeps_bind (countMetrics_keeps _) h fun _ w₁ hw₁ => ?_
  rw [← hw₁] at h hattached ⊢
  refine wp_bind (wp_mono (rotateImpl_spec h hdays hname hattached) ?_)
  intro rc w₂ h₂
  refine wp_ite (fun _ => ?_) fun _ => ?_
  all_goals exact wp_bind (wp_modify (wp_pure h₂))

/-- A detached file returns an error. -/
theorem LoggerFile.detachedError_ne_zero (f : LoggerFile) : f.detachedError ≠ 0 := by
  unfold LoggerFile.detachedError
  split
  · decide
  · rename_i hne
    exact neg_ne_zero.mpr hne

/-- A write goes ahead only through an attached descriptor. -/
theorem prepareWrite_spec (h : FileInv libc c₀ w.core) (hdays : c₀.binding.retentionDays = 0)
    (hname : c₀.binding.name = c₀.binding.stem ++ c₀.binding.ext) (n : ℕ) (t : Option Timespec) :
    wp (fileSafe libc c₀) (prepareWrite libc n t)
      (fun rc w' => AfterRotation libc c₀ w.core rc w'.core) w := by
  have hreject : ∀ rc : ℤ, rc ≠ 0 → AfterRotation libc c₀ w.core rc w.core :=
    fun rc hrc => .failed h rfl hrc
  refine wp_getFile_bind (wp_ite (fun _ => wp_pure (hreject _ (by decide))) fun _ => ?_)
  cases t with
  | none => exact wp_pure (hreject _ (by decide))
  | some t =>
    refine wp_ite (fun _ => wp_pure (hreject _ (by decide))) fun _ => ?_
    refine wp_ite (fun _ => wp_pure (hreject _ w.file.detachedError_ne_zero)) fun hdetached => ?_
    have hattached : w.core.detached = false := Bool.eq_false_iff.mpr hdetached
    have hstay : ∀ (rc : ℤ) (w' : FileWorld), w'.core = w.core →
        AfterRotation libc c₀ w.core rc w'.core :=
      fun rc w' hw' => .unchanged h hattached hw' rc
    refine wp_ite (fun _ => wp_pure (hstay _ w rfl)) fun _ => wp_ite (fun _ => ?_) fun _ => ?_
    · refine wp_keeps_bind (wallDay_keeps _) h fun r w₁ hw₁ => ?_
      cases r with
      | error rc => exact wp_pure (hstay rc w₁ hw₁)
      | ok d =>
        refine wp_ite (fun _ => ?_) fun _ => wp_pure (hstay _ w₁ hw₁)
        rw [← hw₁] at h hattached ⊢
        exact rotate_spec h hdays hname hattached
    · exact wp_ite (fun _ => rotate_spec h hdays hname hattached)
        fun _ => wp_pure (hstay _ w rfl)

/-! ### Write loops -/

/-- A write loop is under way: `rest` are the bytes of the call that the kernel has not taken, and
they go to the active file. -/
structure Writing (libc : Libc) (c₀ : FileCore) (fd : Option ℕ) (rest : List UInt8)
    (c : FileCore) : Prop where
  inv : FileInv libc c₀ c
  attached : c.detached = false
  fd_eq : c.fd = fd
  rest_eq : c.history.current.drop c.history.taken = rest

/-- A `write` appends what it has taken to the active file. -/
theorem writeCall_spec {fd : Option ℕ} {rest offered : List UInt8}
    (h : Writing libc c₀ fd rest w.core) (hoffered : offered <+: rest) :
    wp (fileSafe libc c₀) (writeCall fd offered)
      (fun r w' => match r with
        | .error _ => Writing libc c₀ fd rest w'.core
        | .ok k => Writing libc c₀ fd (rest.drop k) w'.core) w := by
  refine wp_ask h.inv fun a => ?_
  unfold FileWorld.writeAnswer
  cases fd with
  | none => exact h
  | some ino =>
    cases a.ok with
    | false => exact h
    | true =>
      have hlen : min a.count offered.length = (offered.take a.count).length :=
        List.length_take.symm
      have hnext : offered.take a.count <+: w.core.history.current.drop w.core.history.taken := by
        rw [h.rest_eq]
        exact (List.take_prefix _ _).trans hoffered
      refine ⟨?_, h.attached, h.fd_eq, ?_⟩
      · have happend := h.inv.append h.attached h.fd_eq hnext
        rw [FileCore.append, ← hlen] at happend
        exact happend
      · rw [← h.rest_eq, List.drop_drop]
        rfl

/-- The loop goes on with its invariant for what is left, or ends. -/
theorem afterWrite_spec {I : β → FileCore → Prop} {result : Except ℤ ℕ} {goOn : ℕ → β} {retry : β}
    (written : ℕ) (hI : ∀ b c, I b c → FileInv libc c₀ c)
    (hresult : match result with
      | .error _ => I retry w.core
      | .ok k => I (goOn k) w.core) :
    wp (fileSafe libc c₀) (afterWrite result goOn retry written)
      (fun r w' => r.elim (fun b => I b w'.core) (fun _ => fileSafe libc c₀ w')) w := by
  unfold afterWrite
  cases result with
  | error e =>
    refine wp_ite (fun _ => ?_) fun _ => ?_
    · exact wp_bind (wp_modify (wp_pure hresult))
    · exact wp_bind (wp_modify (wp_pure (hI _ _ hresult)))
  | ok k =>
    cases k with
    | zero => exact wp_bind (wp_modify (wp_pure (hI _ _ hresult)))
    | succ k => exact wp_pure hresult

/-- The loop over one buffer keeps the invariant. -/
theorem all_spec {fd : Option ℕ} {p : List UInt8} (h : Writing libc c₀ fd p w.core) :
    wp (fileSafe libc c₀) (all fd p) (fun _ w' => fileSafe libc c₀ w') w := by
  refine wp_iterate (fun (b : List UInt8 × ℕ) w => Writing libc c₀ fd b.1 w.core)
    (fun b w hb => hb.inv) ?_ h
  rintro ⟨p, written⟩ w hp
  refine wp_ite (fun _ => wp_pure hp.inv) fun _ => ?_
  refine wp_bind (wp_modify (wp_bind (wp_mono (writeCall_spec hp List.prefix_rfl) ?_)))
  intro result w₁ hresult
  refine afterWrite_spec (I := fun (b : List UInt8 × ℕ) c => Writing libc c₀ fd b.1 c) written
    (fun b c hb => hb.inv) ?_
  cases result <;> exact hresult

/-- So does the loop over vectors. -/
theorem vall_spec {fd : Option ℕ} {v : List (List UInt8)} (iovMax : ℕ)
    (h : Writing libc c₀ fd v.flatten w.core) :
    wp (fileSafe libc c₀) (vall fd iovMax v) (fun _ w' => fileSafe libc c₀ w') w := by
  refine wp_iterate (fun (b : List (List UInt8) × ℕ) w => Writing libc c₀ fd b.1.flatten w.core)
    (fun b w hb => hb.inv) ?_ h
  rintro ⟨v, written⟩ w hv
  rw [← flatten_dropWhile_isEmpty] at hv
  cases hdrop : v.dropWhile (·.isEmpty) with
  | nil =>
    simp only [hdrop]
    exact wp_pure hv.inv
  | cons x xs =>
    simp only [hdrop]
    rw [hdrop] at hv
    have hoffered : ((x :: xs).take iovMax).flatten <+: (x :: xs).flatten :=
      (List.take_prefix _ _).flatten
    refine wp_bind (wp_modify (wp_bind (wp_mono (writeCall_spec hv hoffered) ?_)))
    intro result w₁ hresult
    refine afterWrite_spec (I := fun (b : List (List UInt8) × ℕ) c =>
      Writing libc c₀ fd b.1.flatten c) written (fun b c hb => hb.inv) ?_
    cases result with
    | error e => exact hresult
    | ok k =>
      simp only [flatten_advanceVectors]
      exact hresult

/-! ### The calls -/

/-- So does the end of a write. -/
theorem finishWrite_spec {rc : ℤ} {output : FileProg (ℤ × ℕ)} (sync : Bool)
    (h : FileInv libc c₀ w.core)
    (houtput : rc = 0 → wp (fileSafe libc c₀) output (fun _ w' => fileSafe libc c₀ w') w) :
    wp (fileSafe libc c₀) (finishWrite rc output sync) (fun _ w' => fileSafe libc c₀ w') w := by
  have hwritten : wp (fileSafe libc c₀) (if rc = 0 then output else pure (rc, 0))
      (fun _ w' => fileSafe libc c₀ w') w := wp_ite houtput fun _ => wp_pure h
  refine wp_bind (wp_mono hwritten ?_)
  rintro ⟨rc, written⟩ w₁ h₁
  refine wp_keeps_bind (account_keeps _) h₁ fun _ w₂ hw₂ => ?_
  have h₂ := h₁.of_core hw₂
  have hsync : Keeps FileWorld.shape (fun _ => True)
      (if rc = 0 ∧ sync then loggerFileSync else pure rc) :=
    .ite (fun _ => loggerFileSync_keeps) fun _ => .pure trivial
  refine wp_keeps_bind hsync h₂ fun rc w₃ hw₃ => ?_
  refine wp_ite (fun _ => ?_) fun _ => ?_
  all_goals exact wp_bind (wp_modify (wp_pure (h₂.of_core hw₃)))

/-- `file_reopen_impl` keeps the invariant, and concerns no bytes. -/
theorem fileReopenImpl_spec (h : FileInv libc c₀ w.core) :
    wp (fileSafe libc c₀) (fileReopenImpl libc) (fun _ w' => fileSafe libc c₀ w') w := by
  refine wp_keeps_bind call_keeps h fun now w₁ hw₁ => ?_
  refine wp_keeps_bind (wallDay_keeps _) (h.of_core hw₁) fun r w₂ hw₂ => ?_
  have h₂ := (h.of_core hw₁).of_core hw₂
  cases r with
  | error rc => exact wp_pure h₂
  | ok day =>
    refine wp_bind (wp_mono (openCandidate_inv h₂ false) ?_)
    rintro (rc | ⟨fd, st⟩) w₃ ⟨hopening, -⟩
    all_goals have h₃ := hopening.opened.inv h₂
    · exact wp_pure h₃
    -- a managed file is synchronised before the switch, and its directory after it
    refine wp_getFile_bind ?_
    refine wp_keeps_bind (.ite (fun _ => syncData_keeps _) fun _ => .pure le_rfl) h₃
      fun rc w₄ hw₄ => ?_
    have h₄ := h₃.of_core hw₄
    have hdirectory : Keeps FileWorld.shape (fun _ => True)
        (if rc = 0 then syncDirectoryIfDirty else pure rc) :=
      .ite (fun _ => syncDirectoryIfDirty_keeps.mono fun _ _ => trivial) fun _ => .pure trivial
    refine wp_keeps_bind hdirectory h₄ fun rc w₅ hw₅ => ?_
    have h₅ := h₄.of_core hw₅
    refine wp_ite (fun _ => ?_) fun _ => wp_bind (wp_modify ?_)
    · refine wp_keeps_bind (loggerFdCloseStatus_keeps _) h₅ fun _ w₆ hw₆ => ?_
      exact wp_pure (h₅.of_core hw₆)
    -- the candidate has the active name, which is all that installing it needs
    · have hinstalled : FileInv libc c₀ (w₅.core.install fd) := by
        apply h₅.install
        rw [hw₅, hw₄]
        exact hopening.active _ rfl
      exact wp_keeps (loggerFdCloseStatus_keeps _) hinstalled
        fun _ w₆ hw₆ => hinstalled.of_core hw₆

/-- So does `logger_file_reopen`. -/
theorem loggerFileReopen_spec (h : FileInv libc c₀ w.core) :
    wp (fileSafe libc c₀) (loggerFileReopen libc) (fun _ w' => fileSafe libc c₀ w') w := by
  refine wp_getFile_bind (wp_ite (fun _ => wp_pure h) fun _ => ?_)
  refine wp_keeps_bind (countMetrics_keeps _) h fun _ w₁ hw₁ => ?_
  refine wp_bind (wp_mono (fileReopenImpl_spec (h.of_core hw₁)) fun rc w₂ h₂ => ?_)
  refine wp_ite (fun _ => ?_) fun _ => ?_
  all_goals exact wp_bind (wp_modify (wp_pure h₂))

/-- The state in which a write loop starts, once `prepare_write` has let it. -/
theorem AfterRotation.writing {c c' : FileCore} {bytes : List UInt8}
    (h : AfterRotation libc c₀ c 0 c') (hprogress : c.progress = (bytes, 0)) :
    Writing libc c₀ c'.fd bytes c' := by
  have hcurrent := h.progress.trans hprogress
  have hbytes : c'.history.current = bytes := congrArg Prod.fst hcurrent
  have htaken : c'.history.taken = 0 := congrArg Prod.snd hcurrent
  refine ⟨h.inv, h.attached rfl, rfl, ?_⟩
  rw [hbytes, htaken, List.drop_zero]

section Calls

variable (hdays : c₀.binding.retentionDays = 0)
  (hname : c₀.binding.name = c₀.binding.stem ++ c₀.binding.ext)
include hdays hname

/-- `logger_file_write` keeps the invariant, for every time and every answer. -/
theorem loggerFileWrite_spec {p : Iovec} (h : FileInv libc c₀ w.core)
    (hprogress : w.core.progress = (p.bytes, 0)) (t : Option Timespec) (sync : Bool) :
    wp (fileSafe libc c₀) (loggerFileWrite libc p t sync) (fun _ w' => fileSafe libc c₀ w') w := by
  refine wp_ite (fun _ => wp_pure h) fun _ => ?_
  refine wp_keeps_bind (countMetrics_keeps _) h fun _ w₁ hw₁ => ?_
  refine wp_bind (wp_mono (prepareWrite_spec (h.of_core hw₁) hdays hname p.len t) ?_)
  intro rc w₂ hafter
  refine wp_getFile_bind (finishWrite_spec sync hafter.inv ?_)
  rintro rfl
  exact all_spec (hafter.writing ((congrArg FileCore.progress hw₁).trans hprogress))

/-- So does `logger_file_writev`. -/
theorem loggerFileWritev_spec {v : List Iovec} (h : FileInv libc c₀ w.core)
    (hprogress : w.core.progress = ((v.map Iovec.bytes).flatten, 0)) (n : ℕ)
    (t : Option Timespec) (sync : Bool) : wp (fileSafe libc c₀) (loggerFileWritev libc v n t sync)
      (fun _ w' => fileSafe libc c₀ w') w := by
  refine wp_ite (fun _ => wp_pure h) fun _ => ?_
  refine wp_keeps_bind (countMetrics_keeps _) h fun _ w₁ hw₁ => ?_
  refine wp_bind (wp_mono (prepareWrite_spec (h.of_core hw₁) hdays hname n t) ?_)
  intro rc w₂ hafter
  refine wp_getFile_bind (finishWrite_spec sync hafter.inv ?_)
  rintro rfl
  exact vall_spec _ (hafter.writing ((congrArg FileCore.progress hw₁).trans hprogress))

/-- Every call keeps the invariant at every moment. -/
theorem fileOp_exec_spec (op : FileOp) (h : FileInv libc c₀ w.core) :
    wp (fileSafe libc c₀) (op.exec libc) (fun _ w' => fileSafe libc c₀ w') w := by
  have hbegin : FileInv libc c₀ (w.core.begin op.bytes) := h.begin op.bytes
  refine wp_bind (wp_modify ?_)
  cases op with
  | write p t synced => exact loggerFileWrite_spec hdays hname hbegin rfl t synced
  | writev v n t synced => exact loggerFileWritev_spec hdays hname hbegin rfl n t synced
  | sync => exact wp_keeps loggerFileSync_keeps hbegin fun _ w₁ hw₁ => hbegin.of_core hw₁
  | reopen => exact loggerFileReopen_spec hbegin

/-- Every sequence of calls keeps the invariant at every moment. -/
theorem runFileOps_spec (ops : List FileOp) (h : FileInv libc c₀ w.core) :
    wp (fileSafe libc c₀) (runFileOps libc ops) (fun _ w' => fileSafe libc c₀ w') w := by
  induction ops generalizing w with
  | nil => exact wp_pure h
  | cons op ops ih =>
    exact wp_bind (wp_mono (fileOp_exec_spec hdays hname op h) fun _ w₁ h₁ => ih h₁)

end Calls

end Specs

end CLogger
