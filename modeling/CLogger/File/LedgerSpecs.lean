import CLogger.File.Ledger

/-!
# What the functions of the file backend enter in the ledger

One lemma per function (`*_booked`): the invariant of the call holds at each of its system calls,
and the result tells what has been entered. Checks, clock readings and closes leave everything but
the metrics alone.
-/

namespace CLogger

open TapeProgram EventTrace

section Specs

variable {libc : Libc} {loud : FileEvent → Bool} {w₁ w : FileWorld} {α β : Type}

/-- Passing a function that changes nothing but the metrics. -/
theorem booked_pass {P : α → Prop} {m : FileProg α} {Q : α → FileWorld → Prop}
    (hm : Keeps FileWorld.frame P m) (h : Booked loud w₁ w)
    (hQ : ∀ a w', P a → w'.frame = w.frame → Q a w') : wp (Booked loud w₁) m Q w :=
  wp_of_keeps hm (fun _ hw' => h.of_frame hw') (fun _ _ => trivial) hQ

/-- Code outside the frame comes first, the rest follows with the books as they were. -/
theorem booked_bind {P : α → Prop} {m : FileProg α} {f : α → FileProg β}
    {Q : β → FileWorld → Prop} (hm : Keeps FileWorld.frame P m) (h : Booked loud w₁ w)
    (hf : ∀ a w', P a → w'.frame = w.frame → wp (Booked loud w₁) (f a) Q w') :
    wp (Booked loud w₁) (m >>= f) Q w := wp_bind (booked_pass hm h hf)

/-! ## Synchronisation -/

/-- States with one frame still have one after the same event. -/
theorem frame_note {w' : FileWorld} {e : FileEvent} (hframe : w'.frame = w.frame) :
    (w'.note e).frame = (w.note e).frame := congrArg (fun v : FileWorld => v.note e) hframe

/-- The loop of an `fsync`, of which a success is `D`. -/
theorem fsyncRetry_booked {m : FileProg Answer} {D : FileWorld → Prop} (h : Booked loud w₁ w)
    (hsync : ∀ w', w'.frame = w.frame → wp (Booked loud w₁) m
      (fun a w'' => if a.ok then D w'' else w''.frame = w.frame) w') :
    wp (Booked loud w₁) (fsyncRetry m)
      (fun r w' => match r with
        | none => D w'
        | some error => 0 < error ∧ w'.frame = w.frame) w := by
  refine wp_iterate (fun _ w' => w'.frame = w.frame) (fun _ w' hw' => h.of_frame hw') ?_ rfl
  intro _ w' hw'
  refine wp_bind (wp_mono (hsync w' hw') ?_)
  intro a w'' hw''
  refine wp_ite (fun hok => ?_) fun hok => ?_
  · rw [if_pos hok] at hw''
    exact wp_pure hw''
  rw [if_neg hok] at hw''
  refine wp_ite (fun _ => wp_pure hw'') fun _ => wp_pure ⟨?_, hw''⟩
  rw [if_neg a.errno_ne_zero]
  exact a.errno_pos

/-- The result of synchronising a file. -/
def DataSynced (fd : Option ℕ) (w w' : FileWorld) (rc : ℤ) : Prop :=
  (rc < 0 ∧ w'.frame = w.frame) ∨
    ∃ ino, fd = some ino ∧ rc = 0 ∧ w'.frame = (w.note (.fsync ino)).frame

/-- A successful `fsync` leaves one event, a failed one nothing. -/
theorem fsync_booked (h : Booked loud w₁ w) (fd : Option ℕ) : wp (Booked loud w₁) (fsync fd)
    (fun a w' => if a.ok then ∃ ino, fd = some ino ∧ w'.frame = (w.note (.fsync ino)).frame
      else w'.frame = w.frame) w := by
  refine wp_ask h fun a => ?_
  cases fd with
  | none => exact rfl
  | some ino =>
    cases hok : a.ok with
    | false => simp
    | true => simp

/-- Synchronising the data either has synchronised the inode or returns an error. -/
theorem syncData_booked (h : Booked loud w₁ w) (fd : Option ℕ) :
    wp (Booked loud w₁) (syncData fd) (fun rc w' => DataSynced fd w w' rc) w := by
  refine booked_bind (countMetrics_keeps _) h fun _ w₂ _ hw₂ => ?_
  have h₂ := h.of_frame hw₂
  have hloop := fsyncRetry_booked (w := w₂) (m := fsync fd) (D := fun w' =>
    ∃ ino, fd = some ino ∧ w'.frame = (w.note (.fsync ino)).frame) h₂ fun w' hw' => by
      refine wp_mono (fsync_booked (h₂.of_frame hw') fd) ?_
      intro a w'' hw''
      by_cases hok : a.ok
      · rw [if_pos hok] at hw'' ⊢
        obtain ⟨ino, hfd, hframe⟩ := hw''
        exact ⟨ino, hfd, hframe.trans (frame_note (hw'.trans hw₂))⟩
      · rw [if_neg hok] at hw'' ⊢
        exact hw''.trans hw'
  refine wp_bind (wp_mono hloop ?_)
  rintro (_ | error) w₃ hw₃
  · obtain ⟨ino, hfd, hframe⟩ := hw₃
    exact wp_pure (.inr ⟨ino, hfd, rfl, hframe⟩)
  · obtain ⟨herror, hframe⟩ := hw₃
    refine wp_bind (wp_modify (wp_pure (.inl ⟨neg_neg_of_pos herror, ?_⟩)))
    exact hframe.trans hw₂

/-- The state after the directory has been synchronised. -/
def FileWorld.dirSynced (w : FileWorld) : FileWorld :=
  { w.note .fsyncDir with file := { w.file with dirDirty := false } }

/-- The result of synchronising the directory. -/
def DirectorySynced (w w' : FileWorld) (rc : ℤ) : Prop :=
  (rc < 0 ∧ w'.frame = w.frame) ∨ (rc = 0 ∧ w'.frame = w.dirSynced.frame)

/-- Synchronising the directory either has synchronised it and cleared `dir_dirty`, or returns an
error. -/
theorem syncDirectory_booked (h : Booked loud w₁ w) :
    wp (Booked loud w₁) syncDirectory (fun rc w' => DirectorySynced w w' rc) w := by
  refine booked_bind (countMetrics_keeps _) h fun _ w₂ _ hw₂ => ?_
  have h₂ := h.of_frame hw₂
  have hloop := fsyncRetry_booked (w := w₂) (m := fsyncDirectory)
    (D := fun w' => w'.frame = (w.note .fsyncDir).frame) h₂ fun w' hw' => by
      refine wp_ask (h₂.of_frame hw') fun a => ?_
      cases hok : a.ok with
      | false => simpa [hok] using hw'
      | true => simpa [hok] using frame_note (hw'.trans hw₂)
  refine wp_bind (wp_mono hloop ?_)
  rintro (_ | error) w₃ hw₃
  · refine wp_bind (wp_modify (wp_pure (.inr ⟨rfl, ?_⟩)))
    exact congrArg (fun v : FileWorld => { v with file := { v.file with dirDirty := false } }) hw₃
  · obtain ⟨herror, hframe⟩ := hw₃
    refine wp_bind (wp_modify (wp_pure (.inl ⟨neg_neg_of_pos herror, ?_⟩)))
    exact hframe.trans hw₂

/-- Only entries that are no writes have been made. -/
def NoWrites (w w' : FileWorld) : Prop :=
  ∃ es, w'.trace = w.trace ++ es ∧ ∀ e ∈ es, e.isWrite = false

/-- What keeps the frame writes nothing. -/
theorem NoWrites.of_frame {w' : FileWorld} (hframe : w'.frame = w.frame) : NoWrites w w' :=
  ⟨[], by rw [FileWorld.trace_of_frame hframe, List.append_nil], nofun⟩

/-- An event that is no write writes nothing. -/
theorem NoWrites.note {w' : FileWorld} {e : FileEvent} (he : e.isWrite = false)
    (htrace : w'.trace = w.trace ++ [e]) : NoWrites w w' := ⟨[e], htrace, by simpa using he⟩

/-- Two steps that write nothing write nothing together. -/
theorem NoWrites.trans {w' w'' : FileWorld} (h : NoWrites w w') (h' : NoWrites w' w'') :
    NoWrites w w'' := by
  obtain ⟨es, htrace, hes⟩ := h
  obtain ⟨es', htrace', hes'⟩ := h'
  refine ⟨es ++ es', by rw [htrace', htrace, List.append_assoc], ?_⟩
  intro e he
  rcases List.mem_append.mp he with he | he
  · exact hes e he
  · exact hes' e he

/-- While nothing is written, what has been covered stays covered. -/
theorem NoWrites.writesSynced {w' : FileWorld} (h : NoWrites w w')
    (hsynced : WritesSynced w.trace) : WritesSynced w'.trace := by
  obtain ⟨es, htrace, hes⟩ := h
  rw [htrace]
  exact hsynced.append hes

/-- The trace grows. -/
theorem NoWrites.grown {w' : FileWorld} (h : NoWrites w w') : w.trace <+: w'.trace := by
  obtain ⟨es, htrace, -⟩ := h
  rw [htrace]
  exact List.prefix_append _ _

/-- Only entries that are no writes have been made, and the fields are as they were. -/
structure Quietly (w w' : FileWorld) : Prop where
  vitals : w'.vitals = w.vitals
  entries : NoWrites w w'

/-- What keeps the frame is quiet. -/
theorem Quietly.of_frame {w' : FileWorld} (hframe : w'.frame = w.frame) : Quietly w w' :=
  ⟨FileWorld.vitals_of_frame hframe, .of_frame hframe⟩

/-- Two quiet steps are quiet together. -/
theorem Quietly.trans {w' w'' : FileWorld} (h : Quietly w w') (h' : Quietly w' w'') :
    Quietly w w'' := ⟨h'.vitals.trans h.vitals, h.entries.trans h'.entries⟩

/-- A quiet step neither detaches the file nor attaches it. -/
theorem Quietly.detached {w' : FileWorld} (h : Quietly w w') :
    w'.file.detached = w.file.detached := congrArg (fun v => v.1.detached) h.vitals

/-- It keeps the descriptor. -/
theorem Quietly.fd {w' : FileWorld} (h : Quietly w w') : w'.file.fd = w.file.fd :=
  congrArg (fun v => v.1.fd) h.vitals

/-- It keeps the active file. -/
theorem Quietly.active {w' : FileWorld} (h : Quietly w w') : w'.active = w.active :=
  congrArg Prod.snd h.vitals

/-- A quiet step that keeps the ledger keeps the books. -/
theorem Booked.quietly {w' : FileWorld} (h : Booked loud w₁ w) (hinv : LedgerInv w')
    (hquiet : Quietly w w') : Booked loud w₁ w' :=
    h.step hinv hquiet.entries.grown (.inr hquiet.vitals)

/-- An event that is no write is quiet. -/
theorem quietly_note {e : FileEvent} (he : e.isWrite = false) : Quietly w (w.note e) :=
  ⟨rfl, .note he rfl⟩

/-- Synchronising the data keeps the books, quietly. -/
theorem DataSynced.booked {fd : Option ℕ} {w' : FileWorld} {rc : ℤ} (hdone : DataSynced fd w w' rc)
    (h : Booked loud w₁ w) : Booked loud w₁ w' ∧ Quietly w w' := by
  rcases hdone with ⟨-, hframe⟩ | ⟨ino, -, -, hframe⟩
  · exact ⟨h.of_frame hframe, .of_frame hframe⟩
  · have hquiet : Quietly w (w.note (.fsync ino)) := quietly_note rfl
    have hnoted := h.quietly (h.inv.side ⟨rfl, rfl, rfl, fun _ => rfl⟩) hquiet
    exact ⟨hnoted.of_frame hframe, hquiet.trans (.of_frame hframe)⟩

/-- So does synchronising the directory, which is covered if it succeeds. -/
theorem DirectorySynced.booked {w' : FileWorld} {rc : ℤ} (hdone : DirectorySynced w w' rc)
    (h : Booked loud w₁ w) : Booked loud w₁ w' ∧ Quietly w w' ∧ rc ≤ 0 ∧
      (rc = 0 → DirSynced w'.trace ∧ w'.file.dirDirty = false) := by
  rcases hdone with ⟨hrc, hframe⟩ | ⟨hrc, hframe⟩
  · exact ⟨h.of_frame hframe, .of_frame hframe, hrc.le, fun hzero => absurd hzero hrc.ne⟩
  · have hquiet : Quietly w w.dirSynced := ⟨rfl, .note (e := .fsyncDir) rfl rfl⟩
    have hnoted := h.quietly h.inv.fsyncDir hquiet
    refine ⟨hnoted.of_frame hframe, hquiet.trans (.of_frame hframe), hrc.le, fun _ => ⟨?_, ?_⟩⟩
    · rw [FileWorld.trace_of_frame hframe]
      exact dirSynced_fsyncDir w.trace
    · rw [FileWorld.file_of_frame hframe]
      rfl

/-- Synchronising the current file covers every write. -/
theorem DataSynced.writesSynced {w' : FileWorld} {rc : ℤ} (hdone : DataSynced w.file.fd w w' rc)
    (h : LedgerInv w) (hrc : rc = 0) : WritesSynced w'.trace := by
  rcases hdone with ⟨hlt, -⟩ | ⟨ino, hfd, -, hframe⟩
  · exact absurd hrc hlt.ne
  · rw [FileWorld.trace_of_frame hframe]
    have hledger := h.ledger
    rw [hfd] at hledger
    exact hledger.writesSynced

/-- After a success `dir_dirty` is clear, and the directory has been covered if it was set. -/
theorem syncDirectoryIfDirty_booked (h : Booked loud w₁ w) :
    wp (Booked loud w₁) syncDirectoryIfDirty (fun rc w' => Booked loud w₁ w' ∧ Quietly w w' ∧
      rc ≤ 0 ∧ (rc = 0 → w'.file.dirDirty = false ∧
        (w.file.dirDirty = true → DirSynced w'.trace))) w := by
  refine wp_getFile_bind (wp_ite (fun hdirty => ?_) fun hclean => wp_pure ?_)
  · refine wp_mono (syncDirectory_booked h) ?_
    intro rc w' hdone
    obtain ⟨h', hquiet, hrc, hsynced⟩ := hdone.booked h
    exact ⟨h', hquiet, hrc, fun hzero => ⟨(hsynced hzero).2, fun _ => (hsynced hzero).1⟩⟩
  · exact ⟨h, .of_frame rfl, le_rfl, fun _ => ⟨Bool.eq_false_iff.mpr hclean,
      fun hdirty => absurd hdirty hclean⟩⟩

/-- What `logger_file_sync` promises when it returns 0. -/
structure FileSynced (w : FileWorld) : Prop where
  writes : WritesSynced w.trace
  clean : w.file.dirDirty = false
  attached : w.file.detached = false

/-- `logger_file_sync` that returns 0 has covered the file. -/
theorem loggerFileSync_booked (h : Booked loud w₁ w) :
    wp (Booked loud w₁) loggerFileSync
      (fun rc w' => Booked loud w₁ w' ∧ Quietly w w' ∧ (rc = 0 → FileSynced w')) w := by
  -- a broken descriptor is refused before any call
  refine wp_getFile_bind (wp_ite (fun _ => wp_pure ⟨h, .of_frame rfl, nofun⟩) fun _ => ?_)
  refine wp_bind (wp_mono (syncData_booked h w.file.fd) ?_)
  intro rc w₂ hdone
  obtain ⟨h₂, hquiet₂⟩ := hdone.booked h
  -- the directory is synchronised only after the data
  have hdir : wp (Booked loud w₁) (if rc = 0 then syncDirectoryIfDirty else pure rc)
      (fun rc' w' => Booked loud w₁ w' ∧ Quietly w w' ∧
        (rc' = 0 → WritesSynced w'.trace ∧ w'.file.dirDirty = false)) w₂ := by
    refine wp_ite (fun hzero => ?_) fun hne => wp_pure ⟨h₂, hquiet₂, fun hzero => absurd hzero hne⟩
    refine wp_mono (syncDirectoryIfDirty_booked h₂) ?_
    rintro rc' w' ⟨h', hquiet, -, hsynced⟩
    refine ⟨h', hquiet₂.trans hquiet, fun hzero' => ⟨?_, (hsynced hzero').1⟩⟩
    exact hquiet.entries.writesSynced (hdone.writesSynced h.inv hzero)
  refine wp_bind (wp_mono hdir ?_)
  rintro rc' w₃ ⟨h₃, hquiet₃, hsynced⟩
  refine wp_getFile_bind (booked_bind (countMetrics_keeps _) h₃ fun _ w₄ _ hw₄ => wp_pure ?_)
  refine ⟨h₃.of_frame hw₄, hquiet₃.trans (.of_frame hw₄), ?_⟩
  intro hzero
  -- a detached descriptor turns the success into an error
  have hattached : ¬ (rc' = 0 ∧ w₃.file.detached = true) := by
    intro hboth
    rw [if_pos hboth] at hzero
    exact w₃.file.detachedError_ne_zero hzero
  rw [if_neg hattached] at hzero
  obtain ⟨hwrites, hclean⟩ := hsynced hzero
  refine ⟨?_, ?_, ?_⟩
  · rw [FileWorld.trace_of_frame hw₄]
    exact hwrites
  · rw [FileWorld.file_of_frame hw₄]
    exact hclean
  · rw [FileWorld.file_of_frame hw₄]
    exact Bool.eq_false_iff.mpr fun hdetached => hattached ⟨hzero, hdetached⟩

/-! ## Opening the active file -/

/-- Every event is loud, or one has been: what the step does to the fields does not matter. -/
def Excused (loud : FileEvent → Bool) (w₁ w : FileWorld) : Prop :=
  (∀ e, loud e) ∨ Stirred loud w₁ w

/-- An excuse stays one while the trace grows. -/
theorem Excused.of_prefix {w' : FileWorld} (h : Excused loud w₁ w) (hgrown : w.trace <+: w'.trace) :
    Excused loud w₁ w' := h.imp id fun hstirred => hstirred.of_prefix hgrown

/-- An event after which the fields do not matter. -/
theorem Excused.stirred {w' : FileWorld} {e : FileEvent} (h : Excused loud w₁ w)
    (hbooked : Booked loud w₁ w) (htrace : w'.trace = w.trace ++ [e]) : Stirred loud w₁ w' := by
  rcases h with hall | hstirred
  · exact hbooked.stirred (hall e) htrace
  · refine hstirred.of_prefix ?_
    rw [htrace]
    exact List.prefix_append _ _

/-- The active file may have been created on the way. -/
def MayCreate (w w' : FileWorld) : Prop :=
  w'.frame = w.frame ∨ w.active = none ∧ w'.frame =
    FileWorld.frame { w.note (.create w.disk.nextIno) with
      disk := w.disk.create w.file.binding.name }

/-- The creation of an entry keeps the books, if there is an excuse for it. -/
theorem MayCreate.booked {w' : FileWorld} (hmay : MayCreate w w') (h : Booked loud w₁ w)
    (hexcused : Excused loud w₁ w) : Booked loud w₁ w' := by
  rcases hmay with hframe | ⟨hnone, hframe⟩
  · exact h.of_frame hframe
  · refine Booked.of_frame (h.step (h.inv.create hnone) (List.prefix_append _ _) (.inl ?_)) hframe
    exact hexcused.stirred h rfl

/-- The creation of an entry keeps the fields of the file. -/
theorem MayCreate.file {w' : FileWorld} (hmay : MayCreate w w') : w'.file = w.file := by
  rcases hmay with hframe | ⟨-, hframe⟩
  · exact FileWorld.file_of_frame hframe
  · have hfile := FileWorld.file_of_frame hframe
    exact hfile

/-- It writes nothing. -/
theorem MayCreate.entries {w' : FileWorld} (hmay : MayCreate w w') : NoWrites w w' := by
  rcases hmay with hframe | ⟨-, hframe⟩
  · exact .of_frame hframe
  · have htrace := FileWorld.trace_of_frame hframe
    exact .note (e := .create w.disk.nextIno) rfl htrace

/-- The answer to `openat` creates at most the active entry, and a success opens the inode behind
it. -/
theorem openAnswer_mayCreate (w : FileWorld) (create exclusive : Bool) (a : Answer) :
    MayCreate w (w.openAnswer create exclusive a).2 ∧
      ∀ ino, (w.openAnswer create exclusive a).1 = .ok ino →
        (w.openAnswer create exclusive a).2.active = some ino := by
  unfold FileWorld.openAnswer
  cases hdir : w.disk.dir w.file.binding.name with
  | some ino =>
    simp only
    split_ifs
    · exact ⟨.inl rfl, nofun⟩
    · exact ⟨.inl rfl, nofun⟩
    · refine ⟨.inl rfl, fun ino' hino' => ?_⟩
      rw [← Except.ok.inj hino']
      exact hdir
  | none =>
    simp only
    split_ifs
    · exact ⟨.inl rfl, nofun⟩
    · exact ⟨.inl rfl, nofun⟩
    · refine ⟨.inr ⟨hdir, rfl⟩, fun ino' hino' => ?_⟩
      rw [← Except.ok.inj hino']
      exact Disk.dir_create_self
    · exact ⟨.inr ⟨hdir, rfl⟩, nofun⟩
    · exact ⟨.inl rfl, nofun⟩

/-- What opening a candidate leaves: it is the active file, and its directory entry is yet to be
synchronised. -/
structure Opened (w w' : FileWorld) (r : Except ℤ (ℕ × Stat)) : Prop where
  detached : w'.file.detached = w.file.detached
  fd_eq : w'.file.fd = w.file.fd
  entries : NoWrites w w'
  failing : Failing r
  active : ∀ fd st, r = .ok (fd, st) → w'.active = some fd ∧ w'.file.dirDirty = true

/-- Opening a candidate keeps the books and says what has been opened. -/
theorem openCandidate_booked (h : Booked loud w₁ w) (hexcused : Excused loud w₁ w)
    (exclusive : Bool) :
    wp (Booked loud w₁) (openCandidate exclusive)
      (fun r w' => Booked loud w₁ w' ∧ Opened w w' r) w := by
  refine booked_bind checkOwner_keeps h fun rc w₂ hle hw₂ => ?_
  have h₂ := h.of_frame hw₂
  have hfile₂ := FileWorld.file_of_frame hw₂
  refine wp_ite (fun hrc => wp_pure ?_) fun _ => ?_
  · exact ⟨h₂, by rw [hfile₂], by rw [hfile₂], .of_frame hw₂,
      .error (lt_of_le_of_ne hle hrc), nofun⟩
  -- nothing has been opened so far
  refine wp_getFile_bind (wp_bind (wp_ask h₂ fun a => ?_))
  obtain ⟨hmay, hactive⟩ := openAnswer_mayCreate w₂ w₂.file.binding.managed exclusive a
  have herror := (openAnswer_opening w₂ w₂.file.binding.managed exclusive a).2
  generalize w₂.openAnswer w₂.file.binding.managed exclusive a = answer at hmay hactive herror
  obtain ⟨r, w₃⟩ := answer
  have hexcused₂ : Excused loud w₁ w₂ :=
    hexcused.of_prefix (by rw [FileWorld.trace_of_frame hw₂])
  have h₃ := hmay.booked h₂ hexcused₂
  have hfile₃ : w₃.file = w.file := hmay.file.trans hfile₂
  have hentries₃ : NoWrites w w₃ := (NoWrites.of_frame hw₂).trans hmay.entries
  -- nothing but the metrics changes from here on, and the mark of the directory
  have hreject : ∀ (w₄ : FileWorld) (rc : ℤ), w₄.frame = w₃.frame → rc < 0 →
      Booked loud w₁ w₄ ∧ Opened w w₄ (.error rc) := by
    intro w₄ rc hw₄ hrc
    have hfile₄ := (FileWorld.file_of_frame hw₄).trans hfile₃
    exact ⟨h₃.of_frame hw₄, by rw [hfile₄], by rw [hfile₄], hentries₃.trans (.of_frame hw₄),
      .error hrc, nofun⟩
  cases r with
  | error e => exact wp_pure (hreject w₃ (-e) rfl (neg_neg_of_pos (herror e rfl)))
  | ok fd =>
    refine booked_bind (checkNamedFd_keeps _ _) h₃ fun r w₄ hfailing hw₄ => ?_
    have h₄ := h₃.of_frame hw₄
    cases r with
    | error rc =>
      refine booked_bind (loggerFdCloseStatus_keeps _) h₄ fun _ w₅ _ hw₅ => wp_pure ?_
      exact hreject w₅ rc (hw₅.trans hw₄) (hfailing rc rfl)
    | ok st =>
      -- the candidate is not the file that is expected
      refine wp_ite (fun hrc => ?_) fun _ => ?_
      · refine booked_bind (loggerFdCloseStatus_keeps _) h₄ fun _ w₅ _ hw₅ => wp_pure ?_
        refine hreject w₅ _ (hw₅.trans hw₄) (lt_of_le_of_ne ?_ hrc)
        split_ifs
        · exact regularSingleLink_nonpos st
        · exact le_rfl
        · decide
      · have hfile₄ := (FileWorld.file_of_frame hw₄).trans hfile₃
        have hdetached : w₄.file.detached = w.file.detached := by rw [hfile₄]
        have hfd : w₄.file.fd = w.file.fd := by rw [hfile₄]
        have hentries₄ : NoWrites w w₄ := hentries₃.trans (.of_frame hw₄)
        have hactive₄ : w₄.active = w₃.active :=
          congrArg Prod.snd (FileWorld.vitals_of_frame hw₄)
        -- a managed candidate leaves the directory marked, so that it is synchronised later
        have hmarked := h₄.inv.mark (w := w₄) (d := w₄.file.dirDirty || w₄.file.binding.managed)
          fun hdirty => by rw [hdirty]; rfl
        refine wp_bind (wp_modify (wp_pure ⟨?_, hdetached, hfd, hentries₄, .ok _, ?_⟩))
        · exact h₄.step hmarked List.prefix_rfl (.inr rfl)
        · rintro fd' st' heq
          obtain ⟨rfl, rfl⟩ := Prod.mk.inj (Except.ok.inj heq)
          refine ⟨hactive₄.trans (hactive fd rfl), ?_⟩
          show (w₄.file.dirDirty || w₄.file.binding.managed) = true
          rw [h₄.inv.managed, Bool.or_true]

/-! ## Rotation -/

/-- What the attempts to archive have done: nothing, or the active file has been moved. -/
def ArchiveTried (w w' : FileWorld) (r : Except ℤ Timespec) : Prop :=
  match r with
  | .error rc => rc < 0 ∧ w'.frame = w.frame
  | .ok _ => ∃ ino name, w.active = some ino ∧ w'.file = w.file ∧
      w'.disk = w.disk.rename w.file.binding.name name ∧ w'.trace = w.trace ++ [.rename ino name]

/-- The search for a name may start after code outside the frame. -/
theorem ArchiveTried.of_frame {w₀ w' : FileWorld} {r : Except ℤ Timespec}
    (h : ArchiveTried w w' r) (hframe : w.frame = w₀.frame) : ArchiveTried w₀ w' r := by
  cases r with
  | error rc => exact ⟨h.1, h.2.trans hframe⟩
  | ok t =>
    obtain ⟨ino, name, hactive, hfile, hdisk, htrace⟩ := h
    have hfile₀ := FileWorld.file_of_frame hframe
    have hdisk₀ := FileWorld.disk_of_frame hframe
    refine ⟨ino, name, ?_, hfile.trans hfile₀, ?_, ?_⟩
    · rw [← hactive, FileWorld.active, FileWorld.active, hfile₀, hdisk₀]
    · rw [hdisk, hdisk₀, hfile₀]
    · rw [htrace, FileWorld.trace_of_frame hframe]

/-- The search for a name renames the active file once, or not at all. -/
theorem archiveRename_booked (n : ℕ) (t : Timespec) (h : Booked loud w₁ w) :
    wp (Booked loud w₁) (archiveRename libc n t) (fun r w' => ArchiveTried w w' r) w := by
  induction n generalizing t w with
  | zero => exact wp_pure ⟨by decide, rfl⟩
  | succ n ih =>
    refine booked_bind (archiveName_keeps t) h fun r w₂ hfailing hw₂ => ?_
    have h₂ := h.of_frame hw₂
    cases r with
    | error rc => exact wp_pure ⟨hfailing rc rfl, hw₂⟩
    | ok name =>
      refine wp_bind (wp_ask h₂ fun a => ?_)
      rcases renameAnswer_cases w₂ name a with ⟨e, he, hrename⟩ | ⟨ino, hactive, -, hrename⟩
      · rw [hrename]
        refine wp_ite (fun _ => wp_pure ⟨neg_neg_of_pos he, hw₂⟩) fun _ => ?_
        refine booked_bind (advanceMicrosecond_keeps t) h₂ fun r w₃ hfailing hw₃ => ?_
        have hw₃' : w₃.frame = w.frame := hw₃.trans hw₂
        cases r with
        | error rc => exact wp_pure ⟨hfailing rc rfl, hw₃'⟩
        | ok t' =>
          refine wp_mono (ih t' (h.of_frame hw₃')) ?_
          exact fun r w' htried => htried.of_frame hw₃'
      · rw [hrename]
        have htried : ArchiveTried w₂ { w₂.note (.rename ino name) with
            disk := w₂.disk.rename w₂.file.binding.name name
            history := { w₂.history with archives := w₂.history.archives ++ [name] } } (.ok t) :=
          ⟨ino, name, hactive, rfl, rfl, rfl⟩
        exact wp_pure (htried.of_frame hw₂)

/-- The names that retention deletes are longer than the active name. -/
theorem archiveMatches_ne {b : FileBinding} {name : CString} (hname : b.name = b.stem ++ b.ext)
    (hmatches : b.archiveMatches name = true) : b.name ≠ name := by
  rintro rfl
  simp only [FileBinding.archiveMatches, Bool.and_eq_true, decide_eq_true_eq] at hmatches
  have hlen := hmatches.1.1.1.1
  rw [hname, List.length_append] at hlen
  omega

/-- Retention removes entries, which no part of the books rests on. -/
theorem retentionStep_booked (now : ℤ) (changed : Bool) (h : Booked loud w₁ w) :
    wp (Booked loud w₁) (retentionStep now changed)
      (fun _ w' => Booked loud w₁ w' ∧ Quietly w w') w := by
  -- most exits have done nothing that is seen
  have hstay : ∀ w', w'.frame = w.frame → Booked loud w₁ w' ∧ Quietly w w' :=
    fun w' hw' => ⟨h.of_frame hw', .of_frame hw'⟩
  refine wp_getFile_bind (booked_bind call_keeps h fun a w₂ _ hw₂ => ?_)
  cases a.entry with
  | none => exact wp_pure (hstay w₂ hw₂)
  | some name =>
    refine wp_ite (fun _ => wp_pure (hstay w₂ hw₂)) fun hmatches => ?_
    refine booked_bind (fstatat_keeps name) (h.of_frame hw₂) fun r w₃ _ hw₃ => ?_
    have hw₃' : w₃.frame = w.frame := hw₃.trans hw₂
    have h₃ := h.of_frame hw₃'
    cases r with
    | error e => exact wp_pure (hstay w₃ hw₃')
    | ok st =>
      refine wp_ite (fun _ => wp_pure (hstay w₃ hw₃')) fun _ => ?_
      refine wp_ite (fun _ => wp_pure (hstay w₃ hw₃')) fun _ => ?_
      refine wp_bind (wp_ask h₃ fun a => ?_)
      unfold FileWorld.unlinkAnswer
      cases a.ok with
      | false => exact wp_pure (hstay w₃ hw₃')
      | true =>
        cases hsome : (w₃.disk.dir name).isSome with
        | false =>
          simp only [Bool.not_true, Bool.false_eq_true, if_false]
          exact wp_pure (hstay w₃ hw₃')
        | true =>
          simp only [Bool.not_true, Bool.false_eq_true, if_false, if_true]
          -- an archive name is not the active one
          have hne : w₃.file.binding.name ≠ name := by
            rw [FileWorld.file_of_frame hw₃']
            exact archiveMatches_ne h.inv.name (by simpa using hmatches)
          have hquiet : Quietly w₃ { w₃.note (.unlink name) with disk := w₃.disk.unlink name } := by
            refine ⟨?_, .note (e := .unlink name) rfl rfl⟩
            exact Prod.ext rfl (Function.update_of_ne hne ..)
          have hunlinked := h₃.quietly (h₃.inv.unlink hne) hquiet
          refine wp_bind (wp_modify (wp_pure ⟨hunlinked.of_frame rfl, ?_⟩))
          exact ((Quietly.of_frame hw₃').trans hquiet).trans (.of_frame rfl)

/-- So the whole scan is quiet. -/
theorem retention_booked (now : ℤ) (h : Booked loud w₁ w) :
    wp (Booked loud w₁) (retention now) (fun _ w' => Booked loud w₁ w' ∧ Quietly w w') w := by
  have hstay : ∀ w', w'.frame = w.frame → Booked loud w₁ w' ∧ Quietly w w' :=
    fun w' hw' => ⟨h.of_frame hw', .of_frame hw'⟩
  refine wp_getFile_bind (wp_ite (fun _ => wp_pure (hstay w rfl)) fun _ => ?_)
  refine booked_bind call_keeps h fun dir w₂ _ hw₂ => ?_
  refine wp_ite (fun _ => wp_pure (hstay w₂ hw₂)) fun _ => ?_
  refine booked_bind call_keeps (h.of_frame hw₂) fun scan w₃ _ hw₃ => ?_
  have hw₃' : w₃.frame = w.frame := hw₃.trans hw₂
  refine wp_ite (fun _ => ?_) fun _ => ?_
  · refine booked_bind call_keeps (h.of_frame hw₃') fun _ w₄ _ hw₄ => ?_
    exact wp_pure (hstay w₄ (hw₄.trans hw₃'))
  -- the loop keeps what its step keeps
  have hloop : wp (Booked loud w₁) (Prog.iterate (retentionStep now) false)
      (fun _ w' => Booked loud w₁ w' ∧ Quietly w w') w₃ := by
    refine wp_iterate (fun _ w' => Booked loud w₁ w' ∧ Quietly w w') (fun _ _ h' => h'.1) ?_
      (hstay w₃ hw₃')
    rintro changed w' ⟨h', hquiet'⟩
    refine wp_mono (retentionStep_booked now changed h') ?_
    rintro (changed' | r) w'' ⟨h'', hquiet''⟩
    · exact ⟨h'', hquiet'.trans hquiet''⟩
    · exact ⟨h'', hquiet'.trans hquiet''⟩
  refine wp_bind (wp_mono hloop ?_)
  rintro ⟨rc, changed⟩ w₄ ⟨h₄, hquiet₄⟩
  refine booked_bind call_keeps h₄ fun closed w₅ _ hw₅ => ?_
  have h₅ := h₄.of_frame hw₅
  have hquiet₅ := hquiet₄.trans (.of_frame hw₅)
  -- the directory is marked before it is synchronised
  refine wp_ite (fun _ => wp_bind (wp_modify ?_)) fun _ => wp_pure ⟨h₅, hquiet₅⟩
  have hmarked := h₅.step (h₅.inv.mark fun _ => rfl) List.prefix_rfl (.inr rfl)
  have hquiet₆ : Quietly w₅ { w₅ with file := { w₅.file with dirDirty := true } } :=
    ⟨rfl, [], (List.append_nil _).symm, nofun⟩
  refine wp_bind (wp_mono (syncDirectory_booked hmarked) ?_)
  intro synced w₇ hdone
  obtain ⟨h₇, hquiet₇, -⟩ := hdone.booked hmarked
  exact wp_pure ⟨h₇, (hquiet₅.trans hquiet₆).trans hquiet₇⟩

/-- What a rotation leaves: it is attached unless it reports an error. -/
def RotationBooked (loud : FileEvent → Bool) (w₁ : FileWorld) (rc : ℤ) (w : FileWorld) : Prop :=
  Booked loud w₁ w ∧ (rc = 0 → w.file.detached = false)

/-- A switch that fails after the rename detaches the file and returns an error. -/
theorem failSwitch_booked (h : Booked loud w₁ w) (hexcused : Stirred loud w₁ w)
    (candidate : Option ℕ) {rc : ℤ} (hrc : rc < 0) :
    wp (Booked loud w₁) (failSwitch candidate rc) (RotationBooked loud w₁) w := by
  refine booked_bind (loggerFdCloseStatus_keeps _) h fun _ w₂ _ hw₂ => ?_
  have h₂ := h.of_frame hw₂
  have hstirred₂ : Stirred loud w₁ w₂ :=
    hexcused.of_prefix (by rw [FileWorld.trace_of_frame hw₂])
  have hrecorded := h₂.step (h₂.inv.setSwitchError (neg_pos.mpr hrc)) List.prefix_rfl
    (.inl (hstirred₂.of_prefix List.prefix_rfl))
  exact wp_bind (wp_modify (wp_pure ⟨hrecorded, fun hzero => absurd hzero hrc.ne⟩))

/-- The descriptor of the active file is installed once everything is synchronised. -/
theorem installFd_booked (h : Booked loud w₁ w) (hexcused : Excused loud w₁ w) {fd : ℕ}
    (hactive : w.active = some fd) (hwrites : WritesSynced w.trace) (hdir : DirSynced w.trace)
    (st : Stat) (day : ℤ) :
    wp (Booked loud w₁) (installFd fd st day)
      (fun _ w' => Booked loud w₁ w' ∧ w'.file.detached = false) w := by
  have hinstalled : Booked loud w₁ { w.note (.install w.file.fd fd) with
      file := { w.file with
        fd := some fd, device := st.dev, inode := st.ino
        currentSize := if w.file.binding.managed then st.size.toNat else 0
        currentDay := day, detached := false, switchError := 0 } } := by
    refine h.step ?_ (List.prefix_append _ _) (.inl (hexcused.stirred h rfl))
    exact h.inv.install st hactive hwrites hdir rfl rfl rfl
  exact wp_modify ⟨hinstalled, rfl⟩

/-- The second half of a rotation. -/
theorem switchActive_booked (h : Booked loud w₁ w) (hstirred : Stirred loud w₁ w)
    (hwrites : WritesSynced w.trace) (t : Timespec) :
    wp (Booked loud w₁) (switchActive libc t) (RotationBooked loud w₁) w := by
  refine wp_bind (wp_mono (syncDirectory_booked h) ?_)
  intro rc w₂ hdone
  obtain ⟨h₂, hquiet₂, hle, -⟩ := hdone.booked h
  -- the rename is still in the trace
  have hstirred₂ := hstirred.of_prefix hquiet₂.entries.grown
  refine wp_ite (fun hne => failSwitch_booked h₂ hstirred₂ none (lt_of_le_of_ne hle hne))
    fun _ => ?_
  refine booked_bind (wallDay_keeps t.sec) h₂ fun r w₃ hfailing hw₃ => ?_
  have h₃ := h₂.of_frame hw₃
  have hentries₃ : NoWrites w w₃ := hquiet₂.entries.trans (.of_frame hw₃)
  have hstirred₃ := hstirred.of_prefix hentries₃.grown
  cases r with
  | error rc => exact failSwitch_booked h₃ hstirred₃ none (hfailing rc rfl)
  | ok day =>
    refine wp_bind (wp_mono (openCandidate_booked h₃ (.inr hstirred₃) true) ?_)
    rintro (rc | ⟨fd, st⟩) w₄ ⟨h₄, hopened⟩
    all_goals have hentries₄ := hentries₃.trans hopened.entries
    all_goals have hstirred₄ := hstirred.of_prefix hentries₄.grown
    · exact failSwitch_booked h₄ hstirred₄ none (hopened.failing rc rfl)
    -- from here on the candidate is the active file, and it may only be synchronised
    obtain ⟨hactive, -⟩ := hopened.active fd st rfl
    refine wp_bind (wp_mono (syncData_booked h₄ (some fd)) ?_)
    intro rc w₅ hdata
    obtain ⟨h₅, hquiet₅⟩ := hdata.booked h₄
    have hentries₅ := hentries₄.trans hquiet₅.entries
    have hstirred₅ := hstirred.of_prefix hentries₅.grown
    refine wp_ite (fun hne => ?_) fun _ => ?_
    · refine failSwitch_booked h₅ hstirred₅ (some fd) ?_
      rcases hdata with ⟨hlt, -⟩ | ⟨ino, -, hzero, -⟩
      · exact hlt
      · exact absurd hzero hne
    refine wp_bind (wp_mono (syncDirectory_booked h₅) ?_)
    intro rc w₆ hdir
    obtain ⟨h₆, hquiet₆, hle₆, hsynced⟩ := hdir.booked h₅
    have hentries₆ := hentries₅.trans hquiet₆.entries
    have hstirred₆ := hstirred.of_prefix hentries₆.grown
    refine wp_ite (fun hne => ?_) fun hzero => ?_
    · exact failSwitch_booked h₆ hstirred₆ (some fd) (lt_of_le_of_ne hle₆ hne)
    -- what was entered since the switch began has not changed the active name
    have hactive₆ : w₆.active = some fd := by rw [hquiet₆.active, hquiet₅.active, hactive]
    have hdirSynced := (hsynced (not_not.mp hzero)).1
    refine wp_getFile_bind (wp_bind (wp_mono (installFd_booked h₆ (.inr hstirred₆) hactive₆
      (hentries₆.writesSynced hwrites) hdirSynced st day) ?_))
    rintro _ w₇ ⟨h₇, hattached⟩
    refine booked_bind (loggerFdCloseStatus_keeps _) h₇ fun rc w₈ _ hw₈ => ?_
    have hattached₈ : w₈.file.detached = false := by
      rw [FileWorld.file_of_frame hw₈]
      exact hattached
    -- retention unlinks archives, and the descriptor stays attached
    refine wp_ite (fun _ => wp_pure ⟨h₇.of_frame hw₈, fun _ => hattached₈⟩) fun _ => ?_
    refine wp_mono (retention_booked t.sec (h₇.of_frame hw₈)) ?_
    rintro rc w₉ ⟨h₉, hquiet₉⟩
    exact ⟨h₉, fun _ => hquiet₉.detached.trans hattached₈⟩

/-- A rotation: until the rename only synchronisation is entered. -/
theorem rotateImpl_booked (h : Booked loud w₁ w)
    (hloud : ∀ ino name, loud (.rename ino name)) (hattached : w.file.detached = false) :
    wp (Booked loud w₁) (rotateImpl libc) (RotationBooked loud w₁) w := by
  -- a rotation that ends before the rename leaves the descriptor attached
  have hstay : ∀ (rc : ℤ) (w' : FileWorld), Booked loud w₁ w' → Quietly w w' →
      RotationBooked loud w₁ rc w' :=
    fun rc w' h' hquiet => ⟨h', fun _ => hquiet.detached.trans hattached⟩
  have hframe : ∀ (rc : ℤ) (w' : FileWorld), w'.frame = w.frame → RotationBooked loud w₁ rc w' :=
    fun rc w' hw' => hstay rc w' (h.of_frame hw') (.of_frame hw')
  refine booked_bind checkActive_keeps h fun rc w₂ _ hw₂ => ?_
  refine wp_ite (fun _ => wp_pure (hframe rc w₂ hw₂)) fun _ => ?_
  refine booked_bind call_keeps (h.of_frame hw₂) fun clock w₃ _ hw₃ => ?_
  have hw₃' := hw₃.trans hw₂
  refine wp_ite (fun _ => wp_pure (hframe _ w₃ hw₃')) fun _ => ?_
  refine booked_bind (timestampValid_keeps _) (h.of_frame hw₃') fun valid w₄ _ hw₄ => ?_
  have hw₄' := hw₄.trans hw₃'
  refine wp_ite (fun _ => wp_pure (hframe _ w₄ hw₄')) fun _ => ?_
  refine booked_bind (archiveStart_keeps _) (h.of_frame hw₄') fun r w₅ _ hw₅ => ?_
  have hw₅' := hw₅.trans hw₄'
  cases r with
  | error rc => exact wp_pure (hframe rc w₅ hw₅')
  | ok t =>
    refine wp_bind (wp_mono (loggerFileSync_booked (h.of_frame hw₅')) ?_)
    rintro rc w₆ ⟨h₆, hquiet₆, hsynced⟩
    have hquiet₆' := (Quietly.of_frame hw₅').trans hquiet₆
    refine wp_ite (fun _ => wp_pure (hstay rc w₆ h₆ hquiet₆')) fun hzero => ?_
    -- everything written is covered before the rename
    have hsynced₆ := hsynced (not_not.mp hzero)
    refine wp_bind (wp_mono (archiveRename_booked _ t h₆) ?_)
    rintro (rc | t') w₇ htried
    · obtain ⟨-, hw₇⟩ := htried
      exact wp_pure (hstay rc w₇ (h₆.of_frame hw₇) (hquiet₆'.trans (.of_frame hw₇)))
    obtain ⟨ino, name, hactive, hfile, hdisk, htrace⟩ := htried
    refine wp_bind (wp_modify ?_)
    -- between the rename and the new state of the descriptor there is no call
    have hfile' : { w₇.file with
        detached := true, switchError := eio, dirDirty := true
        archiveTime := t', archiveTimeValid := true } = { w₆.file with
          detached := true, switchError := eio, dirDirty := true
          archiveTime := t', archiveTimeValid := true } := by rw [hfile]
    generalize hw₈ : ({ w₇ with
      file := { w₇.file with
        detached := true, switchError := eio, dirDirty := true
        archiveTime := t', archiveTimeValid := true }
      history := { w₇.history with times := w₇.history.times ++ [t'] } } : FileWorld) = w₈
    have htrace₈ : w₈.trace = w₆.trace ++ [.rename ino name] := by rw [← hw₈, ← htrace]
    have hinv : LedgerInv w₈ := by
      refine h₆.inv.detach (t := t') hactive ?_ ?_ htrace₈
      · rw [← hw₈]
        exact hdisk
      · rw [← hw₈]
        exact hfile'
    -- the rename is the first thing that is loud
    have hstirred : Stirred loud w₁ w₈ := h₆.stirred (hloud ino name) htrace₈
    refine switchActive_booked (h₆.step hinv ?_ (.inl hstirred)) hstirred ?_ t'
    · rw [htrace₈]
      exact List.prefix_append _ _
    -- the rename is no write, so what was written stays covered
    · rw [htrace₈]
      exact hsynced₆.writes.append (by simp [FileEvent.isWrite])

/-- A rotation keeps the books: the old inode is covered before its descriptor is replaced. -/
theorem rotate_booked (h : Booked loud w₁ w) (hloud : ∀ ino name, loud (.rename ino name))
    (hattached : w.file.detached = false) :
    wp (Booked loud w₁) (rotate libc) (RotationBooked loud w₁) w := by
  refine booked_bind (countMetrics_keeps _) h fun _ w₂ _ hw₂ => ?_
  have hattached₂ : w₂.file.detached = false := by
    rw [FileWorld.file_of_frame hw₂]
    exact hattached
  refine wp_bind (wp_mono (rotateImpl_booked (h.of_frame hw₂) hloud hattached₂) ?_)
  rintro rc w₃ ⟨h₃, hrc⟩
  refine wp_ite (fun _ => ?_) fun _ => ?_
  all_goals exact wp_bind (wp_modify (wp_pure ⟨h₃.of_frame rfl, hrc⟩))

/-- A write goes ahead only through an attached descriptor, and a half-finished switch stops it
before anything is done. -/
theorem prepareWrite_booked (h : Booked loud w₁ w) (hloud : ∀ ino name, loud (.rename ino name))
    (n : ℕ) (t : Option Timespec) :
    wp (Booked loud w₁) (prepareWrite libc n t) (fun rc w' => RotationBooked loud w₁ rc w' ∧
      (w.file.detached = true → rc ≠ 0 ∧ w' = w)) w := by
  -- a write that is refused before any call leaves the state as it is
  have hreject : ∀ rc : ℤ, rc ≠ 0 → RotationBooked loud w₁ rc w ∧
      (w.file.detached = true → rc ≠ 0 ∧ w = w) :=
    fun rc hrc => ⟨⟨h, fun hzero => absurd hzero hrc⟩, fun _ => ⟨hrc, rfl⟩⟩
  refine wp_getFile_bind (wp_ite (fun _ => wp_pure (hreject _ (by decide))) fun _ => ?_)
  cases t with
  | none => exact wp_pure (hreject _ (by decide))
  | some t =>
    refine wp_ite (fun _ => wp_pure (hreject _ (by decide))) fun _ => ?_
    refine wp_ite (fun _ => wp_pure (hreject _ w.file.detachedError_ne_zero)) fun hdetached => ?_
    -- from here on the descriptor is attached, so the second part holds of itself
    have hattached : w.file.detached = false := Bool.eq_false_iff.mpr hdetached
    have hframe : ∀ (rc : ℤ) (w' : FileWorld), w'.frame = w.frame →
        RotationBooked loud w₁ rc w' ∧ (w.file.detached = true → rc ≠ 0 ∧ w' = w) := by
      intro rc w' hw'
      refine ⟨⟨h.of_frame hw', fun _ => ?_⟩, fun hd => absurd hd hdetached⟩
      rw [FileWorld.file_of_frame hw']
      exact hattached
    -- the rotation is tried for a new day or a full file, in the same state
    have hrotate : ∀ w', w'.frame = w.frame → wp (Booked loud w₁) (rotate libc)
        (fun rc w'' => RotationBooked loud w₁ rc w'' ∧
          (w.file.detached = true → rc ≠ 0 ∧ w'' = w)) w' := by
      intro w' hw'
      have hattached' : w'.file.detached = false := by
        rw [FileWorld.file_of_frame hw']
        exact hattached
      refine wp_mono (rotate_booked (h.of_frame hw') hloud hattached') ?_
      exact fun rc w'' hrotated => ⟨hrotated, fun hd => absurd hd hdetached⟩
    refine wp_ite (fun _ => wp_pure (hframe _ w rfl)) fun _ => wp_ite (fun _ => ?_) fun _ => ?_
    · refine booked_bind (wallDay_keeps _) h fun r w₂ _ hw₂ => ?_
      cases r with
      | error rc => exact wp_pure (hframe rc w₂ hw₂)
      | ok d => exact wp_ite (fun _ => hrotate w₂ hw₂) fun _ => wp_pure (hframe _ w₂ hw₂)
    · exact wp_ite (fun _ => hrotate w rfl) fun _ => wp_pure (hframe _ w rfl)

/-! ## Writing -/

/-- A write loop is under way: the descriptor is attached, and bytes that were written are in the
ledger. -/
structure Streaming (loud : FileEvent → Bool) (w₁ : FileWorld) (fd : Option ℕ) (written : ℕ)
    (w : FileWorld) : Prop where
  booked : Booked loud w₁ w
  attached : w.file.detached = false
  fd_eq : w.file.fd = fd
  loud_of_written : written = 0 ∨ Stirred loud w₁ w

/-- Code outside the frame keeps the stream of a write going. -/
theorem Streaming.of_frame {w' : FileWorld} {fd : Option ℕ} {written : ℕ}
    (h : Streaming loud w₁ fd written w) (hframe : w'.frame = w.frame) :
    Streaming loud w₁ fd written w' := by
  have hfile := FileWorld.file_of_frame hframe
  refine ⟨h.booked.of_frame hframe, by rw [hfile]; exact h.attached, by rw [hfile]; exact h.fd_eq,
    ?_⟩
  refine h.loud_of_written.imp id fun hstirred => hstirred.of_prefix ?_
  rw [FileWorld.trace_of_frame hframe]

/-- A `write` that takes bytes makes the file dirty in the trace, an error leaves it as it was. -/
theorem writeCall_booked {fd : Option ℕ} {written : ℕ}
    (h : Streaming loud w₁ fd written w) (hloud : ∀ ino bytes, loud (.write ino bytes))
    (bytes : List UInt8) :
    wp (Booked loud w₁) (writeCall fd bytes)
      (fun r w' => match r with
        | .error _ => Streaming loud w₁ fd written w'
        | .ok k => Streaming loud w₁ fd (written + k) w') w := by
  refine wp_ask h.booked fun a => ?_
  unfold FileWorld.writeAnswer
  cases fd with
  | none => exact h
  | some ino =>
    have hwrote : ∀ (w' : FileWorld) (taken : List UInt8) (k : ℕ), w'.file = w.file →
        w'.disk.dir = w.disk.dir → w'.disk.nextIno = w.disk.nextIno →
        w'.trace = w.trace ++ [.write ino taken] → Streaming loud w₁ (some ino) k w' := by
      intro w' taken k hfile hdir hnext htrace
      have hinv := h.booked.inv.write h.attached h.fd_eq hfile hdir hnext htrace
      have hstirred : Stirred loud w₁ w' := h.booked.stirred (hloud ino taken) htrace
      refine ⟨h.booked.step hinv ?_ (.inl hstirred), ?_, ?_, .inr hstirred⟩
      · rw [htrace]
        exact List.prefix_append _ _
      · rw [hfile]
        exact h.attached
      · rw [hfile]
        exact h.fd_eq
    cases a.ok with
    | false => exact hwrote _ [] _ rfl rfl rfl rfl
    | true => exact hwrote _ (bytes.take a.count) _ rfl rfl rfl rfl

/-- What a write loop leaves. -/
def Streamed (loud : FileEvent → Bool) (w₁ : FileWorld) (r : ℤ × ℕ) (w : FileWorld) : Prop :=
  Booked loud w₁ w ∧ (r.2 = 0 ∨ Stirred loud w₁ w)

/-- After a `write` the loop goes on with what has been taken so far, or ends with an error. -/
theorem afterWrite_booked {fd : Option ℕ} {result : Except ℤ ℕ} {goOn : ℕ → β} {retry : β}
    {written : ℕ} (count : β → ℕ) (hretry : count retry = written)
    (hgoOn : ∀ k, count (goOn k) = written + k)
    (h : match result with
      | .error _ => Streaming loud w₁ fd written w
      | .ok k => Streaming loud w₁ fd (written + k) w) :
    wp (Booked loud w₁) (afterWrite result goOn retry written)
      (fun r w' =>
        r.elim (fun b => Streaming loud w₁ fd (count b) w') (fun r => Streamed loud w₁ r w'))
      w := by
  unfold afterWrite
  cases result with
  | error e =>
    refine wp_ite (fun _ => ?_) fun _ => ?_
    · refine wp_bind (wp_modify (wp_pure ?_))
      rw [Sum.elim_inl, hretry]
      exact h.of_frame rfl
    · have hdone : Streaming loud w₁ fd written w := h
      exact wp_bind (wp_modify (wp_pure ⟨hdone.booked.of_frame rfl, hdone.loud_of_written⟩))
  | ok k =>
    cases k with
    | zero =>
      have hdone : Streaming loud w₁ fd written w := h
      exact wp_bind (wp_modify (wp_pure ⟨hdone.booked.of_frame rfl, hdone.loud_of_written⟩))
    | succ k =>
      refine wp_pure ?_
      rw [Sum.elim_inl, hgoOn]
      exact h

/-- The loop over one buffer keeps the stream. -/
theorem all_booked {fd : Option ℕ} {p : List UInt8} (h : Streaming loud w₁ fd 0 w)
    (hloud : ∀ ino bytes, loud (.write ino bytes)) :
    wp (Booked loud w₁) (all fd p) (Streamed loud w₁) w := by
  refine wp_iterate (fun (b : List UInt8 × ℕ) w' => Streaming loud w₁ fd b.2 w')
    (fun b w' hb => hb.booked) ?_ h
  rintro ⟨p, written⟩ w' hp
  refine wp_ite (fun _ => wp_pure ⟨hp.booked, hp.loud_of_written⟩) fun _ => ?_
  refine booked_bind (countMetrics_keeps _) hp.booked fun _ w₂ _ hw₂ => ?_
  refine wp_bind (wp_mono (writeCall_booked (hp.of_frame hw₂) hloud p) ?_)
  intro result w₃ hresult
  exact afterWrite_booked (fun b : List UInt8 × ℕ => b.2) rfl (fun _ => rfl) hresult

/-- So does the loop over vectors. -/
theorem vall_booked {fd : Option ℕ} (iovMax : ℕ) {v : List (List UInt8)}
    (h : Streaming loud w₁ fd 0 w) (hloud : ∀ ino bytes, loud (.write ino bytes)) :
    wp (Booked loud w₁) (vall fd iovMax v) (Streamed loud w₁) w := by
  refine wp_iterate (fun (b : List (List UInt8) × ℕ) w' => Streaming loud w₁ fd b.2 w')
    (fun b w' hb => hb.booked) ?_ h
  rintro ⟨v, written⟩ w' hv
  cases hdrop : v.dropWhile (·.isEmpty) with
  | nil =>
    simp only [hdrop]
    exact wp_pure ⟨hv.booked, hv.loud_of_written⟩
  | cons x xs =>
    simp only [hdrop]
    refine booked_bind (countMetrics_keeps _) hv.booked fun _ w₂ _ hw₂ => ?_
    refine wp_bind (wp_mono (writeCall_booked (hv.of_frame hw₂) hloud _) ?_)
    intro result w₃ hresult
    exact afterWrite_booked (fun b : List (List UInt8) × ℕ => b.2) rfl (fun _ => rfl) hresult

/-- The size is only changed by bytes that are in the ledger. -/
theorem account_booked {written : ℕ} (h : Booked loud w₁ w)
    (hwritten : written = 0 ∨ Stirred loud w₁ w) :
    wp (Booked loud w₁) (account written)
      (fun _ w' => Booked loud w₁ w' ∧ w'.trace = w.trace ∧ (written = 0 → w'.frame = w.frame))
      w := by
  have hsame : written = 0 → (if sizeMax - w.file.currentSize < written then sizeMax
      else w.file.currentSize + written) = w.file.currentSize := by
    rintro rfl
    rw [if_neg (Nat.not_lt_zero _), Nat.add_zero]
  refine wp_bind (wp_modify (wp_modify ⟨?_, rfl, fun hzero => ?_⟩))
  · refine h.step (h.inv.congr rfl rfl rfl) List.prefix_rfl ?_
    rcases hwritten with hzero | hstirred
    · right
      simp only [FileWorld.vitals, hsame hzero]
      rfl
    · exact .inl (hstirred.of_prefix List.prefix_rfl)
  · simp only [FileWorld.frame, hsame hzero]

/-- What a call of `logger_file_write` or `logger_file_writev` leaves: everything is synchronised
when it was asked to and returns 0. -/
structure WriteBooked (loud : FileEvent → Bool) (w₁ : FileWorld) (sync : Bool) (rc : ℤ)
    (w : FileWorld) : Prop where
  booked : Booked loud w₁ w
  synced : rc = 0 → sync = true → FileSynced w

/-- A write that returns 0 and has to synchronise has covered the file. -/
theorem finishWrite_booked {rc : ℤ} {output : FileProg (ℤ × ℕ)} (sync : Bool)
    (h : Booked loud w₁ w)
    (houtput : rc = 0 → wp (Booked loud w₁) output (Streamed loud w₁) w) :
    wp (Booked loud w₁) (finishWrite rc output sync) (fun rc' w' =>
      WriteBooked loud w₁ sync rc' w' ∧ (rc ≠ 0 → rc' ≠ 0 ∧ w'.trace = w.trace)) w := by
  -- nothing is written when the preparation has failed
  have hwritten : wp (Booked loud w₁) (if rc = 0 then output else pure (rc, 0))
      (fun r w' => Streamed loud w₁ r w' ∧ (rc ≠ 0 → r = (rc, 0) ∧ w' = w)) w := by
    refine wp_ite (fun hzero => ?_) fun hne => wp_pure ⟨⟨h, .inl rfl⟩, fun _ => ⟨rfl, rfl⟩⟩
    exact wp_mono (houtput hzero) fun r w' hr => ⟨hr, fun hne => absurd hzero hne⟩
  refine wp_bind (wp_mono hwritten ?_)
  rintro ⟨rc', written⟩ w₂ ⟨⟨h₂, hstirred₂⟩, hfailed⟩
  refine wp_bind (wp_mono (account_booked h₂ hstirred₂) ?_)
  rintro _ w₃ ⟨h₃, htrace₃, -⟩
  -- the synchronisation is asked for only when the write has succeeded
  have hsync : wp (Booked loud w₁) (if rc' = 0 ∧ sync then loggerFileSync else pure rc')
      (fun rc'' w' => Booked loud w₁ w' ∧ (rc'' = 0 → sync = true → FileSynced w') ∧
        (rc' ≠ 0 → rc'' ≠ 0 ∧ w' = w₃)) w₃ := by
    refine wp_ite (fun hboth => ?_) fun hnot => wp_pure ⟨h₃, ?_, fun hne => ⟨hne, rfl⟩⟩
    · refine wp_mono (loggerFileSync_booked h₃) ?_
      rintro rc'' w' ⟨h', -, hsynced⟩
      exact ⟨h', fun hzero _ => hsynced hzero, fun hne => absurd hboth.1 hne⟩
    · exact fun hzero hsync => absurd ⟨hzero, hsync⟩ hnot
  refine wp_bind (wp_mono hsync ?_)
  rintro rc'' w₄ ⟨h₄, hsynced, hkept⟩
  -- a call whose preparation failed enters nothing at all
  have hdone : WriteBooked loud w₁ sync rc'' w₄ ∧ (rc ≠ 0 → rc'' ≠ 0 ∧ w₄.trace = w.trace) := by
    refine ⟨⟨h₄, hsynced⟩, fun hne => ?_⟩
    obtain ⟨heq, rfl⟩ := hfailed hne
    obtain ⟨rfl, rfl⟩ := Prod.mk.inj heq
    obtain ⟨hne', rfl⟩ := hkept hne
    exact ⟨hne', htrace₃⟩
  obtain ⟨hbooked, hrc⟩ := hdone
  -- the metrics are counted, and this is not seen in the trace
  refine wp_ite (fun _ => ?_) fun _ => ?_
  all_goals
    refine wp_bind (wp_modify (wp_pure ⟨⟨h₄.of_frame rfl, fun hzero hs => ?_⟩, hrc⟩))
    obtain ⟨hwrites, hclean, hattached⟩ := hsynced hzero hs
    exact ⟨hwrites, hclean, hattached⟩

/-! ## The calls -/

/-- The events of a call after which its fields may differ: for a write, a rename or a write; a
reopen may do anything. -/
def FileOp.stirs : FileOp → FileEvent → Bool
  | .reopen, _ => true
  | _, e => e.isRename || e.isWrite

/-- Renames and writes are what calls other than a reopen may be seen by. -/
theorem FileOp.stirs_of_ne {op : FileOp} (hop : op ≠ .reopen) (e : FileEvent) :
    op.stirs e = (e.isRename || e.isWrite) := by
  cases op with
  | reopen => exact absurd rfl hop
  | _ => rfl

/-- The call ends with `logger_file_sync`. -/
def FileOp.synchronises : FileOp → Bool
  | .write _ _ synced => synced
  | .writev _ _ _ synced => synced
  | .sync => true
  | .reopen => false

/-- What a call leaves when it returns. -/
structure CallBooked (op : FileOp) (w : FileWorld) (rc : ℤ) (w' : FileWorld) : Prop where
  booked : Booked op.stirs w w'
  /-- A half-finished switch is sealed: nothing is done, and the call fails. -/
  sealed : w.file.detached = true → op ≠ .reopen → rc ≠ 0 ∧ (op ≠ .sync → w'.trace = w.trace)
  /-- A synchronisation changes nothing else. -/
  quiet : op = .sync → Quietly w w'
  /-- A call that synchronises and returns 0 has synchronised everything. -/
  synced : rc = 0 → op.synchronises = true → FileSynced w'

/-- The body of both write calls. -/
theorem writing_booked (op : FileOp) (output : LoggerFile → FileProg (ℤ × ℕ)) {n : ℕ}
    {t : Option Timespec} {sync : Bool} (hrename : ∀ ino name, op.stirs (.rename ino name))
    (h : Booked op.stirs w₁ w)
    (houtput : ∀ w', Streaming op.stirs w₁ w'.file.fd 0 w' →
      wp (Booked op.stirs w₁) (output w'.file) (Streamed op.stirs w₁) w') :
    wp (Booked op.stirs w₁) (do
      countMetrics fun m => { m with writeOperations := m.writeOperations + 1 }
      let rc ← prepareWrite libc n t
      let f ← getFile
      finishWrite rc (output f) sync)
      (fun rc w' => WriteBooked op.stirs w₁ sync rc w' ∧
        (w.file.detached = true → rc ≠ 0 ∧ w'.trace = w.trace)) w := by
  refine booked_bind (countMetrics_keeps _) h fun _ w₂ _ hw₂ => ?_
  have hfile₂ := FileWorld.file_of_frame hw₂
  refine wp_bind (wp_mono (prepareWrite_booked (h.of_frame hw₂) hrename n t) ?_)
  rintro rc w₃ ⟨⟨h₃, hattached⟩, hsealed⟩
  refine wp_getFile_bind (wp_mono (finishWrite_booked sync h₃ ?_) ?_)
  · intro hzero
    exact houtput w₃ ⟨h₃, hattached hzero, rfl, .inl rfl⟩
  · rintro rc' w₄ ⟨h₄, hfailed⟩
    refine ⟨h₄, fun hdetached => ?_⟩
    obtain ⟨hne, rfl⟩ := hsealed (by rw [hfile₂]; exact hdetached)
    obtain ⟨hne', htrace⟩ := hfailed hne
    exact ⟨hne', htrace.trans (FileWorld.trace_of_frame hw₂)⟩

/-- A reopen keeps the books: the candidate is installed only when the old inode is covered. -/
theorem fileReopenImpl_booked (h : Booked loud w₁ w) (hloud : ∀ e, loud e) :
    wp (Booked loud w₁) (fileReopenImpl libc) (fun _ w' => Booked loud w₁ w') w := by
  refine booked_bind call_keeps h fun now w₂ _ hw₂ => ?_
  refine booked_bind (wallDay_keeps _) (h.of_frame hw₂) fun r w₃ _ hw₃ => ?_
  have h₃ := (h.of_frame hw₂).of_frame hw₃
  cases r with
  | error rc => exact wp_pure h₃
  | ok day =>
    refine wp_bind (wp_mono (openCandidate_booked h₃ (.inl hloud) false) ?_)
    rintro (rc | ⟨fd, st⟩) w₄ ⟨h₄, hopened⟩
    -- a candidate that fails a check is not installed
    · exact wp_pure h₄
    obtain ⟨hactive, hdirty⟩ := hopened.active fd st rfl
    refine wp_getFile_bind ?_
    -- only a managed file is synchronised before the switch
    rw [if_pos h₄.inv.managed]
    refine wp_bind (wp_mono (syncData_booked h₄ w₄.file.fd) ?_)
    intro rc w₅ hdata
    obtain ⟨h₅, hquiet₅⟩ := hdata.booked h₄
    -- opening the candidate has left the directory dirty
    have hdirty₅ : rc = 0 → w₅.file.dirDirty = true := by
      intro hzero
      rcases hdata with ⟨hlt, -⟩ | ⟨ino, -, -, hframe⟩
      · exact absurd hzero hlt.ne
      · rw [FileWorld.file_of_frame hframe]
        exact hdirty
    -- so the directory is synchronised, unless the file could not be
    have hdir : wp (Booked loud w₁) (if rc = 0 then syncDirectoryIfDirty else pure rc)
        (fun rc' w' => Booked loud w₁ w' ∧ Quietly w₅ w' ∧
          (rc' = 0 → WritesSynced w'.trace ∧ DirSynced w'.trace)) w₅ := by
      refine wp_ite (fun hzero => ?_)
        fun hne => wp_pure ⟨h₅, .of_frame rfl, fun hzero => absurd hzero hne⟩
      refine wp_mono (syncDirectoryIfDirty_booked h₅) ?_
      rintro rc' w' ⟨h', hquiet', -, hsynced⟩
      refine ⟨h', hquiet', fun hzero' => ⟨?_, (hsynced hzero').2 (hdirty₅ hzero)⟩⟩
      exact hquiet'.entries.writesSynced (hdata.writesSynced h₄.inv hzero)
    refine wp_bind (wp_mono hdir ?_)
    rintro rc' w₆ ⟨h₆, hquiet₆, hsynced⟩
    refine wp_ite (fun _ => ?_) fun hzero => ?_
    · refine booked_bind (loggerFdCloseStatus_keeps _) h₆ fun _ w₇ _ hw₇ => ?_
      exact wp_pure (h₆.of_frame hw₇)
    -- the old file is covered, and the candidate takes its place
    · obtain ⟨hwrites, hdirSynced⟩ := hsynced (not_not.mp hzero)
      have hactive₆ : w₆.active = some fd := by rw [hquiet₆.active, hquiet₅.active, hactive]
      refine wp_bind (wp_mono (installFd_booked h₆ (.inl hloud) hactive₆ hwrites hdirSynced st day)
        ?_)
      rintro _ w₇ ⟨h₇, -⟩
      exact booked_pass (loggerFdCloseStatus_keeps _) h₇ fun _ w₈ _ hw₈ => h₇.of_frame hw₈

/-- So does `logger_file_reopen`. -/
theorem loggerFileReopen_booked (h : Booked loud w₁ w) (hloud : ∀ e, loud e) :
    wp (Booked loud w₁) (loggerFileReopen libc) (fun _ w' => Booked loud w₁ w') w := by
  refine wp_getFile_bind (wp_ite (fun _ => wp_pure h) fun _ => ?_)
  refine booked_bind (countMetrics_keeps _) h fun _ w₂ _ hw₂ => ?_
  refine wp_bind (wp_mono (fileReopenImpl_booked (h.of_frame hw₂) hloud) fun rc w₃ h₃ => ?_)
  refine wp_ite (fun _ => ?_) fun _ => ?_
  all_goals exact wp_bind (wp_modify (wp_pure (h₃.of_frame rfl)))

/-- Every call, entered in the history, keeps the ledger at every moment. -/
theorem fileOp_exec_booked (libc : Libc) (op : FileOp) (h : LedgerInv w) :
    wp (Booked op.stirs w) (op.exec libc) (fun rc w' => CallBooked op w rc w') w := by
  -- a call begins with its bytes in the history, which the ledger does not read
  have hbegin : Booked op.stirs w { w with history := w.history.begin op.bytes } :=
    (Booked.start h).step (h.congr rfl rfl rfl) List.prefix_rfl (.inr rfl)
  refine wp_bind (wp_modify ?_)
  cases op with
  | write p t sync =>
    refine wp_ite (fun _ => wp_pure ⟨hbegin, fun _ _ => ⟨by decide, fun _ => rfl⟩, nofun, nofun⟩)
      fun _ => ?_
    -- both writes are the same function with another loop
    refine wp_mono (writing_booked (.write p t sync) (fun f => all f.fd p.bytes)
      (fun _ _ => rfl) hbegin fun w' hw' => all_booked hw' fun _ _ => rfl) ?_
    rintro rc w' ⟨hdone, hsealed⟩
    refine ⟨hdone.booked, fun hdetached _ => ?_, nofun, fun hzero hsync => hdone.synced hzero hsync⟩
    exact ⟨(hsealed hdetached).1, fun _ => (hsealed hdetached).2⟩
  | writev v n t sync =>
    refine wp_ite (fun _ => wp_pure ⟨hbegin, fun _ _ => ⟨by decide, fun _ => rfl⟩, nofun, nofun⟩)
      fun _ => ?_
    refine wp_mono (writing_booked (.writev v n t sync)
      (fun f => vall f.fd f.binding.iovMax (v.map Iovec.bytes))
      (fun _ _ => rfl) hbegin fun w' hw' => vall_booked _ hw' fun _ _ => rfl) ?_
    rintro rc w' ⟨hdone, hsealed⟩
    refine ⟨hdone.booked, fun hdetached _ => ?_, nofun, fun hzero hsync => hdone.synced hzero hsync⟩
    exact ⟨(hsealed hdetached).1, fun _ => (hsealed hdetached).2⟩
  | sync =>
    refine wp_mono (loggerFileSync_booked hbegin) ?_
    rintro rc w' ⟨h', hquiet, hsynced⟩
    refine ⟨h', fun hdetached _ => ⟨fun hzero => ?_, fun hne => absurd rfl hne⟩, fun _ => ?_,
      fun hzero _ => hsynced hzero⟩
    -- a synchronisation that succeeds has found the descriptor attached
    · have hattached : w'.file.detached = false := (hsynced hzero).attached
      rw [hquiet.detached] at hattached
      exact absurd (hattached.symm.trans hdetached) nofun
    · obtain ⟨hvitals, hentries⟩ := hquiet
      exact ⟨hvitals, hentries⟩
  | reopen =>
    refine wp_mono (loggerFileReopen_booked hbegin fun _ => rfl) ?_
    exact fun rc w' h' => ⟨h', fun _ hne => absurd rfl hne, nofun, nofun⟩

end Specs

end CLogger
