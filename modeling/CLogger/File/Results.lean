import CLogger.File.Specs

/-!
# What the results of the file backend mean

For every binding and every answer of the system: a write returns 0 only when the kernel has taken
all of its bytes, in one file, and a negative number otherwise. The file is the one that the
descriptor led to before the call, or a new one that the call itself has created by a rotation;
no other file changes. `FileWrote` says this of every moment of a call, so that a caller who
holds the lock of the backend can follow it step by step.
-/

namespace CLogger

open TapeProgram

/-- The error of a detached file is an error number, and all inodes in use are below `nextIno`. -/
structure FileOk (w : FileWorld) : Prop where
  switchError : 0 ≤ w.file.switchError
  fd : ∀ ino, w.file.fd = some ino → ino < w.disk.nextIno
  used : ∀ n ino, w.disk.dir n = some ino → ino < w.disk.nextIno

/-- A call that began in `w₀` stands in `w` and has had `part` taken: the bytes are at the end of
the file of the descriptor, which is the old one or a new one. -/
structure FileWrote (w₀ w : FileWorld) (part : List UInt8) : Prop where
  ok : FileOk w
  nextIno : w₀.disk.nextIno ≤ w.disk.nextIno
  fd : w.file.fd = w₀.file.fd ∨ ∃ ino, w.file.fd = some ino ∧ w₀.disk.nextIno ≤ ino
  data : ∀ ino < w.disk.nextIno, w.disk.data ino =
    (if ino < w₀.disk.nextIno then w₀.disk.data ino else []) ++
      (if w.file.fd = some ino then part else [])

section Wrote

variable {w₀ w w' : FileWorld} {part : List UInt8}

theorem FileOk.of_shape (h : FileOk w) (hshape : w'.shape = w.shape) : FileOk w' := by
  have hdisk : w'.disk = w.disk := congrArg (fun s => s.1.disk) hshape
  have hfd : w'.file.fd = w.file.fd := congrArg (fun s => s.1.fd) hshape
  have hswitch : w'.file.switchError = w.file.switchError := congrArg Prod.snd hshape
  exact ⟨hswitch ▸ h.switchError, by rw [hfd, hdisk]; exact h.fd, by rw [hdisk]; exact h.used⟩

theorem FileWrote.of_shape (h : FileWrote w₀ w part) (hshape : w'.shape = w.shape) :
    FileWrote w₀ w' part := by
  have hdisk : w'.disk = w.disk := congrArg (fun s => s.1.disk) hshape
  have hfd : w'.file.fd = w.file.fd := congrArg (fun s => s.1.fd) hshape
  refine ⟨h.ok.of_shape hshape, ?_, ?_, ?_⟩
  · rw [hdisk]
    exact h.nextIno
  · rw [hfd]
    exact h.fd
  · rw [hfd, hdisk]
    exact h.data

/-- Nothing has been taken yet. -/
theorem FileWrote.start (h : FileOk w) : FileWrote w w [] where
  ok := h
  nextIno := le_rfl
  fd := .inl rfl
  data := by
    intro ino hino
    rw [if_pos hino, ite_self, List.append_nil]

/-- Changes of entries and of fields of the backend other than the descriptor. -/
theorem FileWrote.of_data (h : FileWrote w₀ w part) (hswitch : 0 ≤ w'.file.switchError)
    (hfd : w'.file.fd = w.file.fd) (hdata : w'.disk.data = w.disk.data)
    (hnext : w'.disk.nextIno = w.disk.nextIno)
    (hused : ∀ n ino, w'.disk.dir n = some ino → ino < w.disk.nextIno) :
    FileWrote w₀ w' part := by
  refine ⟨⟨hswitch, ?_, ?_⟩, ?_, ?_, ?_⟩
  · rw [hfd, hnext]
    exact h.ok.fd
  · rw [hnext]
    exact hused
  · rw [hnext]
    exact h.nextIno
  · rw [hfd]
    exact h.fd
  · rw [hfd, hdata, hnext]
    exact h.data

/-- The active file may have been created on the way. -/
theorem FileWrote.opening (h : FileWrote w₀ w []) (hopen : OpeningState w w') :
    FileWrote w₀ w' [] := by
  obtain ⟨hcore | ⟨-, hcore⟩, hswitch⟩ := hopen
  · exact h.of_shape (Prod.ext hcore hswitch)
  -- one inode more, which is empty
  have hdisk : w'.disk = w.disk.create w.file.binding.name := congrArg FileCore.disk hcore
  have hfd : w'.file.fd = w.file.fd := congrArg FileCore.fd hcore
  have hnext : w'.disk.nextIno = w.disk.nextIno + 1 := by rw [hdisk]; rfl
  refine ⟨⟨hswitch ▸ h.ok.switchError, ?_, ?_⟩, ?_, ?_, ?_⟩
  · intro ino hino
    rw [hfd] at hino
    have := h.ok.fd ino hino
    omega
  · intro n ino hn
    rw [hdisk] at hn
    rw [hnext]
    -- the new name has the new file, and the others are as they were
    by_cases hname : n = w.file.binding.name
    · subst hname
      have hdir : some w.disk.nextIno = some ino := by
        rw [← hn]
        exact Disk.dir_create_self.symm
      have := Option.some.inj hdir
      omega
    · have hdir : w.disk.dir n = some ino := by
        rw [← hn]
        exact (Function.update_of_ne hname _ _).symm
      have := h.ok.used n ino hdir
      omega
  · have := h.nextIno
    omega
  · rw [hfd]
    exact h.fd
  -- the new file was not in use when the call began
  · intro ino hino
    rw [hnext] at hino
    rw [hfd, hdisk]
    by_cases hnew : ino = w.disk.nextIno
    · subst hnew
      have hold : ¬ w.disk.nextIno < w₀.disk.nextIno := not_lt.mpr h.nextIno
      rw [if_neg hold, ite_self]
      exact Function.update_self _ _ _
    · rw [← h.data ino (by omega)]
      exact Function.update_of_ne hnew _ _

/-- The new active file is installed. -/
theorem FileWrote.install (h : FileWrote w₀ w []) {ino : ℕ} (hino : ino < w.disk.nextIno)
    (hnew : w₀.disk.nextIno ≤ ino) (hswitch : 0 ≤ w'.file.switchError) (hdisk : w'.disk = w.disk)
    (hfd : w'.file.fd = some ino) : FileWrote w₀ w' [] := by
  refine ⟨⟨hswitch, ?_, ?_⟩, ?_, .inr ⟨ino, hfd, hnew⟩, ?_⟩
  · intro ino' hino'
    rw [hfd] at hino'
    rw [hdisk, ← Option.some.inj hino']
    exact hino
  · rw [hdisk]
    exact h.ok.used
  · rw [hdisk]
    exact h.nextIno
  · intro ino' hino'
    rw [hdisk] at hino' ⊢
    rw [ite_self, h.data ino' hino', ite_self]

/-- The kernel takes some bytes. -/
theorem FileWrote.append (h : FileWrote w₀ w part) {ino : ℕ} (hfd : w.file.fd = some ino)
    (taken : List UInt8) (hfile : w'.file = w.file) (hdisk : w'.disk = w.disk.append ino taken) :
    FileWrote w₀ w' (part ++ taken) := by
  have hnext : w'.disk.nextIno = w.disk.nextIno := by rw [hdisk]; rfl
  refine ⟨⟨hfile ▸ h.ok.switchError, ?_, ?_⟩, hnext ▸ h.nextIno, hfile ▸ h.fd, ?_⟩
  · rw [hfile, hnext]
    exact h.ok.fd
  · rw [hnext, hdisk]
    exact h.ok.used
  · intro ino' hino'
    rw [hnext] at hino'
    rw [hfile, hdisk]
    by_cases hsame : ino' = ino
    · subst hsame
      rw [if_pos hfd, ← List.append_assoc]
      have hdata := h.data ino' hino'
      rw [if_pos hfd] at hdata
      rw [← hdata]
      exact Function.update_self _ _ _
    · have hother : w.file.fd ≠ some ino' := by
        rw [hfd]
        exact fun heq => hsame (Option.some.inj heq).symm
      have hdata := h.data ino' hino'
      rw [if_neg hother] at hdata ⊢
      rw [← hdata]
      exact Function.update_of_ne hsame _ _

end Wrote

section Took

variable {w₀ w w' : FileWorld} {part bytes : List UInt8}

/-- The bytes accepted before the call, those of the call, and how many of them have been taken. -/
def FileWorld.call (w : FileWorld) : List UInt8 × List UInt8 × ℕ :=
  (w.history.past, w.history.current, w.history.taken)

/-- A call that was entered in the history of `w₀` has had `part` taken. -/
structure FileTook (w₀ w : FileWorld) (part : List UInt8) : Prop extends FileWrote w₀ w part where
  call : w.call = (w₀.history.past, w₀.history.current, w₀.history.taken + part.length)

/-- The states that a call with the given bytes passes. -/
def FileWriting (w₀ : FileWorld) (bytes : List UInt8) (w : FileWorld) : Prop :=
  ∃ part, part <+: bytes ∧ FileTook w₀ w part

theorem FileTook.of_shape (h : FileTook w₀ w part) (hshape : w'.shape = w.shape) :
    FileTook w₀ w' part := by
  have hhistory : w'.history = w.history := congrArg (fun s => s.1.history) hshape
  have hcall : w'.call = w.call := by rw [FileWorld.call, hhistory, FileWorld.call]
  exact ⟨h.toFileWrote.of_shape hshape, hcall.trans h.call⟩

theorem FileTook.writing (h : FileTook w₀ w part) (hpart : part <+: bytes) :
    FileWriting w₀ bytes w := ⟨part, hpart, h⟩

/-- The call has been entered, and nothing has been taken yet. -/
theorem FileTook.start (h : FileOk w) : FileTook w w [] := ⟨.start h, rfl⟩

/-- Changes of entries and of fields of the backend other than the descriptor. -/
theorem FileTook.of_data (h : FileTook w₀ w part) (hswitch : 0 ≤ w'.file.switchError)
    (hfd : w'.file.fd = w.file.fd) (hdata : w'.disk.data = w.disk.data)
    (hnext : w'.disk.nextIno = w.disk.nextIno)
    (hused : ∀ n ino, w'.disk.dir n = some ino → ino < w.disk.nextIno) (hcall : w'.call = w.call) :
    FileTook w₀ w' part :=
  ⟨h.toFileWrote.of_data hswitch hfd hdata hnext hused, hcall.trans h.call⟩

/-- The active file may have been created on the way. -/
theorem FileTook.opening (h : FileTook w₀ w []) (hopen : OpeningState w w') :
    FileTook w₀ w' [] := by
  have hhistory : w'.core.history = w.core.history := by
    rcases hopen.1 with hcore | ⟨-, hcore⟩
    · rw [hcore]
    · rw [hcore]
      rfl
  have hcall : w'.call = w.call :=
    congrArg (fun c : History => (c.past, c.current, c.taken)) hhistory
  exact ⟨h.toFileWrote.opening hopen, hcall.trans h.call⟩

/-- The new active file is installed. -/
theorem FileTook.install (h : FileTook w₀ w []) {ino : ℕ} (hino : ino < w.disk.nextIno)
    (hnew : w₀.disk.nextIno ≤ ino) (hswitch : 0 ≤ w'.file.switchError) (hdisk : w'.disk = w.disk)
    (hfd : w'.file.fd = some ino) (hcall : w'.call = w.call) : FileTook w₀ w' [] :=
  ⟨h.toFileWrote.install hino hnew hswitch hdisk hfd, hcall.trans h.call⟩

/-- The kernel takes some bytes. -/
theorem FileTook.append (h : FileTook w₀ w part) {ino : ℕ} (hfd : w.file.fd = some ino)
    (taken : List UInt8) (hfile : w'.file = w.file) (hdisk : w'.disk = w.disk.append ino taken)
    (hcall : w'.call = (w.history.past, w.history.current, w.history.taken + taken.length)) :
    FileTook w₀ w' (part ++ taken) := by
  refine ⟨h.toFileWrote.append hfd taken hfile hdisk, ?_⟩
  obtain ⟨hpast, hrest⟩ := Prod.mk.inj h.call
  obtain ⟨hcurrent, htaken⟩ := Prod.mk.inj hrest
  rw [hcall, hpast, hcurrent, htaken, List.length_append, Nat.add_assoc]

end Took

/-! ## Rotation -/

section Specs

variable {libc : Libc} {w₀ w : FileWorld} {bytes : List UInt8} {α β : Type}

/-- Passing a function that leaves the core alone. -/
theorem wpStep_keeps {P : α → Prop} {m : FileProg α} {Q : α → FileWorld → Prop}
    {part : List UInt8} (hm : Keeps FileWorld.shape P m) (h : FileTook w₀ w part)
    (hpart : part <+: bytes) (hQ : ∀ a w', P a → FileTook w₀ w' part →
      w'.shape = w.shape → Q a w') : wpStep (FileWriting w₀ bytes) m Q w := by
  refine wp_of_keeps hm (fun _ _ => trivial) (fun w' hw' => ?_) fun a w' ha hw' => ?_
  · exact (h.of_shape hw').writing hpart
  · exact hQ a w' ha (h.of_shape hw') hw'

/-- Passing a function that leaves the core alone, before anything is written. -/
theorem wpStep_keeps_bind {P : α → Prop} {m : FileProg α} {f : α → FileProg β}
    {Q : β → FileWorld → Prop} (hm : Keeps FileWorld.shape P m) (h : FileTook w₀ w [])
    (hf : ∀ a w', P a → FileTook w₀ w' [] → wpStep (FileWriting w₀ bytes) (f a) Q w') :
    wpStep (FileWriting w₀ bytes) (m >>= f) Q w :=
  wp_bind (wpStep_keeps hm h List.nil_prefix fun a w' ha h' _ => hf a w' ha h')

/-- What the functions of a rotation return: nothing has been written, and an error is negative. -/
def Rotated (w₀ : FileWorld) (r : Except ℤ α) (w : FileWorld) : Prop :=
  FileTook w₀ w [] ∧ Failing r

theorem renameAnswer_wrote (h : FileTook w₀ w []) (new : CString) (a : Answer) :
    FileTook w₀ (w.renameAnswer new a).2 [] ∧ ErrorNumber (w.renameAnswer new a).1 := by
  rcases renameAnswer_cases w new a with ⟨e, he, hrename⟩ | ⟨ino, -, -, hrename⟩
  all_goals rw [hrename]
  · exact ⟨h, .error he⟩
  · refine ⟨h.of_data h.ok.switchError rfl rfl rfl ?_ rfl, .ok _⟩
    intro n ino' hn
    -- an entry of the new directory led to the same inode before
    by_cases hold : n = w.file.binding.name
    · subst hold
      exact absurd ((Function.update_self _ _ _).symm.trans hn) nofun
    have hn' : Function.update w.disk.dir new (w.disk.dir w.file.binding.name) n = some ino' := by
      rw [← hn]
      exact (Function.update_of_ne hold _ _).symm
    by_cases hnew : n = new
    · subst hnew
      rw [Function.update_self] at hn'
      exact h.ok.used _ _ hn'
    · rw [Function.update_of_ne hnew] at hn'
      exact h.ok.used _ _ hn'

theorem archiveRename_wrote (n : ℕ) (t : Timespec) (h : FileTook w₀ w []) :
    wpStep (FileWriting w₀ bytes) (archiveRename libc n t) (Rotated w₀) w := by
  induction n generalizing t w with
  | zero => exact wp_pure ⟨h, .error (by decide)⟩
  | succ n ih =>
    refine wpStep_keeps_bind (archiveName_keeps t) h fun r w₁ hr h₁ => ?_
    cases r with
    | error rc => exact wp_pure ⟨h₁, .error (hr rc rfl)⟩
    | ok name =>
      refine wp_bind (Safe.ask trivial (fun a => ?_) fun a => ?_)
      · obtain ⟨h₂, herror⟩ := renameAnswer_wrote h₁ name a
        cases hrename : (w₁.renameAnswer name a).1 with
        | ok u => exact wp_pure ⟨h₂, .ok _⟩
        | error e =>
          rw [hrename] at herror
          refine wp_ite (fun _ => wp_pure ⟨h₂, herror.failing⟩) fun _ => ?_
          refine wpStep_keeps_bind (advanceMicrosecond_keeps t) h₂ fun r w₃ hr h₃ => ?_
          cases r with
          | error rc => exact wp_pure ⟨h₃, .error (hr rc rfl)⟩
          | ok t' => exact ih t' h₃
      · exact (renameAnswer_wrote h₁ name a).1.writing List.nil_prefix

theorem unlinkAnswer_wrote (h : FileTook w₀ w []) (name : CString) (a : Answer) :
    FileTook w₀ (w.unlinkAnswer name a).2 [] ∧ ErrorNumber (w.unlinkAnswer name a).1 := by
  unfold FileWorld.unlinkAnswer
  split_ifs
  · exact ⟨h, .error a.errno_pos⟩
  · refine ⟨h.of_data h.ok.switchError rfl rfl rfl (fun n ino hn => ?_) rfl, .ok _⟩
    by_cases hname : n = name
    · subst hname
      exact absurd ((Function.update_self _ _ _).symm.trans hn) nofun
    · refine h.ok.used n ino ?_
      rw [← hn]
      exact (Function.update_of_ne hname _ _).symm
  · exact ⟨h, .error (by decide)⟩

/-- Retention deletes names of other files; it reports an error number or 0. -/
theorem retentionStep_wrote (now : ℤ) (changed : Bool) (h : FileTook w₀ w []) :
    wpStep (FileWriting w₀ bytes) (retentionStep now changed)
      (fun r w' => FileTook w₀ w' [] ∧ ∀ rc, r = .inr rc → rc.1 ≤ 0) w := by
  refine wpStep_keeps_bind getFile_keeps h fun f w₁ _ h₁ => ?_
  refine wpStep_keeps_bind call_keeps h₁ fun a w₂ _ h₂ => ?_
  -- a step that goes on returns no error
  have hleft : ∀ changed' : Bool, ∀ rc, (.inl changed' : Bool ⊕ ℤ × Bool) = .inr rc → rc.1 ≤ 0 :=
    fun _ _ => nofun
  have hright : ∀ e : ℤ, e ≤ 0 → ∀ rc, (.inr (e, changed) : Bool ⊕ ℤ × Bool) = .inr rc →
      rc.1 ≤ 0 := by
    intro e he rc hrc
    rw [← Sum.inr.inj hrc]
    exact he
  -- the end of the directory and a failed read end the scan
  cases a.entry with
  | none =>
    refine wp_pure ⟨h₂, hright _ ?_⟩
    split
    · exact le_rfl
    · exact a.neg_errno_neg.le
  | some name =>
    refine wp_ite (fun _ => wp_pure ⟨h₂, hleft _⟩) fun _ => ?_
    refine wpStep_keeps_bind (fstatat_keeps name) h₂ fun r w₃ hr h₃ => ?_
    cases r with
    | error e => exact wp_pure ⟨h₃, hright _ (hr.failing (β := Unit) _ rfl).le⟩
    | ok st =>
      refine wp_ite (fun _ => wp_pure ⟨h₃, hleft _⟩) fun _ => ?_
      refine wp_ite (fun _ => wp_pure ⟨h₃, hleft _⟩) fun _ => ?_
      -- the name of an archive is taken away, which no file in use notices
      refine wp_bind (Safe.ask trivial (fun a => ?_) fun a => ?_)
      · obtain ⟨h₄, herror⟩ := unlinkAnswer_wrote h₃ name a
        cases hunlink : (w₃.unlinkAnswer name a).1 with
        | error e =>
          rw [hunlink] at herror
          exact wp_pure ⟨h₄, hright _ (herror.failing (β := Unit) _ rfl).le⟩
        | ok u =>
          have hcounted : FileTook w₀ { (w₃.unlinkAnswer name a).2 with
              metrics := { (w₃.unlinkAnswer name a).2.metrics with
                retentionDeletions := (w₃.unlinkAnswer name a).2.metrics.retentionDeletions + 1 } }
              [] := h₄.of_shape rfl
          exact wp_bind (Safe.modify (wp_pure ⟨hcounted, hleft _⟩)
            (hcounted.writing List.nil_prefix))
      · exact (unlinkAnswer_wrote h₃ name a).1.writing List.nil_prefix

/-- What a function of a rotation that returns a number has done. -/
def RotatedRc (w₀ : FileWorld) (rc : ℤ) (w : FileWorld) : Prop := FileTook w₀ w [] ∧ rc ≤ 0

theorem retention_wrote (now : ℤ) (h : FileTook w₀ w []) :
    wpStep (FileWriting w₀ bytes) (retention now) (RotatedRc w₀) w := by
  refine wpStep_keeps_bind getFile_keeps h fun f w₁ _ h₁ => ?_
  refine wp_ite (fun _ => wp_pure ⟨h₁, le_rfl⟩) fun _ => ?_
  refine wpStep_keeps_bind call_keeps h₁ fun dir w₂ _ h₂ => ?_
  refine wp_ite (fun _ => wp_pure ⟨h₂, dir.neg_errno_neg.le⟩) fun _ => ?_
  refine wpStep_keeps_bind call_keeps h₂ fun scan w₃ _ h₃ => ?_
  refine wp_ite (fun _ => ?_) fun _ => ?_
  · refine wpStep_keeps_bind call_keeps h₃ fun _ w₄ _ h₄ => ?_
    exact wp_pure ⟨h₄, scan.neg_errno_neg.le⟩
  -- the loop keeps what its step keeps
  have hloop : wpStep (FileWriting w₀ bytes) (Prog.iterate (retentionStep now) false)
      (fun r w' => FileTook w₀ w' [] ∧ r.1 ≤ 0) w₃ := by
    refine wp_iterate (fun _ w' => FileTook w₀ w' []) (fun _ _ _ => trivial) ?_ h₃
    intro changed w₄ h₄
    refine wp_mono (retentionStep_wrote now changed h₄) ?_
    rintro (changed' | rc) w₅ ⟨h₅, hrc⟩
    · exact h₅
    · exact ⟨h₅, hrc rc rfl⟩
  refine wp_bind (wp_mono hloop ?_)
  rintro ⟨rc, changed⟩ w₄ ⟨h₄, hrc⟩
  refine wpStep_keeps_bind call_keeps h₄ fun closed w₅ _ h₅ => ?_
  -- a failed `closedir` counts only when the scan succeeded
  have hrc' : (if !closed.ok ∧ rc = 0 then -closed.errno else rc) ≤ 0 := by
    split
    · exact closed.neg_errno_neg.le
    · exact hrc
  generalize (if !closed.ok ∧ rc = 0 then -closed.errno else rc) = rc' at hrc' ⊢
  refine wp_ite (fun _ => ?_) fun _ => wp_pure ⟨h₅, hrc'⟩
  have hdirty :
    Keeps FileWorld.shape (fun _ => True) (setFile fun f => { f with dirDirty := true }) :=
    setFile_keeps fun _ => rfl
  refine wpStep_keeps_bind hdirty h₅ fun _ w₆ _ h₆ => ?_
  refine wpStep_keeps_bind syncDirectory_keeps h₆ fun synced w₇ hsynced h₇ => ?_
  refine wp_pure ⟨h₇, ?_⟩
  split
  · exact hsynced
  · exact hrc'

/-- The error exit after the rename: the descriptor stays, and the error is remembered. -/
theorem failSwitch_wrote (candidate : Option ℕ) {rc : ℤ} (hrc : rc ≤ 0) (h : FileTook w₀ w []) :
    wpStep (FileWriting w₀ bytes) (failSwitch candidate rc) (RotatedRc w₀) w := by
  refine wpStep_keeps_bind (loggerFdCloseStatus_keeps candidate) h fun _ w₁ _ h₁ => ?_
  have h₂ : FileTook w₀ { w₁ with file := { w₁.file with switchError := -rc } } [] :=
    h₁.of_data (neg_nonneg.mpr hrc) rfl rfl rfl h₁.ok.used rfl
  exact wp_bind (Safe.modify (wp_pure ⟨h₂, hrc⟩) (h₂.writing List.nil_prefix))

/-- The second half of a rotation: the new descriptor is a new file's. -/
theorem switchActive_wrote (t : Timespec) (h : FileTook w₀ w []) :
    wpStep (FileWriting w₀ bytes) (switchActive libc t) (RotatedRc w₀) w := by
  refine wpStep_keeps_bind syncDirectory_keeps h fun rc w₁ hrc h₁ => ?_
  refine wp_ite (fun _ => failSwitch_wrote none hrc h₁) fun _ => ?_
  refine wpStep_keeps_bind (wallDay_keeps t.sec) h₁ fun r w₂ hr h₂ => ?_
  cases r with
  | error rc => exact failSwitch_wrote none (hr rc rfl).le h₂
  | ok day =>
    -- the rename has freed the name, so the candidate is a new file
    have hstates : ∀ w', OpeningState w₂ w' → FileWriting w₀ bytes w' :=
      fun w' h' => (h₂.opening h').writing List.nil_prefix
    refine wp_bind (wp_mono (openCandidate_spec (fun _ _ => trivial) hstates true) ?_)
    rintro (rc | ⟨fd, st⟩) w₃ ⟨hopening, hfailing⟩
    all_goals have h₃ := h₂.opening ⟨hopening.opened, hopening.switchError⟩
    · exact failSwitch_wrote none (hfailing rc rfl).le h₃
    obtain ⟨hnew, hino⟩ := hopening.fresh _ rfl rfl
    refine wp_bind (wpStep_keeps (syncData_keeps _) h₃ List.nil_prefix fun rc w₄ hrc h₄ hw₄ => ?_)
    refine wp_ite (fun _ => failSwitch_wrote (some fd) hrc h₄) fun _ => ?_
    refine wp_bind (wpStep_keeps syncDirectory_keeps h₄ List.nil_prefix fun rc w₅ hrc h₅ hw₅ => ?_)
    refine wp_ite (fun _ => failSwitch_wrote (some fd) hrc h₅) fun _ => wp_getFile_bind ?_
    -- the synchronisations do not change the files
    have hdisk : w₅.disk = w₃.disk := congrArg (fun s => s.1.disk) (hw₅.trans hw₄)
    have hinstalled : ∀ w' : FileWorld, w'.disk = w₅.disk → w'.file.fd = some fd →
        w'.file.switchError = 0 → w'.call = w₅.call → FileTook w₀ w' [] := by
      intro w' hdisk' hfd hswitch hcall
      refine h₅.install ?_ (h₂.nextIno.trans hnew) hswitch.ge hdisk' hfd hcall
      rw [hdisk]
      exact hino
    -- the new descriptor is installed, and the old one is closed
    refine wp_bind (Safe.modify ?_ (FileTook.writing ?_ List.nil_prefix))
    · refine wpStep_keeps_bind (loggerFdCloseStatus_keeps _) (hinstalled _ rfl rfl rfl rfl)
        fun rc w₆ hrc h₆ => ?_
      exact wp_ite (fun _ => wp_pure ⟨h₆, hrc⟩) fun _ => retention_wrote t.sec h₆
    · exact hinstalled _ rfl rfl rfl rfl

theorem LoggerFile.detachedError_nonpos {f : LoggerFile} (h : 0 ≤ f.switchError) :
    f.detachedError ≤ 0 := by
  unfold LoggerFile.detachedError
  split
  · decide
  · exact neg_nonpos.mpr h

/-- `logger_file_sync` returns 0 or a negated error number, and touches no file. -/
theorem loggerFileSync_wrote {part : List UInt8} (h : FileTook w₀ w part)
    (hpart : part <+: bytes) : wpStep (FileWriting w₀ bytes) loggerFileSync
      (fun rc w' => FileTook w₀ w' part ∧ rc ≤ 0) w := by
  refine wp_getFile_bind (wp_ite (fun _ => wp_pure ⟨h, by decide⟩) fun _ => ?_)
  refine wp_bind (wpStep_keeps (syncData_keeps _) h hpart fun rc w₁ hrc h₁ _ => ?_)
  have hdirectory : Keeps FileWorld.shape (· ≤ 0)
      (if rc = 0 then syncDirectoryIfDirty else pure rc) :=
    .ite (fun _ => syncDirectoryIfDirty_keeps) fun _ => .pure hrc
  refine wp_bind (wpStep_keeps hdirectory h₁ hpart fun rc w₂ hrc h₂ _ => wp_getFile_bind ?_)
  refine wp_bind (wpStep_keeps (countMetrics_keeps _) h₂ hpart fun _ w₃ _ h₃ _ => wp_pure ⟨h₃, ?_⟩)
  split
  · exact LoggerFile.detachedError_nonpos h₂.ok.switchError
  · exact hrc

theorem rotateImpl_wrote (h : FileTook w₀ w []) :
    wpStep (FileWriting w₀ bytes) (rotateImpl libc) (RotatedRc w₀) w := by
  refine wpStep_keeps_bind checkActive_keeps h fun rc w₁ hrc h₁ => ?_
  refine wp_ite (fun _ => wp_pure ⟨h₁, hrc⟩) fun _ => ?_
  refine wpStep_keeps_bind call_keeps h₁ fun clock w₂ _ h₂ => ?_
  refine wp_ite (fun _ => wp_pure ⟨h₂, clock.neg_errno_neg.le⟩) fun _ => ?_
  refine wpStep_keeps_bind (timestampValid_keeps _) h₂ fun _ w₃ _ h₃ => ?_
  refine wp_ite (fun _ => wp_pure ⟨h₃, by decide⟩) fun _ => ?_
  refine wpStep_keeps_bind (archiveStart_keeps _) h₃ fun r w₄ hr h₄ => ?_
  cases r with
  | error rc => exact wp_pure ⟨h₄, (hr rc rfl).le⟩
  | ok t =>
    refine wp_bind (wp_mono (loggerFileSync_wrote h₄ List.nil_prefix) ?_)
    rintro rc w₅ ⟨h₅, hrc⟩
    refine wp_ite (fun _ => wp_pure ⟨h₅, hrc⟩) fun _ => ?_
    refine wp_bind (wp_mono (archiveRename_wrote _ t h₅) ?_)
    rintro (rc | t') w₆ ⟨h₆, hfailing⟩
    · exact wp_pure ⟨h₆, (hfailing rc rfl).le⟩
    have hdetached : ∀ w' : FileWorld, w'.disk = w₆.disk → w'.file.fd = w₆.file.fd →
        w'.file.switchError = eio → w'.call = w₆.call → FileTook w₀ w' [] := by
      intro w' hdisk hfd hswitch hcall
      refine h₆.of_data ?_ hfd (congrArg Disk.data hdisk) (congrArg Disk.nextIno hdisk) ?_ hcall
      · rw [hswitch]
        decide
      · rw [hdisk]
        exact h₆.ok.used
    refine wp_bind (Safe.modify (switchActive_wrote t' ?_) (FileTook.writing ?_ List.nil_prefix))
    all_goals exact hdetached _ rfl rfl rfl rfl

theorem rotate_wrote (h : FileTook w₀ w []) :
    wpStep (FileWriting w₀ bytes) (rotate libc) (RotatedRc w₀) w := by
  refine wpStep_keeps_bind (countMetrics_keeps _) h fun _ w₁ _ h₁ => ?_
  refine wp_bind (wp_mono (rotateImpl_wrote h₁) ?_)
  rintro rc w₂ ⟨h₂, hrc⟩
  refine wp_ite (fun _ => ?_) fun _ => ?_
  all_goals
    refine wpStep_keeps_bind (countMetrics_keeps _) h₂ fun _ w₃ _ h₃ => ?_
    exact wp_pure ⟨h₃, hrc⟩

theorem prepareWrite_wrote (n : ℕ) (t : Option Timespec) (h : FileTook w₀ w []) :
    wpStep (FileWriting w₀ bytes) (prepareWrite libc n t) (RotatedRc w₀) w := by
  refine wp_getFile_bind (wp_ite (fun _ => wp_pure ⟨h, by decide⟩) fun _ => ?_)
  cases t with
  | none => exact wp_pure ⟨h, by decide⟩
  | some t =>
    refine wp_ite (fun _ => wp_pure ⟨h, by decide⟩) fun _ => ?_
    refine wp_ite (fun _ => wp_pure ⟨h, ?_⟩) fun _ => ?_
    · exact LoggerFile.detachedError_nonpos h.ok.switchError
    refine wp_ite (fun _ => wp_pure ⟨h, le_rfl⟩) fun _ => wp_ite (fun _ => ?_) fun _ => ?_
    · refine wpStep_keeps_bind (wallDay_keeps _) h fun r w₁ hr h₁ => ?_
      cases r with
      | error rc => exact wp_pure ⟨h₁, (hr rc rfl).le⟩
      | ok d => exact wp_ite (fun _ => rotate_wrote h₁) fun _ => wp_pure ⟨h₁, le_rfl⟩
    · exact wp_ite (fun _ => rotate_wrote h) fun _ => wp_pure ⟨h, le_rfl⟩

/-! ## Write loops -/

/-- A write loop is under way: `rest` are the bytes of the call that the kernel has not taken. -/
def FileProgress (w₀ : FileWorld) (bytes : List UInt8) (fd : Option ℕ) (rest : List UInt8)
    (w : FileWorld) : Prop := ∃ part, part ++ rest = bytes ∧ FileTook w₀ w part ∧ w.file.fd = fd

theorem FileProgress.writing {fd : Option ℕ} {rest : List UInt8}
    (h : FileProgress w₀ bytes fd rest w) : FileWriting w₀ bytes w := by
  obtain ⟨part, hall, hwrote, -⟩ := h
  exact ⟨part, ⟨rest, hall⟩, hwrote⟩

theorem FileProgress.of_shape {fd : Option ℕ} {rest : List UInt8} {w' : FileWorld}
    (h : FileProgress w₀ bytes fd rest w) (hshape : w'.shape = w.shape) :
    FileProgress w₀ bytes fd rest w' := by
  obtain ⟨part, hall, hwrote, hfd⟩ := h
  have hfd' : w'.file.fd = w.file.fd := congrArg (fun s => s.1.fd) hshape
  exact ⟨part, hall, hwrote.of_shape hshape, hfd'.trans hfd⟩

/-- Counting something while a write loop is under way. -/
theorem FileProgress.count_bind {fd : Option ℕ} {rest : List UInt8} {g : FileMetrics → FileMetrics}
    {f : Unit → FileProg α} {Q : α → FileWorld → Prop} (h : FileProgress w₀ bytes fd rest w)
    (hf : ∀ w', FileProgress w₀ bytes fd rest w' → wpStep (FileWriting w₀ bytes) (f ()) Q w') :
    wpStep (FileWriting w₀ bytes) (countMetrics g >>= f) Q w := by
  have hcounted : FileProgress w₀ bytes fd rest { w with metrics := g w.metrics } := h.of_shape rfl
  exact wp_bind (Safe.modify (hf _ hcounted) hcounted.writing)

/-- The result of a write: 0 only when all bytes have been taken. -/
structure FileWritten (w₀ : FileWorld) (bytes : List UInt8) (rc : ℤ) (w : FileWorld) : Prop where
  nonpos : rc ≤ 0
  writing : FileWriting w₀ bytes w
  complete : rc = 0 → FileTook w₀ w bytes

theorem FileWritten.failed {rc : ℤ} (hrc : rc < 0) (h : FileWriting w₀ bytes w) :
    FileWritten w₀ bytes rc w := ⟨hrc.le, h, fun hzero => absurd hzero hrc.ne⟩

/-- What one write call has done: nothing, or the next bytes are taken. -/
def WriteAnswered (w₀ : FileWorld) (bytes : List UInt8) (fd : Option ℕ) (rest : List UInt8)
    (r : Except ℤ ℕ) (w : FileWorld) : Prop :=
  match r with
  | .error e => 0 < e ∧ FileProgress w₀ bytes fd rest w
  | .ok k => FileProgress w₀ bytes fd (rest.drop k) w

theorem writeCall_wrote {fd : Option ℕ} {rest offered : List UInt8}
    (h : FileProgress w₀ bytes fd rest w) (hoffered : offered <+: rest) :
    wpStep (FileWriting w₀ bytes) (writeCall fd offered) (WriteAnswered w₀ bytes fd rest) w := by
  -- the answer counts bytes of what was offered, whatever else it says
  have hanswer : ∀ a, WriteAnswered w₀ bytes fd rest (w.writeAnswer fd offered a).1
      (w.writeAnswer fd offered a).2 := by
    intro a
    unfold FileWorld.writeAnswer
    cases fd with
    | none => exact ⟨by decide, h⟩
    | some ino =>
      cases a.ok with
      | false => exact ⟨a.errno_pos, h.of_shape rfl⟩
      | true =>
        obtain ⟨part, hall, hwrote, hfd⟩ := h
        have hlen : min a.count offered.length = (offered.take a.count).length :=
          List.length_take.symm
        -- the part grows by the bytes counted, and the rest begins after them
        refine ⟨part ++ offered.take a.count, ?_, hwrote.append hfd _ rfl rfl ?_, hfd⟩
        on_goal 2 => exact congrArg (fun k => (_, _, w.history.taken + k)) hlen
        have htake : offered.take a.count <+: rest := (List.take_prefix _ _).trans hoffered
        rw [hlen, List.append_assoc, ← List.prefix_append_drop htake]
        exact hall
  refine Safe.ask trivial hanswer fun a => ?_
  have ha := hanswer a
  cases hr : (w.writeAnswer fd offered a).1 with
  | error e =>
    rw [hr] at ha
    exact ha.2.writing
  | ok k =>
    rw [hr] at ha
    exact FileProgress.writing ha

theorem afterWrite_wrote {fd : Option ℕ} {result : Except ℤ ℕ} {goOn : ℕ → β} {retry : β}
    (rest : β → List UInt8) (written : ℕ)
    (hresult : match result with
      | .error e => 0 < e ∧ FileProgress w₀ bytes fd (rest retry) w
      | .ok k => FileProgress w₀ bytes fd (rest (goOn k)) w) :
    wpStep (FileWriting w₀ bytes) (afterWrite result goOn retry written)
      (fun r w' => r.elim (fun b => FileProgress w₀ bytes fd (rest b) w')
        (fun rc => FileWritten w₀ bytes rc.1 w')) w := by
  unfold afterWrite
  cases result with
  | error e =>
    obtain ⟨he, hretry⟩ := hresult
    refine wp_ite (fun _ => ?_) fun _ => ?_
    · exact hretry.count_bind fun _ h' => wp_pure h'
    · refine hretry.count_bind fun _ h' => wp_pure (.failed ?_ h'.writing)
      rw [if_neg he.ne']
      exact neg_neg_of_pos he
  | ok k =>
    cases k with
    | zero =>
      refine FileProgress.count_bind hresult fun _ h' => wp_pure (.failed ?_ h'.writing)
      exact show -eio < 0 by decide
    | succ k => exact wp_pure hresult

theorem all_wrote {fd : Option ℕ} {p : List UInt8} (h : FileProgress w₀ bytes fd p w) :
    wpStep (FileWriting w₀ bytes) (all fd p) (fun r w' => FileWritten w₀ bytes r.1 w') w := by
  refine wp_iterate (fun (b : List UInt8 × ℕ) w => FileProgress w₀ bytes fd b.1 w)
    (fun _ _ _ => trivial) ?_ h
  rintro ⟨p, written⟩ w hp
  refine wp_ite (fun hempty => wp_pure ⟨le_rfl, hp.writing, fun _ => ?_⟩) fun _ => ?_
  · obtain ⟨part, hall, hwrote, -⟩ := hp
    rw [hempty, List.append_nil] at hall
    exact hall ▸ hwrote
  · refine hp.count_bind fun _ hp => ?_
    refine wp_bind (wp_mono (writeCall_wrote hp List.prefix_rfl) ?_)
    intro result w₁ hresult
    refine afterWrite_wrote (fun b : List UInt8 × ℕ => b.1) written ?_
    cases result <;> exact hresult

theorem vall_wrote {fd : Option ℕ} {v : List (List UInt8)} (iovMax : ℕ)
    (h : FileProgress w₀ bytes fd v.flatten w) :
    wpStep (FileWriting w₀ bytes) (vall fd iovMax v)
      (fun r w' => FileWritten w₀ bytes r.1 w') w := by
  refine wp_iterate (fun (b : List (List UInt8) × ℕ) w => FileProgress w₀ bytes fd b.1.flatten w)
    (fun _ _ _ => trivial) ?_ h
  rintro ⟨v, written⟩ w hv
  -- the empty buffers in front are skipped, which changes no byte
  rw [← flatten_dropWhile_isEmpty] at hv
  cases hdrop : v.dropWhile (·.isEmpty) with
  | nil =>
    simp only [hdrop]
    rw [hdrop] at hv
    -- no buffer is left, so all the bytes have been written
    refine wp_pure ⟨le_rfl, hv.writing, fun _ => ?_⟩
    obtain ⟨part, hall, hwrote, -⟩ := hv
    rw [List.flatten_nil, List.append_nil] at hall
    exact hall ▸ hwrote
  | cons x xs =>
    simp only [hdrop]
    rw [hdrop] at hv
    have hoffered : ((x :: xs).take iovMax).flatten <+: (x :: xs).flatten :=
      (List.take_prefix _ _).flatten
    refine hv.count_bind fun _ hv => ?_
    refine wp_bind (wp_mono (writeCall_wrote hv hoffered) ?_)
    intro result w₁ hresult
    refine afterWrite_wrote (fun b : List (List UInt8) × ℕ => b.1.flatten) written ?_
    cases result with
    -- what is left after the call is what the advanced vectors hold
    | error e => exact hresult
    | ok k =>
      simp only [flatten_advanceVectors]
      exact hresult

/-! ## The calls -/

theorem finishWrite_wrote {rc : ℤ} {output : FileProg (ℤ × ℕ)} (sync : Bool) (hrc : rc ≤ 0)
    (h : FileTook w₀ w []) (houtput : rc = 0 →
      wpStep (FileWriting w₀ bytes) output (fun r w' => FileWritten w₀ bytes r.1 w') w) :
    wpStep (FileWriting w₀ bytes) (finishWrite rc output sync) (FileWritten w₀ bytes) w := by
  have hstart : FileWriting w₀ bytes w := h.writing List.nil_prefix
  have hwritten : wpStep (FileWriting w₀ bytes) (if rc = 0 then output else pure (rc, 0))
      (fun r w' => FileWritten w₀ bytes r.1 w') w :=
    wp_ite houtput fun hne => wp_pure (.failed (lt_of_le_of_ne hrc hne) hstart)
  refine wp_bind (wp_mono hwritten ?_)
  rintro ⟨rc, written⟩ w₁ ⟨hrc₁, ⟨part, hpart, h₁⟩, hcomplete⟩
  refine wp_bind (wpStep_keeps (account_keeps _) h₁ hpart fun _ w₂ _ h₂ hw₂ => ?_)
  have hcomplete₂ : rc = 0 → FileTook w₀ w₂ bytes := fun hzero => (hcomplete hzero).of_shape hw₂
  have hsync : wpStep (FileWriting w₀ bytes) (if rc = 0 ∧ sync then loggerFileSync else pure rc)
      (FileWritten w₀ bytes) w₂ := by
    refine wp_ite (fun hzero => ?_) fun _ => wp_pure ⟨hrc₁, h₂.writing hpart, hcomplete₂⟩
    refine wp_mono (loggerFileSync_wrote (hcomplete₂ hzero.1) List.prefix_rfl) ?_
    rintro rc' w₃ ⟨h₃, hrc'⟩
    exact ⟨hrc', h₃.writing List.prefix_rfl, fun _ => h₃⟩
  refine wp_bind (wp_mono hsync ?_)
  rintro rc w₃ ⟨hrc₃, ⟨part', hpart', h₃⟩, hcomplete₃⟩
  refine wp_ite (fun _ => ?_) fun _ => ?_
  all_goals
    refine wp_bind (wpStep_keeps (countMetrics_keeps _) h₃ hpart' fun _ w₄ _ h₄ hw₄ => ?_)
    exact wp_pure ⟨hrc₃, h₄.writing hpart', fun hzero => (hcomplete₃ hzero).of_shape hw₄⟩

theorem FileTook.progress (h : FileTook w₀ w []) : FileProgress w₀ bytes w.file.fd bytes w :=
  ⟨[], rfl, h, rfl⟩

theorem loggerFileWrite_wrote (p : Iovec) (t : Option Timespec) (sync : Bool)
    (h : FileTook w₀ w []) : wpStep (FileWriting w₀ p.bytes) (loggerFileWrite libc p t sync)
      (FileWritten w₀ p.bytes) w := by
  refine wp_ite (fun _ => wp_pure (.failed (by decide) (h.writing List.nil_prefix))) fun _ => ?_
  refine wpStep_keeps_bind (countMetrics_keeps _) h fun _ w₁ _ h₁ => ?_
  refine wp_bind (wp_mono (prepareWrite_wrote p.len t h₁) ?_)
  rintro rc w₂ ⟨h₂, hrc⟩
  exact wp_getFile_bind (finishWrite_wrote sync hrc h₂ fun _ => all_wrote h₂.progress)

theorem loggerFileWritev_wrote (v : List Iovec) (n : ℕ) (t : Option Timespec) (sync : Bool)
    (h : FileTook w₀ w []) : wpStep (FileWriting w₀ (v.map Iovec.bytes).flatten)
      (loggerFileWritev libc v n t sync) (FileWritten w₀ (v.map Iovec.bytes).flatten) w := by
  refine wp_ite (fun _ => wp_pure (.failed (by decide) (h.writing List.nil_prefix))) fun _ => ?_
  refine wpStep_keeps_bind (countMetrics_keeps _) h fun _ w₁ _ h₁ => ?_
  refine wp_bind (wp_mono (prepareWrite_wrote n t h₁) ?_)
  rintro rc w₂ ⟨h₂, hrc⟩
  exact wp_getFile_bind (finishWrite_wrote sync hrc h₂ fun _ => vall_wrote _ h₂.progress)

/-- The state in which the bytes of a call have been entered. -/
def FileOp.entered (op : FileOp) (w : FileWorld) : FileWorld :=
  { w with history := w.history.begin op.bytes }

theorem FileOp.entered_ok (op : FileOp) (h : FileOk w) : FileOk (op.entered w) :=
  ⟨h.switchError, h.fd, h.used⟩

theorem fileOp_exec_took (op : FileOp) (hop : op ≠ .reopen) (h : FileOk w) :
    wpStep (FileWriting (op.entered w) op.bytes) (op.exec libc)
      (FileWritten (op.entered w) op.bytes) w := by
  have hbegin : FileTook (op.entered w) (op.entered w) [] := .start (op.entered_ok h)
  refine wp_bind (Safe.modify ?_ (hbegin.writing List.nil_prefix))
  cases op with
  | write p t synced => exact loggerFileWrite_wrote p t synced hbegin
  | writev v n t synced => exact loggerFileWritev_wrote v n t synced hbegin
  | sync =>
    refine wp_mono (loggerFileSync_wrote hbegin List.nil_prefix) ?_
    rintro rc w₁ ⟨h₁, hrc⟩
    exact ⟨hrc, h₁.writing List.nil_prefix, fun _ => h₁⟩
  | reopen => exact absurd rfl hop

/-- What a call has taken of its bytes: they are in the file, and at the end of what has been
accepted so far. -/
structure FileTaken (w₀ w : FileWorld) (part : List UInt8) : Prop extends FileWrote w₀ w part where
  accepted : w.history.accepted = w₀.history.accepted ++ part

theorem FileTook.fileTaken {op : FileOp} {part : List UInt8} (h : FileTook (op.entered w₀) w part)
    (hpart : part <+: op.bytes) : FileTaken w₀ w part := by
  refine ⟨⟨h.ok, h.nextIno, h.fd, h.data⟩, ?_⟩
  obtain ⟨hpast, hrest⟩ := Prod.mk.inj h.call
  obtain ⟨hcurrent, htaken⟩ := Prod.mk.inj hrest
  have hentered : (op.entered w₀).history.taken = 0 := rfl
  rw [History.accepted, hpast, hcurrent, htaken, hentered, Nat.zero_add]
  exact congrArg (w₀.history.accepted ++ ·) (List.prefix_iff_eq_take.mp hpart).symm

/-- The result of a call: 0 only when all bytes have been taken. -/
structure FileResult (op : FileOp) (w₀ : FileWorld) (rc : ℤ) (w : FileWorld) : Prop where
  nonpos : rc ≤ 0
  taken : ∃ part, part <+: op.bytes ∧ (rc = 0 → part = op.bytes) ∧ FileTaken w₀ w part

/-- The result of every call but reopen. -/
theorem fileOp_exec_wrote {op : FileOp} {rc : ℤ} (hop : op ≠ .reopen) (hok : FileOk w₀)
    (h : Returns (op.exec libc) w₀ rc w) : FileResult op w₀ rc w := by
  have hwritten := h.spec (fileOp_exec_took op hop hok)
  obtain ⟨part, hpart, htook⟩ := hwritten.writing
  refine ⟨hwritten.nonpos, ?_⟩
  by_cases hzero : rc = 0
  · exact ⟨op.bytes, List.prefix_rfl, fun _ => rfl,
      (hwritten.complete hzero).fileTaken List.prefix_rfl⟩
  · exact ⟨part, hpart, fun h => absurd h hzero, htook.fileTaken hpart⟩

/-- The files that were there are as they were, and nothing has been taken. This is all that a
reopen promises, since it takes whatever file the name leads to. -/
structure FileGrew (w₀ w : FileWorld) : Prop where
  ok : FileOk w
  nextIno : w₀.disk.nextIno ≤ w.disk.nextIno
  data : ∀ ino < w₀.disk.nextIno, w.disk.data ino = w₀.disk.data ino
  call : w.call = w₀.call

theorem FileGrew.of_shape {w' : FileWorld} (h : FileGrew w₀ w) (hshape : w'.shape = w.shape) :
    FileGrew w₀ w' := by
  have hdisk : w'.disk = w.disk := congrArg (fun s => s.1.disk) hshape
  have hhistory : w'.history = w.history := congrArg (fun s => s.1.history) hshape
  have hcall : w'.call = w.call := by rw [FileWorld.call, hhistory, FileWorld.call]
  exact ⟨h.ok.of_shape hshape, hdisk ▸ h.nextIno, hdisk ▸ h.data, hcall.trans h.call⟩

/-- Before anything is written, a call has only made empty files. -/
theorem FileTook.grew (h : FileTook w₀ w []) : FileGrew w₀ w := by
  refine ⟨h.ok, h.nextIno, fun ino hino => ?_, h.call⟩
  rw [h.data ino (lt_of_lt_of_le hino h.nextIno), if_pos hino, ite_self, List.append_nil]

theorem fileReopenImpl_grew (h : FileTook w₀ w []) :
    wpStep (FileGrew w₀) (fileReopenImpl libc) (fun rc w' => FileGrew w₀ w' ∧ rc ≤ 0) w := by
  -- until the candidate is installed nothing that is seen changes
  have hkeeps : ∀ {γ δ : Type} {P : γ → Prop} {m : FileProg γ} {f : γ → FileProg δ}
      {Q : δ → FileWorld → Prop} (w₁ : FileWorld), FileTook w₀ w₁ [] → Keeps FileWorld.shape P m →
      (∀ a w₂, P a → FileTook w₀ w₂ [] → w₂.shape = w₁.shape →
        wpStep (FileGrew w₀) (f a) Q w₂) → wpStep (FileGrew w₀) (m >>= f) Q w₁ := by
    intro γ δ P m f Q w₁ h₁ hm hf
    refine wp_bind (wp_of_keeps hm (fun _ _ => trivial) (fun w₂ hw₂ => ?_) fun a w₂ ha hw₂ => ?_)
    · exact (h₁.of_shape hw₂).grew
    · exact hf a w₂ ha (h₁.of_shape hw₂) hw₂
  refine hkeeps w h call_keeps fun now w₁ _ h₁ _ => ?_
  refine hkeeps w₁ h₁ (wallDay_keeps _) fun r w₂ hr h₂ _ => ?_
  cases r with
  | error rc => exact wp_pure ⟨h₂.grew, (hr rc rfl).le⟩
  | ok day =>
    have hstates : ∀ w', OpeningState w₂ w' → FileGrew w₀ w' := fun w' h' => (h₂.opening h').grew
    refine wp_bind (wp_mono (openCandidate_spec (fun _ _ => trivial) hstates false) ?_)
    rintro (rc | ⟨fd, st⟩) w₃ ⟨hopening, hfailing⟩
    all_goals have h₃ := h₂.opening ⟨hopening.opened, hopening.switchError⟩
    · exact wp_pure ⟨h₃.grew, (hfailing rc rfl).le⟩
    have hactive := hopening.active _ rfl
    have hdata : Keeps FileWorld.shape (· ≤ 0)
        (if w₃.file.binding.managed then syncData w₃.file.fd else pure 0) :=
      .ite (fun _ => syncData_keeps _) fun _ => .pure le_rfl
    refine wp_getFile_bind (hkeeps w₃ h₃ hdata fun rc w₄ hrc h₄ hw₄ => ?_)
    have hdirectory : Keeps FileWorld.shape (· ≤ 0)
        (if rc = 0 then syncDirectoryIfDirty else pure rc) :=
      .ite (fun _ => syncDirectoryIfDirty_keeps) fun _ => .pure hrc
    refine hkeeps w₄ h₄ hdirectory fun rc w₅ hrc h₅ hw₅ => wp_ite (fun _ => ?_) fun _ => ?_
    · refine hkeeps w₅ h₅ (loggerFdCloseStatus_keeps _) fun _ w₆ _ h₆ _ => ?_
      exact wp_pure ⟨h₆.grew, hrc⟩
    · -- the descriptor is that of the active file from here on
      have hcore : w₅.core = w₃.core := congrArg Prod.fst (hw₅.trans hw₄)
      rw [← hcore] at hactive
      have hinstalled : ∀ w' : FileWorld, w'.disk = w₅.disk → w'.file.fd = some fd →
          w'.file.switchError = 0 → w'.call = w₅.call → FileGrew w₀ w' := by
        intro w' hdisk hfd hswitch hcall
        refine ⟨⟨hswitch.ge, fun ino hino => ?_, ?_⟩, ?_, ?_, hcall.trans h₅.call⟩
        · rw [hfd] at hino
          rw [hdisk, ← Option.some.inj hino]
          exact h₅.ok.used _ _ hactive
        · rw [hdisk]
          exact h₅.ok.used
        · rw [hdisk]
          exact h₅.nextIno
        · rw [hdisk]
          exact h₅.grew.data
      refine wp_bind (Safe.modify ?_ (hinstalled _ rfl rfl rfl rfl))
      have hclose : Keeps FileWorld.shape (· ≤ 0) (loggerFdCloseStatus w₃.file.fd) :=
        loggerFdCloseStatus_keeps _
      refine wp_of_keeps hclose (fun _ _ => trivial) (fun w₆ hw₆ => ?_)
        fun rc w₆ hrc hw₆ => ⟨?_, hrc⟩
      all_goals
        have hdisk := congrArg (fun s => s.1.disk) hw₆
        have hfd := congrArg (fun s => s.1.fd) hw₆
        have hhistory : w₆.history = w₅.history := congrArg (fun s => s.1.history) hw₆
        exact hinstalled w₆ hdisk hfd (congrArg Prod.snd hw₆)
          (by rw [FileWorld.call, hhistory]; rfl)

theorem fileOp_reopen_grew (h : FileOk w) :
    wpStep (FileGrew (FileOp.reopen.entered w)) (FileOp.reopen.exec libc)
      (fun rc w' => FileGrew (FileOp.reopen.entered w) w' ∧ rc ≤ 0) w := by
  have hbegin : FileTook (FileOp.reopen.entered w) (FileOp.reopen.entered w) [] :=
    .start (FileOp.reopen.entered_ok h)
  refine wp_bind (Safe.modify ?_ hbegin.grew)
  refine wp_getFile_bind (wp_ite (fun _ => wp_pure ⟨hbegin.grew, by decide⟩) fun _ => ?_)
  refine wp_bind (Safe.modify (wp_bind (wp_mono (fileReopenImpl_grew (hbegin.of_shape ?_)) ?_)) ?_)
  · rfl
  · rintro rc w₂ ⟨h₂, hrc⟩
    refine wp_ite (fun _ => ?_) fun _ => ?_
    all_goals
      refine wp_bind (Safe.modify (wp_pure ⟨h₂.of_shape ?_, hrc⟩) (h₂.of_shape ?_))
      all_goals rfl
  · exact hbegin.grew.of_shape rfl

/-- The result of a reopen. -/
theorem fileOp_exec_reopened {rc : ℤ} (hok : FileOk w₀)
    (h : Returns (FileOp.reopen.exec libc) w₀ rc w) :
    FileOk w ∧ (∀ ino < w₀.disk.nextIno, w.disk.data ino = w₀.disk.data ino) ∧
      w.history.accepted = w₀.history.accepted := by
  obtain ⟨hgrew, -⟩ := h.spec (fileOp_reopen_grew hok)
  refine ⟨hgrew.ok, hgrew.data, ?_⟩
  obtain ⟨hpast, hrest⟩ := Prod.mk.inj hgrew.call
  obtain ⟨-, htaken⟩ := Prod.mk.inj hrest
  have hentered : (FileOp.reopen.entered w₀).history.taken = 0 := rfl
  rw [History.accepted, hpast, htaken, hentered, List.take_zero, List.append_nil]
  rfl

end Specs

end CLogger
