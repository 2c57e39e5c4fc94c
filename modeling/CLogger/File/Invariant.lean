import CLogger.File.Model

/-!
# The log stream on disk

The invariant behind rotation: what the archives of the run and the active file hold together is
the initial content followed by every byte the kernel has accepted. It is an invariant of the
*core* of the state, the part that the calls for checks, clocks and synchronisation do not touch,
and is kept by the five ways in which the core can change: an append through an attached
descriptor (`FileInv.append`), the creation of the active file (`FileInv.create`), the move of the
active file to an archive name (`FileInv.archive`), the installation of a new descriptor
(`FileInv.install`) and the start of the next call (`FileInv.begin`).
-/

namespace CLogger

/-- The part of the state that decides what is where in the log stream. -/
structure FileCore where
  disk : Disk
  binding : FileBinding
  fd : Option ℕ
  detached : Bool
  archiveTime : Timespec
  archiveTimeValid : Bool
  history : History

/-- The core of a state. -/
def FileWorld.core (w : FileWorld) : FileCore where
  disk := w.disk
  binding := w.file.binding
  fd := w.file.fd
  detached := w.file.detached
  archiveTime := w.file.archiveTime
  archiveTimeValid := w.file.archiveTimeValid
  history := w.history

/-- The archive name for a time. -/
def FileBinding.nameAt (b : FileBinding) (libc : Libc) (t : Timespec) : CString :=
  archiveText b.stem b.ext (strftimeStamp libc.yearWidth (gmtime t.sec)) t.nsec

/-- The time of the last archive, as `rotate_impl` remembers it. -/
def FileCore.lastTime (c : FileCore) : Option Timespec :=
  if c.archiveTimeValid then some c.archiveTime else none

/-- The invariant of a run that started with the core `c₀`. -/
structure FileInv (libc : Libc) (c₀ c : FileCore) : Prop where
  binding : c.binding = c₀.binding
  used : ∀ n ino, c.disk.dir n = some ino → ino < c.disk.nextIno
  /-- The descriptor is the active file's unless the file is detached. -/
  attached : c.detached = false → c.fd ≠ none ∧ c.disk.dir c.binding.name = c.fd
  /-- After a switch that failed half way there is no active file, or an empty one. -/
  sealed : c.detached = true → c.disk.content c.binding.name = []
  single : ∀ n ino, n ≠ c.binding.name → c.disk.dir n = some ino →
    c.disk.dir c.binding.name ≠ some ino
  archived : ∀ n ∈ c.history.archives, n ≠ c.binding.name ∧ c.disk.dir n ≠ none
  /-- No archive took the name of a file that was there before. -/
  unused : ∀ n ∈ c.history.archives, c₀.disk.dir n = none
  named : c.history.archives = c.history.times.map (c.binding.nameAt libc)
  increasing : c.history.times.Pairwise Timespec.Before
  printable : ∀ t ∈ c.history.times, t.Printable libc.yearWidth
  last : c.lastTime = c.history.times.getLast?
  stream : c₀.disk.content c₀.binding.name ++ c.history.accepted =
    c.history.archives.flatMap c.disk.content ++ c.disk.content c.binding.name
  kept : ∀ n ino, n ≠ c₀.binding.name → c₀.disk.dir n = some ino →
    c.disk.dir n = some ino ∧ c.disk.data ino = c₀.disk.data ino

namespace Disk

variable {d : Disk} {n name : CString} {ino : ℕ} {bytes : List UInt8}

theorem content_of_dir (h : d.dir n = some ino) : d.content n = d.data ino := by
  simp only [content, h]

theorem content_of_none (h : d.dir n = none) : d.content n = [] := by
  simp only [content, h]

theorem content_append_self (h : d.dir n = some ino) :
    (d.append ino bytes).content n = d.content n ++ bytes := by
  rw [content_of_dir h, content_of_dir (d := d.append ino bytes) h]
  exact Function.update_self ..

theorem content_append_of_ne (h : d.dir n ≠ some ino) :
    (d.append ino bytes).content n = d.content n := by
  cases hn : d.dir n with
  | none => rw [content_of_none hn, content_of_none (d := d.append ino bytes) hn]
  | some ino' =>
    rw [content_of_dir hn, content_of_dir (d := d.append ino bytes) hn]
    have hne : ino' ≠ ino := by
      rintro rfl
      exact h hn
    exact Function.update_of_ne hne ..

theorem dir_create_self : (d.create name).dir name = some d.nextIno := Function.update_self ..

theorem dir_create_of_ne (h : n ≠ name) : (d.create name).dir n = d.dir n :=
  Function.update_of_ne h ..

theorem content_create_self : (d.create name).content name = [] := by
  rw [content_of_dir dir_create_self]
  exact Function.update_self ..

/-- Creating a file leaves the other files alone, since its inode is new. -/
theorem content_create_of_ne (hused : ∀ n ino, d.dir n = some ino → ino < d.nextIno)
    (h : n ≠ name) : (d.create name).content n = d.content n := by
  have hdir : (d.create name).dir n = d.dir n := dir_create_of_ne h
  cases hn : d.dir n with
  | none => rw [content_of_none hn, content_of_none (hdir.trans hn)]
  | some ino =>
    rw [content_of_dir hn, content_of_dir (hdir.trans hn)]
    exact Function.update_of_ne (hused n ino hn).ne ..

theorem dir_rename_old : (d.rename name n).dir name = none := Function.update_self ..

theorem dir_rename_new (h : n ≠ name) : (d.rename name n).dir n = d.dir name := by
  rw [rename]
  exact (Function.update_of_ne h ..).trans (Function.update_self ..)

theorem dir_rename_of_ne {new : CString} (h : n ≠ name) (h' : n ≠ new) :
    (d.rename name new).dir n = d.dir n := by
  rw [rename]
  exact (Function.update_of_ne h ..).trans (Function.update_of_ne h' ..)

theorem content_rename_new (h : n ≠ name) : (d.rename name n).content n = d.content name := by
  simp only [content, dir_rename_new h]
  rfl

theorem content_rename_of_ne {new : CString} (h : n ≠ name) (h' : n ≠ new) :
    (d.rename name new).content n = d.content n := by
  simp only [content, dir_rename_of_ne h h']
  rfl

end Disk

/-! ## The changes of the core -/

namespace FileCore

/-- The kernel has taken the next bytes of the current buffer. -/
def append (c : FileCore) (ino : ℕ) (bytes : List UInt8) : FileCore :=
  { c with
    disk := c.disk.append ino bytes
    history := { c.history with taken := c.history.taken + bytes.length } }

/-- The active file has been created. -/
def create (c : FileCore) : FileCore := { c with disk := c.disk.create c.binding.name }

/-- The active file has been moved to an archive name. -/
def rename (c : FileCore) (new : CString) : FileCore :=
  { c with
    disk := c.disk.rename c.binding.name new
    history := { c.history with archives := c.history.archives ++ [new] } }

/-- The descriptor has been declared the archive's of time `t`. -/
def detach (c : FileCore) (t : Timespec) : FileCore :=
  { c with
    detached := true, archiveTime := t, archiveTimeValid := true
    history := { c.history with times := c.history.times ++ [t] } }

/-- A new descriptor has been installed. -/
def install (c : FileCore) (ino : ℕ) : FileCore := { c with fd := some ino, detached := false }

/-- The next call has been entered. -/
def begin (c : FileCore) (bytes : List UInt8) : FileCore :=
  { c with history := c.history.begin bytes }

end FileCore

namespace FileInv

variable {libc : Libc} {c₀ c : FileCore}

/-- Archives are not the active file. -/
theorem archive_ne_active (h : FileInv libc c₀ c) {n : CString}
    (hn : n ∈ c.history.archives) {ino : ℕ} (hactive : c.disk.dir c.binding.name = some ino) :
    c.disk.dir n ≠ some ino := by
  intro hdir
  exact h.single n ino (h.archived n hn).1 hdir hactive

/-- Bytes that come next in the caller's buffer go to the end of the stream. -/
theorem append (h : FileInv libc c₀ c) (hattached : c.detached = false) {ino : ℕ}
    (hfd : c.fd = some ino) {bytes : List UInt8}
    (hbytes : bytes <+: c.history.current.drop c.history.taken) :
    FileInv libc c₀ (c.append ino bytes) := by
  have hdir : c.disk.dir c.binding.name = some ino := (h.attached hattached).2.trans hfd
  -- the archives are other files than the active one
  have harchives : c.history.archives.flatMap (c.disk.append ino bytes).content =
      c.history.archives.flatMap c.disk.content := by
    apply List.flatMap_congr
    exact fun n hn => Disk.content_append_of_ne (h.archive_ne_active hn hdir)
  -- the bytes are the next ones of the buffer
  have htake : c.history.current.take (c.history.taken + bytes.length) =
      c.history.current.take c.history.taken ++ bytes := by
    rw [List.take_add, ← List.prefix_iff_eq_take.mp hbytes]
  exact
    { binding := h.binding
      used := h.used
      attached := h.attached
      sealed := fun hd => absurd (hattached.symm.trans hd) Bool.false_ne_true
      single := h.single
      archived := h.archived
      unused := h.unused
      named := h.named
      increasing := h.increasing
      printable := h.printable
      last := h.last
      stream := by
        have hs := h.stream
        simp only [FileCore.append, History.accepted, harchives, htake,
          Disk.content_append_self hdir, ← List.append_assoc] at hs ⊢
        exact congrArg (· ++ bytes) hs
      kept := by
        intro n ino' hn hn'
        obtain ⟨hdir', hdata⟩ := h.kept n ino' hn hn'
        refine ⟨hdir', (Function.update_of_ne ?_ ..).trans hdata⟩
        -- an old file that is the active one would have two names
        rintro rfl
        exact h.single n ino' (h.binding ▸ hn) hdir' hdir }

theorem create (h : FileInv libc c₀ c) (hnone : c.disk.dir c.binding.name = none) :
    FileInv libc c₀ c.create := by
  -- the archives are older than the new file
  have harchives : c.history.archives.flatMap (c.disk.create c.binding.name).content =
      c.history.archives.flatMap c.disk.content := by
    apply List.flatMap_congr
    exact fun n hn => Disk.content_create_of_ne h.used (h.archived n hn).1
  exact
    { binding := h.binding
      used := by
        -- only the new name has the new file
        intro n ino hn
        by_cases hname : n = c.binding.name
        · subst hname
          obtain rfl : c.disk.nextIno = ino := Option.some.inj (Disk.dir_create_self.symm.trans hn)
          exact Nat.lt_succ_self _
        · exact (h.used n ino ((Disk.dir_create_of_ne hname).symm.trans hn)).trans
            (Nat.lt_succ_self _)
      attached := by
        intro hd
        obtain ⟨hfd, hdir⟩ := h.attached hd
        exact absurd (hdir.symm.trans hnone) hfd
      sealed := fun _ => Disk.content_create_self
      single := by
        -- the new file has a number that no other name has
        intro n ino hname hn hactive
        have hlt := h.used n ino ((Disk.dir_create_of_ne hname).symm.trans hn)
        have hnext : c.disk.nextIno = ino :=
          Option.some.inj (Disk.dir_create_self.symm.trans hactive)
        omega
      archived := by
        intro n hn
        obtain ⟨hname, hdir⟩ := h.archived n hn
        exact ⟨hname, fun hnone' => hdir ((Disk.dir_create_of_ne hname).symm.trans hnone')⟩
      unused := h.unused
      named := h.named
      increasing := h.increasing
      printable := h.printable
      last := h.last
      -- the stream ends in an empty file now
      stream := by
        have hs := h.stream
        rw [Disk.content_of_none hnone] at hs
        simp only [FileCore.create, harchives, Disk.content_create_self]
        exact hs
      kept := by
        intro n ino hn hn'
        obtain ⟨hdir, hdata⟩ := h.kept n ino hn hn'
        have hne : n ≠ c.binding.name := fun heq => hn (heq.trans (congrArg _ h.binding))
        refine ⟨(Disk.dir_create_of_ne hne).trans hdir, (Function.update_of_ne ?_ ..).trans hdata⟩
        exact (h.used n ino hdir).ne }

/-- The archive names of a run are longer than the active name, which is stem and extension. -/
theorem nameAt_ne_name {b : FileBinding} {t : Timespec} (hname : b.name = b.stem ++ b.ext)
    (ht : t.Printable libc.yearWidth) : b.nameAt libc t ≠ b.name := by
  intro heq
  have hlen := length_archiveText b.stem b.ext ht
  rw [FileBinding.nameAt] at heq
  rw [heq, hname, List.length_append] at hlen
  omega

/-- Every earlier archive time is before a time after the last one. -/
theorem before_of_last (h : FileInv libc c₀ c) {t : Timespec}
    (hlast : ∀ t₀ ∈ c.lastTime, t₀.Before t) : ∀ t₀ ∈ c.history.times, t₀.Before t := by
  intro t₀ ht₀
  rw [h.last] at hlast
  rcases List.eq_nil_or_concat c.history.times with hnil | ⟨ts, last, hts⟩
  · rw [hnil] at ht₀
    exact absurd ht₀ List.not_mem_nil
  · have hinc := h.increasing
    rw [List.concat_eq_append] at hts
    rw [hts] at hinc ht₀ hlast
    have hlt : last.Before t := hlast last (by simp)
    rcases List.mem_append.mp ht₀ with hmem | hmem
    · exact ((List.pairwise_append.mp hinc).2.2 t₀ hmem last List.mem_cons_self).trans hlt
    · rw [List.mem_singleton.mp hmem]
      exact hlt

/-- Moving the active file to a new archive name: the stream is cut there. -/
theorem archive (h : FileInv libc c₀ c) (hname : c.binding.name = c.binding.stem ++ c.binding.ext)
    {t : Timespec} (ht : t.Printable libc.yearWidth) (hlast : ∀ t₀ ∈ c.lastTime, t₀.Before t)
    (hactive : c.disk.dir c.binding.name ≠ none)
    (hfree : c.disk.dir (c.binding.nameAt libc t) = none) :
    FileInv libc c₀ ((c.rename (c.binding.nameAt libc t)).detach t) := by
  -- the new name is free, and it is not the old one
  have hne : c.binding.nameAt libc t ≠ c.binding.name := nameAt_ne_name hname ht
  have harchives : c.history.archives.flatMap
      (c.disk.rename c.binding.name (c.binding.nameAt libc t)).content =
      c.history.archives.flatMap c.disk.content := by
    apply List.flatMap_congr
    intro n hn
    obtain ⟨hold, hdir⟩ := h.archived n hn
    refine Disk.content_rename_of_ne hold ?_
    rintro rfl
    exact hdir hfree
  -- only two names have changed
  have hdir_of_ne : ∀ n, n ≠ c.binding.name → n ≠ c.binding.nameAt libc t →
      ((c.rename (c.binding.nameAt libc t)).detach t).disk.dir n = c.disk.dir n :=
    fun n hold hnew => Disk.dir_rename_of_ne hold hnew
  exact
    { binding := h.binding
      used := by
        intro n ino hn
        by_cases hold : n = c.binding.name
        · subst hold
          exact absurd (Disk.dir_rename_old.symm.trans hn) (Option.some_ne_none ino).symm
        · by_cases hnew : n = c.binding.nameAt libc t
          · subst hnew
            exact h.used _ ino ((Disk.dir_rename_new hne).symm.trans hn)
          · exact h.used n ino ((hdir_of_ne n hold hnew).symm.trans hn)
      attached := fun hd => absurd hd Bool.false_ne_true.symm
      sealed := fun _ => Disk.content_of_none Disk.dir_rename_old
      single := by
        intro n ino _ _ hactive'
        exact absurd (Disk.dir_rename_old.symm.trans hactive') (Option.some_ne_none ino).symm
      archived := by
        intro n hn
        -- an archive is an older one or the new one
        rcases List.mem_append.mp hn with hmem | hmem
        · obtain ⟨hold, hdir⟩ := h.archived n hmem
          refine ⟨hold, fun hnone => hdir ((hdir_of_ne n hold ?_).symm.trans hnone)⟩
          rintro rfl
          exact hdir hfree
        · rw [List.mem_singleton.mp hmem]
          exact ⟨hne, fun hnone => hactive ((Disk.dir_rename_new hne).symm.trans hnone)⟩
      unused := by
        intro n hn
        rcases List.mem_append.mp hn with hmem | hmem
        · exact h.unused n hmem
        · rw [List.mem_singleton.mp hmem]
          -- a name that was in use when the run began is still in use, so it was not free
          cases hold : c₀.disk.dir (c.binding.nameAt libc t) with
          | none => rfl
          | some ino =>
            have hname₀ : c.binding.nameAt libc t ≠ c₀.binding.name := h.binding ▸ hne
            exact absurd (hfree.symm.trans (h.kept _ ino hname₀ hold).1) nofun
      named := by
        simp only [FileCore.rename, FileCore.detach, List.map_append, List.map_cons, List.map_nil]
        rw [h.named]
      increasing := by
        refine List.pairwise_append.mpr ⟨h.increasing, List.pairwise_singleton _ _, ?_⟩
        intro t₀ ht₀ t' ht'
        rw [List.mem_singleton.mp ht']
        exact h.before_of_last hlast t₀ ht₀
      printable := by
        intro t' ht'
        rcases List.mem_append.mp ht' with hmem | hmem
        · exact h.printable t' hmem
        · rw [List.mem_singleton.mp hmem]
          exact ht
      -- the last time is the one the next name has to come after
      last := by
        change some t = (c.history.times ++ [t]).getLast?
        rw [List.getLast?_concat]
      -- the active file is empty now, and its bytes are those of the last archive
      stream := by
        have hs := h.stream
        simp only [FileCore.rename, FileCore.detach, List.flatMap_append, List.flatMap_singleton,
          harchives, Disk.content_rename_new hne, Disk.content_of_none Disk.dir_rename_old,
          List.append_nil]
        exact hs
      kept := by
        intro n ino hn hn'
        obtain ⟨hdir, hdata⟩ := h.kept n ino hn hn'
        have hold : n ≠ c.binding.name := fun heq => hn (heq.trans (congrArg _ h.binding))
        refine ⟨(hdir_of_ne n hold ?_).trans hdir, hdata⟩
        -- an old name is not the free one
        rintro rfl
        rw [hfree] at hdir
        exact absurd hdir (Option.some_ne_none ino).symm }

theorem install (h : FileInv libc c₀ c) {ino : ℕ}
    (hdir : c.disk.dir c.binding.name = some ino) : FileInv libc c₀ (c.install ino) :=
  { h with
    attached := fun _ => ⟨Option.some_ne_none ino, hdir⟩
    sealed := fun hd => absurd hd Bool.false_ne_true }

theorem begin (h : FileInv libc c₀ c) (bytes : List UInt8) : FileInv libc c₀ (c.begin bytes) :=
  { h with
    stream := by
      have hs := h.stream
      simp only [FileCore.begin, History.begin, History.accepted, List.take_zero, List.append_nil]
      exact hs }

end FileInv

end CLogger
