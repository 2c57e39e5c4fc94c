import CLogger.File.Specs

/-!
# Rotation keeps the log stream

The result about the rotating file backend: through every run of its calls, whatever the system
answers, the archives of the run in the order of their names followed by the active file hold the
initial content and every accepted byte, in order, and no existing file is touched.
-/

namespace CLogger

open TapeProgram

/-- A managed file in an internal rotation mode without retention, as `logger_file_init` leaves it:
the descriptor is the active file's, which has no other name, and nothing has been archived. -/
structure FileOpened (w : FileWorld) : Prop where
  managed : w.file.binding.managed = true
  internalRotation : w.file.binding.internalRotation = true
  retentionDays : w.file.binding.retentionDays = 0
  names : (w.file.binding.stem, w.file.binding.ext) = splitName w.file.binding.name
  fd : ∃ ino, w.file.fd = some ino ∧ w.disk.dir w.file.binding.name = some ino
  single : ∀ n ino, n ≠ w.file.binding.name → w.disk.dir n = some ino →
    w.disk.dir w.file.binding.name ≠ some ino
  used : ∀ n ino, w.disk.dir n = some ino → ino < w.disk.nextIno
  attached : w.file.detached = false
  archiveTimeValid : w.file.archiveTimeValid = false
  history : w.history = ⟨[], [], [], [], 0⟩

/-- The log stream of a run that started in `w₀` and stands in `w`. -/
structure StreamIntegrity (libc : Libc) (w₀ w : FileWorld) : Prop where
  /-- Initial content and accepted bytes are in the archives of the run, in the order of their
  names, and the active file. -/
  stream : w₀.disk.content w₀.file.binding.name ++ w.history.accepted =
    (w.history.archives.mergeSort (fun a b => decide (a ≤ b))).flatMap w.disk.content ++
      w.disk.content w₀.file.binding.name
  /-- The times of the archives increase, and the archives are named after them. -/
  increasing : w.history.times.Pairwise Timespec.Before
  named : w.history.archives = w.history.times.map (w₀.file.binding.nameAt libc)
  distinct : w.history.archives.Nodup
  /-- The archives are there, under names that were not in use. -/
  archived : ∀ n ∈ w.history.archives, w.disk.dir n ≠ none ∧ w₀.disk.dir n = none
  /-- Every other file that was there is still there, with its content. -/
  kept : ∀ n ino, n ≠ w₀.file.binding.name → w₀.disk.dir n = some ino →
    w.disk.dir n = some ino ∧ w.disk.data ino = w₀.disk.data ino

theorem splitName_append (base : CString) : (splitName base).1 ++ (splitName base).2 = base := by
  unfold splitName
  split
  · exact List.take_append_drop _ _
  · exact List.append_nil _

section

variable {libc : Libc} {w₀ w : FileWorld}

theorem FileOpened.inv (h : FileOpened w₀) : FileInv libc w₀.core w₀.core := by
  obtain ⟨ino, hfd, hdir⟩ := h.fd
  have hhistory : w₀.core.history = ⟨[], [], [], [], 0⟩ := h.history
  exact
    { binding := rfl
      used := h.used
      attached := fun _ => ⟨fun hnone => absurd (hnone.symm.trans hfd) nofun, hdir.trans hfd.symm⟩
      sealed := fun hd => absurd (h.attached.symm.trans hd) Bool.false_ne_true
      single := h.single
      archived := by
        rw [hhistory]
        exact nofun
      unused := by
        rw [hhistory]
        exact nofun
      named := by rw [hhistory]; rfl
      increasing := by
        rw [hhistory]
        exact List.Pairwise.nil
      printable := by
        rw [hhistory]
        exact nofun
      last := by
        rw [hhistory]
        exact if_neg (by rw [FileWorld.core, h.archiveTimeValid]; exact Bool.false_ne_true)
      stream := by
        rw [hhistory]
        exact List.append_nil _
      kept := fun n ino' _ hn => ⟨hn, rfl⟩ }

theorem FileOpened.name_eq (h : FileOpened w₀) :
    w₀.file.binding.name = w₀.file.binding.stem ++ w₀.file.binding.ext := by
  have hsplit := splitName_append w₀.file.binding.name
  rw [← h.names] at hsplit
  exact hsplit.symm

/-- The names of the archives are in increasing order. -/
theorem FileInv.archives_sorted {c₀ c : FileCore} (h : FileInv libc c₀ c) :
    c.history.archives.Pairwise (· < ·) := by
  rw [h.named, List.pairwise_map]
  refine h.increasing.imp_of_mem ?_
  intro t t' ht ht' hbefore
  exact archiveText_lt (h.printable t ht) (h.printable t' ht') hbefore

theorem FileInv.streamIntegrity (h : FileInv libc w₀.core w.core) :
    StreamIntegrity libc w₀ w := by
  have hsorted : w.history.archives.Pairwise (· < ·) := h.archives_sorted
  have hbinding : w.file.binding = w₀.file.binding := h.binding
  exact
    { stream := by
        have hsort : w.history.archives.mergeSort (fun a b => decide (a ≤ b)) =
            w.history.archives := by
          apply List.mergeSort_of_pairwise
          exact hsorted.imp fun hlt => decide_eq_true (List.le_of_lt hlt)
        rw [hsort, ← hbinding]
        have hs := h.stream
        rw [← h.binding] at hs
        exact hs
      increasing := h.increasing
      named := hbinding ▸ h.named
      distinct := by
        refine hsorted.imp ?_
        rintro a b hlt rfl
        exact List.lt_irrefl a hlt
      archived := fun n hn => ⟨(h.archived n hn).2, h.unused n hn⟩
      kept := h.kept }

end

/-- Log-stream integrity across rotation: at every moment of every run of `logger_file_write`,
`logger_file_writev`, `logger_file_sync` and `logger_file_reopen`, with arbitrary answers of the
system. -/
theorem rotation_stream_integrity (libc : Libc) (w₀ : FileWorld) (h : FileOpened w₀)
    (ops : List FileOp) (tape : List Answer) :
    StreamIntegrity libc w₀ ((runFileOps libc ops).run w₀ tape).state := by
  have hrun : wp (fileSafe libc w₀.core) (runFileOps libc ops)
      (fun _ w => fileSafe libc w₀.core w) w₀ :=
    runFileOps_spec h.retentionDays h.name_eq ops h.inv
  exact FileInv.streamIntegrity (wp_state hrun tape)

/-- An opened file `a.l` that may hold one byte and holds one, beside its lock file. -/
def openedFile : FileWorld where
  disk :=
    { dir := fun n => if n = [97, 46, 108] then some 0 else if n = [108] then some 1 else none
      data := fun ino => if ino = 0 then [65] else []
      nextIno := 2
      device := 0 }
  file :=
    { binding :=
        { name := [97, 46, 108], lockName := [108], stem := [97], ext := [46, 108], mode := .size
          maxFileSize := 1, retentionDays := 0, managed := true, iovMax := 16 }
      fd := some 0, lockFd := some 1, detached := false, switchError := 0, currentSize := 1
      currentDay := 0, dirDirty := false, device := 0, inode := 0, archiveTime := ⟨0, 0⟩
      archiveTimeValid := false }
  metrics := FileMetrics.zero
  history := ⟨[], [], [], [], 0⟩

theorem openedFile_opened : FileOpened openedFile where
  managed := rfl
  internalRotation := rfl
  retentionDays := rfl
  names := rfl
  fd := ⟨0, rfl, rfl⟩
  single := by
    intro n ino hn hdir hactive
    obtain rfl : 0 = ino := Option.some.inj hactive
    have hne : n ≠ [97, 46, 108] := hn
    simp only [openedFile, if_neg hne] at hdir
    split at hdir <;> simp at hdir
  used := by
    intro n ino hdir
    simp only [openedFile] at hdir ⊢
    split at hdir
    · rw [← Option.some.inj hdir]
      decide
    · split at hdir
      · rw [← Option.some.inj hdir]
        decide
      · exact absurd hdir nofun
  attached := rfl
  archiveTimeValid := rfl
  history := rfl

/-- A write of one byte that archives the old content, makes a new active file and writes there. -/
theorem rotation_stream_integrity_rotated :
    let libc : Libc := ⟨1, gmtime⟩
    let ops : List FileOp := [.write ⟨some [66], 1, by simp⟩ (some ⟨0, 0⟩) false]
    let w := ((runFileOps libc ops).run openedFile (List.replicate 27 { count := 1 })).state
    w.history.archives.map List.length = [27] ∧ w.history.accepted = [66] ∧
      w.disk.content [97, 46, 108] = [66] ∧ StreamIntegrity libc openedFile w :=
  ⟨by decide +kernel, by decide +kernel, by decide +kernel,
    rotation_stream_integrity _ openedFile openedFile_opened _ _⟩

end CLogger
