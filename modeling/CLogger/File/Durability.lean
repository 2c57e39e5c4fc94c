import CLogger.File.Sealing

/-!
# Durability of a managed file

A successful `fsync` covers what has been written to an inode before, and one of the directory
covers the changes of its entries. In every run of the backend the old descriptor is covered before
it is replaced, and a call that synchronises and returns 0 leaves nothing uncovered.

* `FileCovered`, `ReplacedCovered`, and `file_sync_covers`.
-/

namespace CLogger

open TapeProgram EventTrace

variable {libc : Libc} {w₀ w w' : FileWorld}

/-- Everything the backend has done to its file is covered. -/
structure FileCovered (w : FileWorld) : Prop where
  /-- Every write to any inode has been followed by a successful `fsync` of it. -/
  writes : WritesSynced w.trace
  /-- The creation and the rename of every segment in use have been followed by a successful `fsync`
  of the directory. -/
  renamed : FollowedBy FileEvent.isRename FileEvent.isSyncDir w.trace
  created : ∀ ino, w.file.fd = some ino ∨ (∃ name, .rename ino name ∈ w.trace) →
    FollowedBy (FileEvent.creates ino) FileEvent.isSyncDir w.trace
  attached : w.file.detached = false

theorem FileSynced.covered (h : FileSynced w) (hledger : LedgerInv w) : FileCovered w where
  writes := h.writes
  renamed := hledger.ledger.renamed h.clean
  created := hledger.ledger.created h.clean
  attached := h.attached

/-- Where a descriptor has been replaced, everything written through the old one was covered. -/
def ReplacedCovered (w : FileWorld) : Prop :=
  ∀ before old new after, w.trace = before ++ .install (some old) new :: after →
    FollowedBy (FileEvent.writes old) (FileEvent.syncs old) before

/-- At every moment of a run on a managed file the descriptors were replaced after their writes. -/
theorem FileManaged.replaced (h : FileManaged w₀) (libc : Libc) (ops : List FileOp)
    (tape : List Answer) : ReplacedCovered ((runFileOps libc ops).run w₀ tape).state :=
  (wp_state (runFileOps_ledger libc ops h.inv) tape).ledger.installed

/-- A call that synchronises and returns 0 covers everything, after any run on a managed file. -/
theorem FileManaged.synced (h : FileManaged w₀) (hreached : FileReached libc w₀ w) {op : FileOp}
    {tape rest : List Answer} (hrun : (FileOp.exec libc op).run w tape = .done 0 w' rest)
    (hsync : op.synchronises = true) : FileCovered w' := by
  have hsound := (fileOp_exec_booked libc op (hreached.inv h.inv)).run tape
  rw [hrun] at hsound
  have hdone : CallBooked op w 0 w' := hsound
  exact (hdone.synced rfl hsync).covered hdone.booked.inv

/-- Durability of a managed file: at every moment of every run of `logger_file_write`,
`logger_file_writev`, `logger_file_sync` and `logger_file_reopen`, with arbitrary answers of the
system, and for every call that synchronises and returns 0 after such a run. -/
theorem file_sync_covers (libc : Libc) (w₀ : FileWorld) (h : FileManaged w₀) :
    (∀ ops tape, ReplacedCovered ((runFileOps libc ops).run w₀ tape).state) ∧
    ∀ w, FileReached libc w₀ w → ∀ op tape w' rest, (FileOp.exec libc op).run w tape =
      .done 0 w' rest → op.synchronises = true → FileCovered w' :=
  ⟨h.replaced libc, fun _ hreached _ _ _ _ hrun hsync => h.synced hreached hrun hsync⟩

/-- A write to the full file that synchronises it. -/
def coveredWrite : FileOp := .write (.ofBytes [66]) (some ⟨0, 0⟩) true

/-- The answers to it: every call succeeds. -/
def coverTape : List Answer := List.replicate 25 { count := 1 }

/-- The state in which it ends. -/
def coveredFile : FileWorld := ((coveredWrite.exec ⟨1, gmtime⟩).run managedFile coverTape).state

theorem file_sync_covers_rotated :
    coveredFile.history.archives.length = 1 ∧ coveredFile.history.accepted = [66] ∧
      FileCovered coveredFile := by
  have hrun : (coveredWrite.exec ⟨1, gmtime⟩).run managedFile coverTape = .done 0 coveredFile [] :=
    rfl
  refine ⟨by decide +kernel, by decide +kernel, ?_⟩
  exact (file_sync_covers ⟨1, gmtime⟩ managedFile managedFile_managed).2 managedFile
    ⟨[], [], [], rfl⟩
    coveredWrite coverTape coveredFile [] hrun rfl

end CLogger
