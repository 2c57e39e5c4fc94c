import CLogger.File.Specs
import CLogger.Lib.EventTrace

/-!
# The ledger of the file backend

What the trace of events says about the state: which inodes are archives, whether a switch of the
active file is half finished, and which writes and directory changes an `fsync` still has to cover.

* `LedgerInv`: the invariant between the trace and the state, for a managed file in any rotation
  mode, with or without retention.
* `Booked`: the invariant during one call, with what the call has done so far.
* One lemma for each way in which the state and the trace change: a write, the creation of the
  active file, the move to an archive, a synchronisation, the installation of a descriptor.
-/

namespace CLogger

open TapeProgram EventTrace

section Events

/-- The event moves the active file to an archive name. -/
def FileEvent.isRename : FileEvent → Bool
  | .rename _ _ => true
  | _ => false

/-- The event is a write call. -/
def FileEvent.isWrite : FileEvent → Bool
  | .write _ _ => true
  | _ => false

/-- The event installs a descriptor. -/
def FileEvent.isInstall : FileEvent → Bool
  | .install _ _ => true
  | _ => false

/-- The event is a successful `fsync` of the directory. -/
def FileEvent.isSyncDir : FileEvent → Bool
  | .fsyncDir => true
  | _ => false

/-- The event writes to the inode. -/
def FileEvent.writes (ino : ℕ) : FileEvent → Bool
  | .write i _ => i = ino
  | _ => false

/-- The event is a successful `fsync` of the inode. -/
def FileEvent.syncs (ino : ℕ) : FileEvent → Bool
  | .fsync i => i = ino
  | _ => false

/-- The event creates the inode. -/
def FileEvent.creates (ino : ℕ) : FileEvent → Bool
  | .create i => i = ino
  | _ => false

/-- The event is of no concern to archives and to what has to be synchronised. -/
def FileEvent.IsSide (e : FileEvent) : Prop :=
  e.isRename = false ∧ e.isInstall = false ∧ e.isWrite = false ∧ ∀ ino, e.creates ino = false

theorem FileEvent.writes_of_not {e : FileEvent} (h : e.isWrite = false) (ino : ℕ) :
    e.writes ino = false := by
  cases e with
  | write i bytes => exact nomatch h
  | _ => rfl

/-- What `rotate_impl` wants of every inode: it is not written to after it has become an archive. -/
def Untouched (e e' : FileEvent) : Prop :=
  ∀ ino name, e = .rename ino name → e'.writes ino = false

end Events

/-- Every write to any inode has been followed by a successful `fsync` of it. -/
def WritesSynced (trace : List FileEvent) : Prop :=
  ∀ ino, FollowedBy (FileEvent.writes ino) (FileEvent.syncs ino) trace

/-- The inode of the active name. -/
def FileWorld.active (w : FileWorld) : Option ℕ := w.disk.dir w.file.binding.name

/-- The fields of `struct logger_file` except the one that a synchronisation clears, and the active
file. -/
def FileWorld.vitals (w : FileWorld) : LoggerFile × Option ℕ :=
  ({ w.file with dirDirty := false }, w.active)

/-- Every directory change that made a segment has been followed by an `fsync` of the directory. -/
structure DirSynced (trace : List FileEvent) : Prop where
  renamed : FollowedBy FileEvent.isRename FileEvent.isSyncDir trace
  created : ∀ ino, FollowedBy (FileEvent.creates ino) FileEvent.isSyncDir trace

/-- What the descriptor and the two flags of `struct logger_file` say about the trace. -/
structure TraceInv (trace : List FileEvent) (fd : Option ℕ) (detached dirty : Bool) : Prop where
  immutable : trace.Pairwise Untouched
  /-- A switch of the active file is half finished. -/
  switched : detached = false ↔ FollowedBy FileEvent.isRename FileEvent.isInstall trace
  /-- Only writes through the current descriptor may be uncovered. -/
  written : ∀ ino, fd ≠ some ino →
    FollowedBy (FileEvent.writes ino) (FileEvent.syncs ino) trace
  installed : ∀ before old new after, trace = before ++ .install (some old) new :: after →
    FollowedBy (FileEvent.writes old) (FileEvent.syncs old) before
  /-- Directory changes of segments in use are covered unless the directory is marked. -/
  renamed : dirty = false → FollowedBy FileEvent.isRename FileEvent.isSyncDir trace
  created : dirty = false → ∀ ino, fd = some ino ∨ (∃ name, .rename ino name ∈ trace) →
    FollowedBy (FileEvent.creates ino) FileEvent.isSyncDir trace

namespace TraceInv

variable {trace : List FileEvent} {fd : Option ℕ} {detached dirty : Bool} {e : FileEvent} {ino : ℕ}

theorem mark (h : TraceInv trace fd detached dirty) : TraceInv trace fd detached true :=
  { h with renamed := nofun, created := nofun }

/-- No archive is written to by an event that does not write. -/
theorem immutable_snoc (h : trace.Pairwise Untouched)
    (he : ∀ ino name, .rename ino name ∈ trace → e.writes ino = false) :
    (trace ++ [e]).Pairwise Untouched := by
  refine List.pairwise_append.mpr ⟨h, List.pairwise_singleton _ _, ?_⟩
  rintro x hx e' he' ino name rfl
  rw [List.mem_singleton.mp he']
  exact he ino name hx

/-- An installation of an earlier descriptor lies in the earlier trace. -/
theorem installed_snoc (h : TraceInv trace fd detached dirty) (he : e.isInstall = false) :
    ∀ before old new after, trace ++ [e] = before ++ .install (some old) new :: after →
      FollowedBy (FileEvent.writes old) (FileEvent.syncs old) before := by
  intro before old new after hsplit
  have hne : e ≠ .install (some old) new := by
    rintro rfl
    exact nomatch he
  obtain ⟨after', -, htrace⟩ := snoc_eq_split_of_ne hsplit hne
  exact h.installed before old new after' htrace

theorem mem_rename_snoc (he : e.isRename = false) {name : CString}
    (h : .rename ino name ∈ trace ++ [e]) : .rename ino name ∈ trace := by
  rcases List.mem_append.mp h with h | h
  · exact h
  · rw [← List.mem_singleton.mp h] at he
    exact nomatch he

theorem side (h : TraceInv trace fd detached dirty) (he : e.IsSide) :
    TraceInv (trace ++ [e]) fd detached dirty := by
  obtain ⟨hrename, hinstall, hwrite, hcreate⟩ := he
  refine ⟨immutable_snoc h.immutable fun ino _ _ => e.writes_of_not hwrite ino, ?_, ?_,
    h.installed_snoc hinstall, ?_, ?_⟩
  · rw [followedBy_neutral hrename hinstall]
    exact h.switched
  · exact fun ino hino => (h.written ino hino).snoc (e.writes_of_not hwrite ino)
  · exact fun hdirty => (h.renamed hdirty).snoc hrename
  · rintro hdirty ino hino
    refine (h.created hdirty ino (hino.imp id ?_)).snoc (hcreate ino)
    rintro ⟨name, hname⟩
    exact ⟨name, mem_rename_snoc hrename hname⟩

/-- Synchronising the directory covers all its changes. -/
theorem fsyncDir (h : TraceInv trace fd detached dirty) :
    TraceInv (trace ++ [.fsyncDir]) fd detached false := by
  have hside := h.side (e := .fsyncDir) ⟨rfl, rfl, rfl, fun _ => rfl⟩
  exact
    { hside with
      renamed := fun _ => followedBy_close rfl rfl
      created := fun _ _ _ => followedBy_close rfl rfl }

/-- A write through the descriptor of a file that is no archive. -/
theorem write {bytes : List UInt8} (h : TraceInv trace (some ino) detached dirty)
    (harchive : ∀ name, .rename ino name ∉ trace) :
    TraceInv (trace ++ [.write ino bytes]) (some ino) detached dirty := by
  refine ⟨immutable_snoc h.immutable ?_, ?_, ?_, h.installed_snoc rfl, ?_, ?_⟩
  · rintro ino' name hmem
    refine decide_eq_false ?_
    rintro rfl
    exact harchive name hmem
  · rw [followedBy_neutral rfl rfl]
    exact h.switched
  · intro ino' hino'
    refine (h.written ino' hino').snoc (decide_eq_false ?_)
    rintro rfl
    exact hino' rfl
  · exact fun hdirty => (h.renamed hdirty).snoc rfl
  · rintro hdirty ino' hino'
    refine (h.created hdirty ino' (hino'.imp id ?_)).snoc rfl
    rintro ⟨name, hname⟩
    exact ⟨name, mem_rename_snoc rfl hname⟩

/-- The creation of a file that is not in use. -/
theorem create (h : TraceInv trace fd detached dirty) (hfd : fd ≠ some ino)
    (harchive : ∀ name, .rename ino name ∉ trace) :
    TraceInv (trace ++ [.create ino]) fd detached dirty := by
  refine ⟨immutable_snoc h.immutable fun _ _ _ => rfl, ?_, ?_, h.installed_snoc rfl, ?_, ?_⟩
  · rw [followedBy_neutral rfl rfl]
    exact h.switched
  · exact fun ino' hino' => (h.written ino' hino').snoc rfl
  · exact fun hdirty => (h.renamed hdirty).snoc rfl
  · rintro hdirty ino' hino'
    have hused : fd = some ino' ∨ ∃ name, .rename ino' name ∈ trace := by
      refine hino'.imp id ?_
      rintro ⟨name, hname⟩
      exact ⟨name, mem_rename_snoc rfl hname⟩
    refine (h.created hdirty ino' hused).snoc (decide_eq_false ?_)
    rintro rfl
    rcases hused with hused | ⟨name, hname⟩
    · exact hfd hused
    · exact harchive name hname

/-- The move of a file to an archive name begins a switch. -/
theorem rename {name : CString} (h : TraceInv trace fd detached dirty) :
    TraceInv (trace ++ [.rename ino name]) fd true true := by
  refine ⟨immutable_snoc h.immutable fun _ _ _ => rfl, ?_, ?_, h.installed_snoc rfl, nofun, nofun⟩
  · exact iff_of_false nofun (not_followedBy_open rfl)
  · exact fun ino' hino' => (h.written ino' hino').snoc rfl

/-- A descriptor is installed once everything is synchronised. -/
theorem install {new : ℕ} (h : TraceInv trace fd detached dirty) (hwrites : WritesSynced trace)
    (hdir : DirSynced trace) : TraceInv (trace ++ [.install fd new]) (some new) false dirty := by
  refine ⟨immutable_snoc h.immutable fun _ _ _ => rfl, ?_, ?_, ?_, ?_, ?_⟩
  · exact iff_of_true rfl (followedBy_close rfl rfl)
  · exact fun ino _ => (hwrites ino).snoc rfl
  · intro before old new' after hsplit
    rcases snoc_eq_split hsplit with ⟨-, -, rfl⟩ | ⟨after', -, htrace⟩
    · exact hwrites old
    · exact h.installed before old new' after' htrace
  · exact fun _ => hdir.renamed.snoc rfl
  · exact fun _ ino _ => (hdir.created ino).snoc rfl

/-- Synchronising the current file covers every write. -/
theorem writesSynced (h : TraceInv trace (some ino) detached dirty) :
    WritesSynced (trace ++ [.fsync ino]) := by
  intro ino'
  by_cases hino : ino = ino'
  · exact followedBy_close rfl (decide_eq_true hino)
  · have hne : some ino ≠ some ino' := fun heq => hino (Option.some.inj heq)
    exact (h.written ino' hne).snoc rfl

end TraceInv

/-- Nothing that comes after a synchronisation undoes it, except a write. -/
theorem WritesSynced.append {trace es : List FileEvent} (h : WritesSynced trace)
    (hes : ∀ e ∈ es, e.isWrite = false) : WritesSynced (trace ++ es) := by
  intro ino
  exact (h ino).append fun e he => e.writes_of_not (hes e he) ino

theorem dirSynced_fsyncDir (trace : List FileEvent) : DirSynced (trace ++ [.fsyncDir]) :=
  ⟨followedBy_close rfl rfl, fun _ => followedBy_close rfl rfl⟩

/-! ## The invariant -/

/-- The invariant between the trace and the state of a managed file. -/
structure LedgerInv (w : FileWorld) : Prop where
  name : w.file.binding.name = w.file.binding.stem ++ w.file.binding.ext
  managed : w.file.binding.managed = true
  /-- The descriptor is the active file's unless a switch is half finished. -/
  attached : w.file.detached = false → w.file.fd ≠ none ∧ w.active = w.file.fd
  active_lt : ∀ ino, w.active = some ino → ino < w.disk.nextIno
  fd_lt : ∀ ino, w.file.fd = some ino → ino < w.disk.nextIno
  archived : ∀ ino name, .rename ino name ∈ w.trace → ino < w.disk.nextIno ∧ w.active ≠ some ino
  switchError : w.file.detached = true → 0 < w.file.switchError
  ledger : TraceInv w.trace w.file.fd w.file.detached w.file.dirDirty

namespace LedgerInv

variable {w w' : FileWorld} {e : FileEvent} {ino : ℕ}

/-- The invariant does not look at the metrics, the size and the history. -/
theorem congr (h : LedgerInv w) (hdisk : w'.disk = w.disk)
    (hfile : { w'.file with currentSize := 0 } = { w.file with currentSize := 0 })
    (htrace : w'.trace = w.trace) : LedgerInv w' := by
  have hbinding : w'.file.binding = w.file.binding := congrArg (fun f => f.binding) hfile
  have hfd : w'.file.fd = w.file.fd := congrArg (fun f => f.fd) hfile
  have hdetached : w'.file.detached = w.file.detached := congrArg (fun f => f.detached) hfile
  have hswitch : w'.file.switchError = w.file.switchError :=
    congrArg (fun f => f.switchError) hfile
  have hdirty : w'.file.dirDirty = w.file.dirDirty := congrArg (fun f => f.dirDirty) hfile
  -- so is the active name
  have hactive : w'.active = w.active := by
    rw [FileWorld.active, hdisk, hbinding]
    rfl
  refine ⟨?_, ?_, ?_, ?_, ?_, ?_, ?_, ?_⟩
  · rw [hbinding]
    exact h.name
  · rw [hbinding]
    exact h.managed
  · rw [hdetached, hfd, hactive]
    exact h.attached
  · rw [hactive, hdisk]
    exact h.active_lt
  · rw [hfd, hdisk]
    exact h.fd_lt
  · rw [htrace, hdisk, hactive]
    exact h.archived
  · rw [hdetached, hswitch]
    exact h.switchError
  · rw [htrace, hfd, hdetached, hdirty]
    exact h.ledger

theorem of_frame (h : LedgerInv w) (hframe : w'.frame = w.frame) : LedgerInv w' := by
  have hdisk : w'.frame.disk = w.frame.disk := congrArg FileWorld.disk hframe
  have hfile : w'.frame.file = w.frame.file := congrArg FileWorld.file hframe
  have htrace : w'.frame.trace = w.frame.trace := congrArg FileWorld.trace hframe
  exact h.congr hdisk (congrArg (fun f : LoggerFile => { f with currentSize := 0 }) hfile) htrace

/-- An event that has nothing to do with segments. -/
theorem side (h : LedgerInv w) (he : e.IsSide) : LedgerInv (w.note e) :=
  { h with
    archived := fun ino name hmem => h.archived ino name (TraceInv.mem_rename_snoc he.1 hmem)
    ledger := h.ledger.side he }

/-- The directory is synchronised. -/
theorem fsyncDir (h : LedgerInv w) :
    LedgerInv { w.note .fsyncDir with file := { w.file with dirDirty := false } } :=
  { h with
    archived := fun ino name hmem => h.archived ino name (TraceInv.mem_rename_snoc rfl hmem)
    ledger := h.ledger.fsyncDir }

/-- The directory is marked. -/
theorem mark (h : LedgerInv w) {d : Bool} (hdirty : w.file.dirDirty = true → d = true) :
    LedgerInv { w with file := { w.file with dirDirty := d } } := by
  refine { h with ledger := ?_ }
  cases d with
  | true => exact h.ledger.mark
  | false =>
    have hclean : w.file.dirDirty = false := Bool.eq_false_iff.mpr fun hd => nomatch hdirty hd
    rw [← hclean]
    exact h.ledger

/-- The error of a half-finished switch is recorded. -/
theorem setSwitchError (h : LedgerInv w) {error : ℤ} (herror : 0 < error) :
    LedgerInv { w with file := { w.file with switchError := error } } :=
  { h with switchError := fun _ => herror }

/-- A write through the attached descriptor. -/
theorem write (h : LedgerInv w) (hattached : w.file.detached = false) (hfd : w.file.fd = some ino)
    {bytes : List UInt8} (hfile : w'.file = w.file) (hdir : w'.disk.dir = w.disk.dir)
    (hnext : w'.disk.nextIno = w.disk.nextIno) (htrace : w'.trace = w.trace ++ [.write ino bytes]) :
    LedgerInv w' := by
  have hactive : w'.active = w.active := by
    rw [FileWorld.active, hfile, hdir]
    rfl
  have hnot : ∀ name, .rename ino name ∉ w.trace := by
    intro name hmem
    exact (h.archived ino name hmem).2 ((h.attached hattached).2.trans hfd)
  refine ⟨hfile ▸ h.name, hfile ▸ h.managed, ?_, ?_, ?_, ?_, hfile ▸ h.switchError, ?_⟩
  · rw [hfile, hactive]
    exact h.attached
  · rw [hactive, hnext]
    exact h.active_lt
  · rw [hfile, hnext]
    exact h.fd_lt
  · rw [htrace, hnext, hactive]
    exact fun ino' name hmem => h.archived ino' name (TraceInv.mem_rename_snoc rfl hmem)
  · rw [htrace, hfile, hfd]
    have hledger := h.ledger
    rw [hfd] at hledger
    exact hledger.write hnot

/-- The creation of the active file, of which there is none. -/
theorem create (h : LedgerInv w) (hnone : w.active = none) :
    LedgerInv { w.note (.create w.disk.nextIno) with
      disk := w.disk.create w.file.binding.name } := by
  have hfresh : ∀ name, .rename w.disk.nextIno name ∉ w.trace :=
    fun name hmem => lt_irrefl _ (h.archived _ name hmem).1
  refine ⟨h.name, h.managed, ?_, ?_, ?_, ?_, h.switchError, ?_⟩
  · intro hattached
    obtain ⟨hfd, hactive⟩ := h.attached hattached
    exact absurd (hactive.symm.trans hnone) hfd
  · intro ino hino
    obtain rfl : w.disk.nextIno = ino := Option.some.inj (Disk.dir_create_self.symm.trans hino)
    exact Nat.lt_succ_self _
  · exact fun ino hino => Nat.lt_succ_of_lt (h.fd_lt ino hino)
  · intro ino name hmem
    have hlt := (h.archived ino name (TraceInv.mem_rename_snoc rfl hmem)).1
    refine ⟨Nat.lt_succ_of_lt hlt, ?_⟩
    intro hactive
    have hnext : w.disk.nextIno = ino := Option.some.inj (Disk.dir_create_self.symm.trans hactive)
    exact hlt.ne' hnext
  · exact h.ledger.create (fun hfd => lt_irrefl _ (h.fd_lt _ hfd)) hfresh

/-- The active file becomes an archive, and the switch to a new one begins. -/
theorem detach (h : LedgerInv w) (hactive : w.active = some ino) {name : CString} {t : Timespec}
    (hdisk : w'.disk = w.disk.rename w.file.binding.name name)
    (hfile : w'.file = { w.file with
      detached := true, switchError := eio, dirDirty := true
      archiveTime := t, archiveTimeValid := true })
    (htrace : w'.trace = w.trace ++ [.rename ino name]) : LedgerInv w' := by
  have hnone : w'.active = none := by
    rw [FileWorld.active, hdisk, hfile]
    exact Disk.dir_rename_old
  -- a rename creates no file
  have hnext : w'.disk.nextIno = w.disk.nextIno := by
    rw [hdisk]
    rfl
  refine ⟨?_, ?_, ?_, ?_, ?_, ?_, ?_, ?_⟩
  · rw [hfile]
    exact h.name
  · rw [hfile]
    exact h.managed
  · rw [hfile]
    exact nofun
  -- no file has the active name now, so nothing is to be shown of it
  · rw [hnone]
    exact nofun
  · rw [hfile, hnext]
    exact h.fd_lt
  -- an archive is an older one or the file that was active
  · rw [htrace, hnext, hnone]
    intro ino' name' hmem
    refine ⟨?_, nofun⟩
    rcases List.mem_append.mp hmem with hmem | hmem
    · exact (h.archived ino' name' hmem).1
    · obtain ⟨rfl, -⟩ := FileEvent.rename.inj (List.mem_singleton.mp hmem)
      exact h.active_lt ino' hactive
  · rw [hfile]
    exact fun _ => show 0 < eio by decide
  -- the rename marks the directory, as the ledger asks
  · rw [htrace, hfile]
    exact h.ledger.rename

/-- The active file's descriptor is installed once everything is synchronised. -/
theorem install (h : LedgerInv w) {new : ℕ} (st : Stat) (hactive : w.active = some new)
    (hwrites : WritesSynced w.trace) (hdir : DirSynced w.trace) (hdisk : w'.disk = w.disk)
    {size : ℕ} {day : ℤ}
    (hfile : w'.file = { w.file with
      fd := some new, device := st.dev, inode := st.ino, currentSize := size, currentDay := day
      detached := false, switchError := 0 })
    (htrace : w'.trace = w.trace ++ [.install w.file.fd new]) : LedgerInv w' := by
  have hactive' : w'.active = w.active := by
    rw [FileWorld.active, hdisk, hfile]
    rfl
  refine ⟨?_, ?_, ?_, ?_, ?_, ?_, ?_, ?_⟩
  · rw [hfile]
    exact h.name
  · rw [hfile]
    exact h.managed
  · rw [hactive', hactive, hfile]
    exact fun _ => ⟨nofun, rfl⟩
  · rw [hactive', hdisk]
    exact h.active_lt
  · rw [hfile, hdisk, ← hactive]
    exact h.active_lt
  · rw [htrace, hdisk, hactive']
    exact fun ino' name hmem => h.archived ino' name (TraceInv.mem_rename_snoc rfl hmem)
  · rw [hfile]
    exact nofun
  · rw [htrace, hfile]
    exact h.ledger.install hwrites hdir

/-- An entry other than the active one is removed. -/
theorem unlink (h : LedgerInv w) {name : CString} (hname : w.file.binding.name ≠ name) :
    LedgerInv { w.note (.unlink name) with disk := w.disk.unlink name } := by
  have hactive : FileWorld.active { w.note (.unlink name) with disk := w.disk.unlink name } =
      w.active := Function.update_of_ne hname ..
  exact
    { h with
      attached := by
        rw [hactive]
        exact h.attached
      active_lt := by
        rw [hactive]
        exact h.active_lt
      archived := by
        rw [hactive]
        exact fun ino name hmem => h.archived ino name (TraceInv.mem_rename_snoc rfl hmem)
      ledger := h.ledger.side ⟨rfl, rfl, rfl, fun _ => rfl⟩ }

end LedgerInv

/-! ## One call -/

section Booked

variable {loud : FileEvent → Bool} {w₁ w w' : FileWorld}

/-- A loud event has happened since `w₁`. -/
def Stirred (loud : FileEvent → Bool) (w₁ w : FileWorld) : Prop :=
  ∃ es, w.trace = w₁.trace ++ es ∧ ∃ e ∈ es, loud e

/-- What a call that started in `w₁` keeps at every moment: the invariant, and all fields of
`struct logger_file` but the mark of the directory, unless a loud event has happened. -/
structure Booked (loud : FileEvent → Bool) (w₁ w : FileWorld) : Prop where
  inv : LedgerInv w
  grown : w₁.trace <+: w.trace
  calm : Stirred loud w₁ w ∨ w.vitals = w₁.vitals

theorem Booked.start (h : LedgerInv w) : Booked loud w w := ⟨h, List.prefix_rfl, .inr rfl⟩

theorem Stirred.of_prefix (h : Stirred loud w₁ w) (hgrown : w.trace <+: w'.trace) :
    Stirred loud w₁ w' := by
  obtain ⟨es, htrace, e, he, hloud⟩ := h
  obtain ⟨es', htrace'⟩ := hgrown
  refine ⟨es ++ es', ?_, e, List.mem_append_left _ he, hloud⟩
  rw [← htrace', htrace, List.append_assoc]

/-- A loud event. -/
theorem Booked.stirred (h : Booked loud w₁ w) {e : FileEvent} (hloud : loud e)
    (htrace : w'.trace = w.trace ++ [e]) : Stirred loud w₁ w' := by
  obtain ⟨es, hes⟩ := h.grown
  refine ⟨es ++ [e], ?_, e, by simp, hloud⟩
  rw [htrace, ← hes, List.append_assoc]

/-- A step that keeps the invariant, and the fields unless the call has been loud. -/
theorem Booked.step (h : Booked loud w₁ w) (hinv : LedgerInv w') (hgrown : w.trace <+: w'.trace)
    (hcalm : Stirred loud w₁ w' ∨ w'.vitals = w.vitals) : Booked loud w₁ w' := by
  refine ⟨hinv, h.grown.trans hgrown, ?_⟩
  rcases hcalm with hstirred | hvitals
  · exact .inl hstirred
  · rcases h.calm with hstirred | hcalm
    · exact .inl (hstirred.of_prefix hgrown)
    · exact .inr (hvitals.trans hcalm)

theorem FileWorld.vitals_of_frame (hframe : w'.frame = w.frame) : w'.vitals = w.vitals := by
  have hvitals : w'.frame.vitals = w.frame.vitals := congrArg FileWorld.vitals hframe
  exact hvitals

theorem FileWorld.trace_of_frame (hframe : w'.frame = w.frame) : w'.trace = w.trace := by
  have htrace : w'.frame.trace = w.frame.trace := congrArg FileWorld.trace hframe
  exact htrace

theorem FileWorld.file_of_frame (hframe : w'.frame = w.frame) : w'.file = w.file := by
  have hfile : w'.frame.file = w.frame.file := congrArg FileWorld.file hframe
  exact hfile

theorem FileWorld.disk_of_frame (hframe : w'.frame = w.frame) : w'.disk = w.disk := by
  have hdisk : w'.frame.disk = w.frame.disk := congrArg FileWorld.disk hframe
  exact hdisk

theorem Booked.of_frame (h : Booked loud w₁ w) (hframe : w'.frame = w.frame) :
    Booked loud w₁ w' := by
  refine h.step (h.inv.of_frame hframe) ?_ (.inr (FileWorld.vitals_of_frame hframe))
  rw [FileWorld.trace_of_frame hframe]

end Booked

end CLogger
