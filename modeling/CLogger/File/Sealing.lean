import CLogger.File.Correctness
import CLogger.File.LedgerSpecs

/-!
# Archives are immutable

For every run of the calls of the file backend on a managed file, in any rotation mode and with any
answers of the system: a file that has become an archive is never written to again, a switch that
failed half way is sealed until a reopen has installed a descriptor, and a rotation that failed
before its rename has changed nothing.
-/

namespace CLogger

open TapeProgram EventTrace

/-- A managed file as `logger_file_init` leaves it. The active file counts as created by the run,
and its directory is yet to be synchronised, as `open_candidate` leaves it. -/
structure FileManaged (w : FileWorld) : Prop where
  managed : w.file.binding.managed = true
  names : (w.file.binding.stem, w.file.binding.ext) = splitName w.file.binding.name
  fd : ∃ ino, w.file.fd = some ino ∧ w.active = some ino ∧ ino < w.disk.nextIno ∧
    w.trace = [.create ino]
  attached : w.file.detached = false
  dirty : w.file.dirDirty = true

/-- What holds of the archives at every moment of a run. -/
structure ArchivesSealed (w : FileWorld) : Prop where
  /-- After the rename there is no write to the inode. -/
  immutable : ∀ before ino name after, w.trace = before ++ .rename ino name :: after →
    ∀ bytes, .write ino bytes ∉ after
  /-- After the rename and before the installation of a descriptor the file is detached. -/
  halfSwitched : ∀ before ino name after, w.trace = before ++ .rename ino name :: after →
    (∀ old new, .install old new ∉ after) → w.file.detached = true ∧ 0 < w.file.switchError

/-- What a call from `w` that returns `rc` in `w'` may have done. -/
structure CallSealed (op : FileOp) (w : FileWorld) (rc : ℤ) (w' : FileWorld) : Prop where
  /-- A detached file fails every write without issuing one, and every synchronisation. -/
  fails : w.file.detached = true → op ≠ .reopen → rc ≠ 0 ∧ (op ≠ .sync → w'.trace = w.trace)
  /-- Only a reopen that installs a descriptor ends that. -/
  reopened : w.file.detached = true → w'.file.detached = false → op = .reopen ∧
    ∃ es old new, w'.trace = w.trace ++ es ∧ .install old new ∈ es
  /-- A write that neither renames nor writes, such as one whose rotation fails before the rename,
  leaves all fields but the mark of the directory, and the active file. -/
  kept : op ≠ .reopen → ∃ es, w'.trace = w.trace ++ es ∧
    ((∀ e ∈ es, e.isRename = false ∧ e.isWrite = false) →
      { w'.file with dirDirty := w.file.dirDirty } = w.file ∧ w'.active = w.active ∧
        (w.file.detached = false → w'.active = w'.file.fd))

/-- A state in which a sequence of calls has ended. -/
def FileReached (libc : Libc) (w₀ w : FileWorld) : Prop :=
  ∃ ops tape rest, (runFileOps libc ops).run w₀ tape = .done () w rest

section

variable {libc : Libc} {w₀ w w' : FileWorld}

theorem FileManaged.inv (h : FileManaged w) : LedgerInv w := by
  obtain ⟨ino, hfd, hactive, hlt, htrace⟩ := h.fd
  have hsplit := splitName_append w.file.binding.name
  rw [← h.names] at hsplit
  have hnone : ∀ {P : FileEvent → Bool}, P (.create ino) = false → ∀ {Q : FileEvent → Bool},
      FollowedBy P Q [.create ino] := by
    intro P hP Q
    exact followedBy_of_forall (by simpa using hP)
  refine ⟨hsplit.symm, h.managed, fun _ => ?_, ?_, ?_, ?_, ?_, ?_⟩
  · rw [hfd, hactive]
    exact ⟨nofun, rfl⟩
  · intro ino' hino'
    rw [← Option.some.inj (hactive.symm.trans hino')]
    exact hlt
  · intro ino' hino'
    rw [← Option.some.inj (hfd.symm.trans hino')]
    exact hlt
  · rw [htrace]
    simp
  · rw [h.attached]
    exact nofun
  · rw [htrace, h.attached, h.dirty]
    refine ⟨List.pairwise_singleton _ _, iff_of_true rfl (hnone rfl), fun _ _ => hnone rfl, ?_,
      nofun, nofun⟩
    intro before old new after hsplit
    exact absurd (hsplit ▸ by simp : .install (some old) new ∈ [FileEvent.create ino]) (by simp)

/-- Every sequence of calls keeps the invariant at every moment. -/
theorem runFileOps_ledger (libc : Libc) (ops : List FileOp) (h : LedgerInv w) :
    wp LedgerInv (runFileOps libc ops) (fun _ w' => LedgerInv w') w := by
  induction ops generalizing w with
  | nil => exact wp_pure h
  | cons op ops ih =>
    have hcall := (fileOp_exec_booked libc op h).weaken fun _ hbooked => hbooked.inv
    exact wp_bind (wp_mono hcall fun _ w₁ h₁ => ih h₁.booked.inv)

theorem FileReached.inv (hreached : FileReached libc w₀ w) (h : LedgerInv w₀) : LedgerInv w := by
  obtain ⟨ops, tape, rest, hrun⟩ := hreached
  have hsound := (runFileOps_ledger libc ops h).run tape
  rw [hrun] at hsound
  exact hsound

theorem LedgerInv.archivesSealed (h : LedgerInv w) : ArchivesSealed w where
  immutable before ino name after htrace bytes hmem := by
    have hpairwise := h.ledger.immutable
    rw [htrace, List.pairwise_append, List.pairwise_cons] at hpairwise
    have huntouched := hpairwise.2.1.1 _ hmem ino name rfl
    rw [FileEvent.writes, decide_eq_false_iff_not] at huntouched
    exact huntouched rfl
  halfSwitched before ino name after htrace hinstall := by
    have hdetached : w.file.detached = true := by
      refine Bool.eq_true_of_not_eq_false fun hattached => ?_
      obtain ⟨e, he, hisInstall⟩ := h.ledger.switched.mp hattached before _ after htrace rfl
      cases e with
      | install old new => exact hinstall old new he
      | _ => exact nomatch hisInstall
    exact ⟨hdetached, h.switchError hdetached⟩

/-- Detachment ends with an installation. -/
theorem LedgerInv.installed_of_attached (h : LedgerInv w) (h' : LedgerInv w')
    (hgrown : w.trace <+: w'.trace) (hdetached : w.file.detached = true)
    (hattached : w'.file.detached = false) :
    ∃ es old new, w'.trace = w.trace ++ es ∧ .install old new ∈ es := by
  obtain ⟨es, htrace⟩ := hgrown
  have hfollowed := h'.ledger.switched.mp hattached
  have hopen : ¬ FollowedBy FileEvent.isRename FileEvent.isInstall w.trace := by
    rw [← h.ledger.switched, hdetached]
    exact nofun
  rw [← htrace] at hfollowed
  by_contra hnone
  refine hopen ?_
  intro before e after hsplit he
  obtain ⟨q, hq, hinstall⟩ := hfollowed before e (after ++ es) (by rw [hsplit]; simp) he
  rcases List.mem_append.mp hq with hq | hq
  · exact ⟨q, hq, hinstall⟩
  · cases q with
    | install old new => exact absurd ⟨es, old, new, htrace.symm, hq⟩ hnone
    | _ => exact nomatch hinstall

/-- A call that is not a reopen does not end a detachment. -/
theorem CallBooked.detached {op : FileOp} {rc : ℤ} (hdone : CallBooked op w rc w')
    (h : LedgerInv w) (hop : op ≠ .reopen) (hdetached : w.file.detached = true) :
    w'.file.detached = true := by
  by_cases hsync : op = .sync
  · rw [(hdone.quiet hsync).detached]
    exact hdetached
  · -- the trace is the same, and it tells whether the file is detached
    have htrace := (hdone.sealed hdetached hop).2 hsync
    refine Bool.eq_true_of_not_eq_false fun hattached => ?_
    have hfollowed := hdone.booked.inv.ledger.switched.mp hattached
    rw [htrace, ← h.ledger.switched, hdetached] at hfollowed
    exact nomatch hfollowed

theorem CallBooked.callSealed {op : FileOp} {rc : ℤ} (hdone : CallBooked op w rc w')
    (h : LedgerInv w) : CallSealed op w rc w' where
  fails := hdone.sealed
  reopened hdetached hattached := by
    refine ⟨?_, h.installed_of_attached hdone.booked.inv hdone.booked.grown hdetached hattached⟩
    by_contra hop
    exact absurd (hattached.symm.trans (hdone.detached h hop hdetached)) nofun
  kept hop := by
    obtain ⟨es, htrace⟩ := hdone.booked.grown
    refine ⟨es, htrace.symm, fun hquiet => ?_⟩
    have hvitals : w'.vitals = w.vitals := by
      rcases hdone.booked.calm with ⟨es', htrace', e, he, hstirs⟩ | hvitals
      · rw [← htrace] at htrace'
        obtain rfl := List.append_cancel_left htrace'
        obtain ⟨hrename, hwrite⟩ := hquiet e he
        rw [FileOp.stirs_of_ne hop, hrename, hwrite] at hstirs
        exact nomatch hstirs
      · exact hvitals
    have hfile : { w'.file with dirDirty := false } = { w.file with dirDirty := false } :=
      congrArg Prod.fst hvitals
    refine ⟨congrArg (fun f : LoggerFile => { f with dirDirty := w.file.dirDirty }) hfile,
      congrArg Prod.snd hvitals, fun hattached => ?_⟩
    have hattached' : w'.file.detached = false :=
      (congrArg (fun f : LoggerFile => f.detached) hfile).trans hattached
    exact (hdone.booked.inv.attached hattached').2

end

/-- Archives are immutable and a half-finished switch is sealed: at every moment of every run of
`logger_file_write`, `logger_file_writev`, `logger_file_sync` and `logger_file_reopen` on a managed
file, and for every call from a state in which such a run has ended. -/
theorem archives_immutable (libc : Libc) (w₀ : FileWorld) (h : FileManaged w₀) :
    (∀ ops tape, ArchivesSealed ((runFileOps libc ops).run w₀ tape).state) ∧
    ∀ w, FileReached libc w₀ w → ∀ op tape rc w' rest,
      (FileOp.exec libc op).run w tape = .done rc w' rest → CallSealed op w rc w' := by
  refine ⟨fun ops tape => ?_, fun w hreached op tape rc w' rest hrun => ?_⟩
  · exact (wp_state (runFileOps_ledger libc ops h.inv) tape).archivesSealed
  · have hinv := hreached.inv h.inv
    have hsound := (fileOp_exec_booked libc op hinv).run tape
    rw [hrun] at hsound
    have hdone : CallBooked op w rc w' := hsound
    exact hdone.callSealed hinv

/-- An opened file whose directory is yet to be synchronised. -/
def managedFile : FileWorld :=
  { openedFile with
    file := { openedFile.file with dirDirty := true }
    trace := [.create 0] }

theorem managedFile_managed : FileManaged managedFile where
  managed := rfl
  names := rfl
  fd := ⟨0, rfl, rfl, by decide, rfl⟩
  attached := rfl
  dirty := rfl

/-- A write of one byte to the full file. -/
def writeByte : FileOp := .write (.ofBytes [66]) (some ⟨0, 0⟩) false

/-- The answers to the write: the directory cannot be synchronised after the rename. -/
def switchTape : List Answer := List.replicate 13 { count := 1 } ++ [{ ok := false }]

/-- The state in which that write ends. -/
def switchedFile : FileWorld :=
  ((runFileOps ⟨1, gmtime⟩ [writeByte]).run managedFile switchTape).state

theorem switchedFile_reached : FileReached ⟨1, gmtime⟩ managedFile switchedFile :=
  ⟨[writeByte], switchTape, [], rfl⟩

/-- The write has archived the old content and failed; the next one fails without a call. -/
theorem archives_immutable_half_switched :
    switchedFile.file.detached = true ∧ ArchivesSealed switchedFile ∧
    ∃ w', (writeByte.exec ⟨1, gmtime⟩).run switchedFile [] = .done (-eio) w' [] ∧
      CallSealed writeByte switchedFile (-eio) w' := by
  obtain ⟨hmoments, hcalls⟩ := archives_immutable ⟨1, gmtime⟩ managedFile managedFile_managed
  refine ⟨by decide +kernel, hmoments [writeByte] switchTape, _, rfl, ?_⟩
  exact hcalls switchedFile switchedFile_reached writeByte [] _ _ [] rfl

end CLogger
