import CLogger.File.Results
import CLogger.File.Size

/-!
# The segments of the file

Where a file is in use under its name, a call that succeeds either appends to the file of the
descriptor, or it archives that file and goes on in a new one. The bytes of one call are never in
two segments. This holds for every binding, with any rotation mode and any retention.

* `FileChain`: what decides which file is written to, and the archives in their order.
* `fileOp_exec_chain`: what a call does to it.
* `Segmented`: the segments of a run, each with the calls that have written to it.
-/

namespace CLogger

open TapeProgram

/-! ## The chain of files -/

/-- The inode that is moved to an archive name. -/
def FileEvent.archived : FileEvent → Option ℕ
  | .rename ino _ => some ino
  | _ => none

/-- The archives of a run, in the order of their renames. -/
def FileWorld.archived (w : FileWorld) : List ℕ := w.trace.filterMap FileEvent.archived

/-- What decides which file is written to. -/
structure FileChain where
  binding : FileBinding
  fd : Option ℕ
  active : Option ℕ
  nextIno : ℕ
  archived : List ℕ

/-- The chain of a state. -/
def FileWorld.chain (w : FileWorld) : FileChain where
  binding := w.file.binding
  fd := w.file.fd
  active := w.active
  nextIno := w.disk.nextIno
  archived := w.archived

namespace FileChain

/-- The file is in use under its name, which is the stem with the extension. -/
structure Linked (c : FileChain) (ino : ℕ) : Prop where
  name : c.binding.name = c.binding.stem ++ c.binding.ext
  fd : c.fd = some ino
  active : c.active = some ino

/-- A file is created under the active name. -/
def create (c : FileChain) : FileChain :=
  { c with active := some c.nextIno, nextIno := c.nextIno + 1 }

/-- The active file is moved to an archive name. -/
def archive (c : FileChain) : FileChain :=
  { c with active := none, archived := c.archived ++ c.active.toList }

/-- A file is created, and its descriptor installed. -/
def install (c : FileChain) : FileChain := { c.create with fd := some c.nextIno }

/-- A rotation. -/
def rotate (c : FileChain) : FileChain := c.archive.install

end FileChain

section Events

variable {w : FileWorld}

/-- An event adds what it archives. -/
theorem archived_note (w : FileWorld) (e : FileEvent) :
    (w.note e).archived = w.archived ++ e.archived.toList := by
  rw [FileWorld.archived, FileWorld.note, List.filterMap_append]
  cases e <;> rfl

/-- An event that is no rename leaves the chain as it is. -/
theorem chain_note {e : FileEvent} (he : e.archived = none) (w : FileWorld) :
    (w.note e).chain = w.chain := by
  have harchived := archived_note w e
  rw [he, Option.toList_none, List.append_nil] at harchived
  rw [FileWorld.chain, harchived]
  rfl

end Events

instance : Unmetered FileWorld.chain := ⟨fun _ _ => rfl⟩

instance : Unsynced FileWorld.chain :=
  ⟨fun _ _ _ => rfl, fun _ _ => rfl, fun w _ => chain_note rfl w, fun w => chain_note rfl w⟩

instance : Unwritten FileWorld.chain :=
  ⟨fun w _ => chain_note rfl w, fun w _ _ _ => chain_note rfl w, fun _ _ => rfl⟩

/-! ## What the functions do to the chain -/

section Specs

variable {libc : Libc} {w : FileWorld} {ino : ℕ} {α β : Type}

/-- Passing a function that leaves the chain alone. -/
theorem chain_bind {P : α → Prop} {m : FileProg α} {f : α → FileProg β}
    {Q : β → FileWorld → Prop} (hm : Keeps FileWorld.chain P m)
    (hf : ∀ a w', P a → w'.chain = w.chain → wp (fun _ => True) (f a) Q w') :
    wp (fun _ => True) (m >>= f) Q w :=
  wp_bind (wp_of_keeps hm (fun _ _ => trivial) (fun _ _ => trivial) hf)

/-- What opening the active name has done: a file may have been created under it, and a success
has opened the active file. -/
structure ChainOpened (c : FileChain) (r : Except ℤ α) (fd : α → ℕ) (c' : FileChain) : Prop where
  opened : c' = c ∨ c.active = none ∧ c' = c.create
  active : ∀ a, r = .ok a → c'.active = some (fd a)

/-- A failure may have created the file as well. -/
theorem ChainOpened.error {c c' : FileChain} {rc : ℤ} {fd : α → ℕ}
    (h : c' = c ∨ c.active = none ∧ c' = c.create) : ChainOpened c (.error rc) fd c' :=
  ⟨h, fun _ hok => absurd hok (by rintro ⟨⟩)⟩

/-- The answer to `openat` opens the active file, which it may have created. -/
theorem openAnswer_chain (w : FileWorld) (create exclusive : Bool) (a : Answer) :
    ChainOpened w.chain (w.openAnswer create exclusive a).1 id
      (w.openAnswer create exclusive a).2.chain := by
  rcases openAnswer_cases w create exclusive a with
    ⟨e, hanswer⟩ | ⟨ino, hactive, -, hanswer⟩ | ⟨hnone, r, hanswer, hino⟩
  · rw [hanswer]
    exact .error (.inl rfl)
  · rw [hanswer]
    refine ⟨.inl rfl, fun fd hfd => ?_⟩
    obtain rfl := Except.ok.inj hfd
    exact hactive
  · rw [hanswer]
    have hcreated : FileWorld.chain { w.note (.create w.disk.nextIno) with
        disk := w.disk.create w.file.binding.name } = w.chain.create := by
      have hnoted := congrArg FileChain.create (chain_note (e := .create w.disk.nextIno) rfl w)
      rw [← hnoted, FileWorld.chain, FileChain.create]
      congr 1
      exact Disk.dir_create_self
    refine ⟨.inr ⟨hnone, hcreated⟩, fun fd hfd => ?_⟩
    rw [hino fd hfd]
    exact congrArg FileChain.active hcreated

/-- A candidate is the active file, which may have been created for it. -/
theorem openCandidate_chain (exclusive : Bool) :
    wp (fun _ => True) (openCandidate exclusive)
      (fun r w' => ChainOpened w.chain r Prod.fst w'.chain ∧ Failing r) w := by
  -- a process that is not the owner opens nothing
  refine chain_bind checkOwner_keeps fun rc w₁ hle h₁ => ?_
  refine wp_ite (fun hrc => wp_pure ⟨.error (.inl h₁), .error (lt_of_le_of_ne hle hrc)⟩) fun _ => ?_
  refine wp_getFile_bind (wp_bind (wp_ask trivial fun a => ?_))
  have hopened := openAnswer_chain w₁ w₁.file.binding.managed exclusive a
  have herror := (openAnswer_opening w₁ w₁.file.binding.managed exclusive a).2
  rw [h₁] at hopened
  generalize w₁.openAnswer w₁.file.binding.managed exclusive a = answer at hopened herror
  obtain ⟨r, w₂⟩ := answer
  -- a candidate that fails a check is closed
  have hreject : ∀ (w₃ : FileWorld) (fd : ℕ) (rc : ℤ), w₃.chain = w₂.chain → rc < 0 →
      wp (fun _ => True) (loggerFdCloseStatus (some fd) >>= fun _ => pure (.error rc))
        (fun (r : Except ℤ (ℕ × Stat)) w' => ChainOpened w.chain r Prod.fst w'.chain ∧ Failing r)
        w₃ := by
    intro w₃ fd rc h₃ hrc
    refine chain_bind (loggerFdCloseStatus_keeps _) fun _ w₄ _ h₄ => wp_pure ⟨?_, .error hrc⟩
    rw [h₄, h₃]
    exact .error hopened.opened
  cases r with
  | error e => exact wp_pure ⟨.error hopened.opened, herror.failing⟩
  | ok fd =>
    refine chain_bind (checkNamedFd_keeps _ _) fun r w₃ hfailing h₃ => ?_
    cases r with
    | error rc => exact hreject w₃ fd rc h₃ (hfailing rc rfl)
    | ok st =>
      -- the last check depends on the kind of the file
      refine wp_ite (fun hrc => hreject w₃ fd _ h₃ (lt_of_le_of_ne ?_ hrc)) fun _ => ?_
      · split_ifs
        · exact regularSingleLink_nonpos st
        · exact le_rfl
        · decide
      · refine wp_bind (wp_modify (wp_pure ⟨?_, .ok _⟩))
        show ChainOpened w.chain _ Prod.fst w₃.chain
        rw [h₃]
        refine ⟨hopened.opened, fun c hc => ?_⟩
        obtain rfl := Except.ok.inj hc
        exact hopened.active fd rfl

/-- Retention deletes archives, and the active name is not one of theirs. -/
theorem retentionStep_chain (now : ℤ) (changed : Bool)
    (hname : w.chain.binding.name = w.chain.binding.stem ++ w.chain.binding.ext) :
    wp (fun _ => True) (retentionStep now changed) (fun _ w' => w'.chain = w.chain) w := by
  refine wp_getFile_bind (chain_bind call_keeps fun a w₁ _ h₁ => ?_)
  cases a.entry with
  | none => exact wp_pure h₁
  | some name =>
    refine wp_ite (fun _ => wp_pure h₁) fun hmatches => ?_
    refine chain_bind (fstatat_keeps name) fun r w₂ _ h₂ => ?_
    have h₂' : w₂.chain = w.chain := h₂.trans h₁
    cases r with
    | error e => exact wp_pure h₂'
    | ok st =>
      refine wp_ite (fun _ => wp_pure h₂') fun _ => wp_ite (fun _ => wp_pure h₂') fun _ => ?_
      refine wp_bind (wp_ask trivial fun a => ?_)
      unfold FileWorld.unlinkAnswer
      split_ifs
      · exact wp_pure h₂'
      · have hne : w₂.file.binding.name ≠ name := by
          have hbinding : w₂.file.binding = w.file.binding := congrArg FileChain.binding h₂'
          rw [hbinding]
          exact archiveMatches_ne hname (by simpa using hmatches)
        have hunlinked : FileWorld.chain { w₂.note (.unlink name) with
            disk := w₂.disk.unlink name } = w.chain := by
          rw [← h₂', ← chain_note (e := .unlink name) rfl w₂, FileWorld.chain, FileWorld.chain]
          congr 1
          exact Function.update_of_ne hne _ _
        exact wp_bind (wp_modify (wp_pure hunlinked))
      · exact wp_pure h₂'

/-- So does the whole scan. -/
theorem retention_chain (now : ℤ)
    (hname : w.chain.binding.name = w.chain.binding.stem ++ w.chain.binding.ext) :
    wp (fun _ => True) (retention now) (fun _ w' => w'.chain = w.chain) w := by
  refine wp_getFile_bind (wp_ite (fun _ => wp_pure rfl) fun _ => ?_)
  refine chain_bind call_keeps fun dir w₁ _ h₁ => wp_ite (fun _ => wp_pure h₁) fun _ => ?_
  refine chain_bind call_keeps fun scan w₂ _ h₂ => ?_
  have h₂' : w₂.chain = w.chain := h₂.trans h₁
  refine wp_ite (fun _ => ?_) fun _ => ?_
  · exact chain_bind call_keeps fun _ w₃ _ h₃ => wp_pure (h₃.trans h₂')
  have hloop : wp (fun _ => True) (Prog.iterate (retentionStep now) false)
      (fun _ w' => w'.chain = w.chain) w₂ := by
    refine wp_iterate (fun _ w' => w'.chain = w.chain) (fun _ _ _ => trivial) ?_ h₂'
    intro changed w₃ h₃
    refine wp_mono (retentionStep_chain now changed (h₃ ▸ hname)) ?_
    rintro (changed' | r) w₄ h₄
    · exact h₄.trans h₃
    · exact h₄.trans h₃
  refine wp_bind (wp_mono hloop ?_)
  rintro ⟨rc, changed⟩ w₃ h₃
  refine chain_bind call_keeps fun closed w₄ _ h₄ => wp_ite (fun _ => ?_) fun _ => ?_
  · refine wp_bind (wp_modify (chain_bind syncDirectory_keeps fun synced w₅ _ h₅ => wp_pure ?_))
    exact h₅.trans (h₄.trans h₃)
  · exact wp_pure (h₄.trans h₃)

/-- The error exit of a rotation returns the error. -/
theorem failSwitch_chain (candidate : Option ℕ) {rc : ℤ} (hrc : rc ≠ 0) {c : FileChain} :
    wp (fun _ => True) (failSwitch candidate rc) (fun rc' w' => rc' = 0 → w'.chain = c) w :=
  chain_bind (loggerFdCloseStatus_keeps candidate) fun _ _ _ _ =>
    wp_bind (wp_modify (wp_pure fun hzero => absurd hzero hrc))

/-- A search for an archive name that succeeds has archived the active file. -/
theorem archiveRename_chain (n : ℕ) (t : Timespec) :
    wp (fun _ => True) (archiveRename libc n t)
      (fun r w' => ∀ t', r = .ok t' → w'.chain = w.chain.archive) w := by
  induction n generalizing t w with
  | zero => exact wp_pure fun _ ht => absurd ht (by rintro ⟨⟩)
  | succ n ih =>
    -- an attempt that fails archives nothing
    have hfailed : ∀ (rc : ℤ) (w' : FileWorld) (t' : Timespec),
        (.error rc : Except ℤ Timespec) = .ok t' → w'.chain = w.chain.archive :=
      fun _ _ _ h => absurd h (by rintro ⟨⟩)
    refine chain_bind (archiveName_keeps t) fun r w₁ _ h₁ => ?_
    cases r with
    | error rc => exact wp_pure (hfailed rc w₁)
    | ok name =>
      refine wp_bind (wp_ask trivial fun a => ?_)
      rcases renameAnswer_cases w₁ name a with ⟨e, -, hrename⟩ | ⟨ino, hactive, -, hrename⟩
      -- a name that is taken is retried with the next microsecond
      · rw [hrename]
        refine wp_ite (fun _ => wp_pure (hfailed _ w₁)) fun _ => ?_
        refine chain_bind (advanceMicrosecond_keeps t) fun r w₂ _ h₂ => ?_
        cases r with
        | error rc => exact wp_pure (hfailed rc w₂)
        | ok t' =>
          rw [← h₁, ← h₂]
          exact ih t'
      · rw [hrename]
        refine wp_pure fun _ _ => ?_
        have harchived := archived_note w₁ (.rename ino name)
        rw [← h₁]
        -- the archive is the active file, which loses its name
        show FileChain.mk _ _ _ _ _ = FileChain.mk _ _ _ _ _
        rw [show w₁.chain.active = some ino from hactive]
        congr 1
        exact Function.update_self _ _ _

/-- The second half of a rotation that succeeds has installed a new file. -/
theorem switchActive_chain (t : Timespec)
    (hname : w.chain.binding.name = w.chain.binding.stem ++ w.chain.binding.ext)
    (hnone : w.chain.active = none) :
    wp (fun _ => True) (switchActive libc t)
      (fun rc w' => rc = 0 → w'.chain = w.chain.install) w := by
  refine chain_bind syncDirectory_keeps fun rc w₁ _ h₁ => ?_
  refine wp_ite (fun hrc => failSwitch_chain none hrc) fun _ => ?_
  refine chain_bind (wallDay_keeps t.sec) fun r w₂ hr h₂ => ?_
  cases r with
  | error rc => exact failSwitch_chain none (hr rc rfl).ne
  | ok day =>
    refine wp_bind (wp_mono (openCandidate_chain true) ?_)
    rintro (rc | ⟨fd, st⟩) w₃ ⟨hopened, hfailing⟩
    · exact failSwitch_chain none (hfailing rc rfl).ne
    -- the active name was free, so the candidate is a new file
    rw [h₂, h₁] at hopened
    have hactive : w₃.chain.active = some fd := hopened.active _ rfl
    have hcreated : w₃.chain = w.chain.create := by
      rcases hopened.opened with h | ⟨-, h⟩
      · rw [h, hnone] at hactive
        exact absurd hactive (by rintro ⟨⟩)
      · exact h
    obtain rfl : w.chain.nextIno = fd := Option.some.inj (by rw [← hactive, hcreated]; rfl)
    refine chain_bind (syncData_keeps _) fun rc w₄ _ h₄ => ?_
    refine wp_ite (fun hrc => failSwitch_chain _ hrc) fun _ => ?_
    refine chain_bind syncDirectory_keeps fun rc w₅ _ h₅ => ?_
    refine wp_ite (fun hrc => failSwitch_chain _ hrc) fun _ => wp_getFile_bind ?_
    have h₅' : w₅.chain = w.chain.create := h₅.trans (h₄.trans hcreated)
    refine wp_bind (wp_modify ?_)
    -- installing touches only the descriptor
    have hinstalled : ∀ w' : FileWorld, w'.chain = { w₅.chain with fd := some w.chain.nextIno } →
        w'.chain = w.chain.install := by
      intro w' h'
      rw [h', h₅']
      rfl
    refine chain_bind (loggerFdCloseStatus_keeps _) fun rc w₆ _ h₆ => ?_
    have h₆' : w₆.chain = w.chain.install := by
      rw [h₆]
      refine hinstalled _ ?_
      rw [← chain_note (e := .install w₅.file.fd w.chain.nextIno) rfl w₅]
      rfl
    refine wp_ite (fun hrc => wp_pure fun hzero => absurd hzero hrc) fun _ => ?_
    -- retention leaves the chain alone
    refine wp_mono (retention_chain t.sec ?_) fun _ w₇ h₇ _ => h₇.trans h₆'
    rw [h₆']
    exact hname

/-- What a call that succeeds may do to the chain. -/
def Turned (c c' : FileChain) : Prop := c' = c ∨ c' = c.rotate

/-- A rotation that succeeds archives the active file and goes on in a new one. -/
theorem rotateImpl_chain
    (hname : w.chain.binding.name = w.chain.binding.stem ++ w.chain.binding.ext) :
    wp (fun _ => True) (rotateImpl libc) (fun rc w' => rc = 0 → w'.chain = w.chain.rotate) w := by
  have hfailed : ∀ (rc : ℤ) (w' : FileWorld), rc ≠ 0 → rc = 0 → w'.chain = w.chain.rotate :=
    fun _ _ hrc hzero => absurd hzero hrc
  refine chain_bind checkActive_keeps fun rc w₁ _ h₁ => ?_
  refine wp_ite (fun hrc => wp_pure (hfailed rc w₁ hrc)) fun _ => ?_
  refine chain_bind call_keeps fun clock w₂ _ h₂ => ?_
  refine wp_ite (fun _ => wp_pure (hfailed _ w₂ clock.neg_errno_neg.ne)) fun _ => ?_
  refine chain_bind (timestampValid_keeps _) fun valid w₃ _ h₃ => ?_
  refine wp_ite (fun _ => wp_pure (hfailed _ w₃ (by decide))) fun _ => ?_
  refine chain_bind (archiveStart_keeps _) fun r w₄ hr h₄ => ?_
  cases r with
  | error rc => exact wp_pure (hfailed rc w₄ (hr rc rfl).ne)
  | ok t =>
    refine chain_bind loggerFileSync_keeps fun rc w₅ _ h₅ => ?_
    refine wp_ite (fun hrc => wp_pure (hfailed rc w₅ hrc)) fun _ => ?_
    -- up to the rename nothing has happened to the chain
    have h₅' : w₅.chain = w.chain := h₅.trans (h₄.trans (h₃.trans (h₂.trans h₁)))
    refine wp_bind (wp_mono ((archiveRename_chain _ t).and_keeps (archiveRename_failing _ t)) ?_)
    rintro (rc | t') w₆ ⟨h₆, hfailing⟩
    · exact wp_pure (hfailed rc w₆ (hfailing rc rfl).ne)
    have h₆' : w₆.chain = w.chain.archive := (h₆ t' rfl).trans (congrArg _ h₅')
    -- `detach` marks the descriptor, and does not change what it refers to
    have hdetach : Keeps FileWorld.chain (fun _ => True) (detach t') := Keeps.modify fun _ => rfl
    refine chain_bind hdetach fun _ w₇ _ h₇ => ?_
    rw [h₆'] at h₇
    refine wp_mono (switchActive_chain t' ?_ ?_) fun rc w₈ h₈ hzero => (h₈ hzero).trans ?_
    -- the three conditions of the second half hold after the archive
    · rw [h₇]
      exact hname
    · rw [h₇]
      rfl
    · rw [h₇]
      rfl

/-- So does the rotation with its metrics. -/
theorem rotate_chain
    (hname : w.chain.binding.name = w.chain.binding.stem ++ w.chain.binding.ext) :
    wp (fun _ => True) (rotate libc) (fun rc w' => rc = 0 → w'.chain = w.chain.rotate) w := by
  refine chain_bind (countMetrics_keeps _) fun _ w₁ _ h₁ => ?_
  refine wp_bind (wp_mono (rotateImpl_chain (h₁ ▸ hname)) ?_)
  rintro rc w₂ h₂
  rw [h₁] at h₂
  refine wp_ite (fun _ => ?_) fun _ => ?_
  · refine chain_bind (countMetrics_keeps _) fun _ w₃ _ h₃ => wp_pure fun hzero => ?_
    exact h₃.trans (h₂ hzero)
  · refine chain_bind (countMetrics_keeps _) fun _ w₃ _ h₃ => wp_pure fun hzero => ?_
    exact h₃.trans (h₂ hzero)

/-- Before a write there is at most one rotation. -/
theorem prepareWrite_chain (n : ℕ) (t : Option Timespec)
    (hname : w.chain.binding.name = w.chain.binding.stem ++ w.chain.binding.ext) :
    wp (fun _ => True) (prepareWrite libc n t) (fun rc w' => rc = 0 → Turned w.chain w'.chain)
      w := by
  have hkept : ∀ (rc : ℤ) (w' : FileWorld), w'.chain = w.chain → rc = 0 →
      Turned w.chain w'.chain := fun _ _ h _ => .inl h
  have hrotate : ∀ w₁ : FileWorld, w₁.chain = w.chain →
      wp (fun _ => True) (rotate libc) (fun rc w' => rc = 0 → Turned w.chain w'.chain) w₁ := by
    intro w₁ h₁
    refine wp_mono (rotate_chain (h₁ ▸ hname)) fun rc w₂ h₂ hzero => .inr ?_
    rw [← h₁]
    exact h₂ hzero
  refine wp_getFile_bind (wp_ite (fun _ => wp_pure (hkept _ w rfl)) fun _ => ?_)
  cases t with
  | none => exact wp_pure (hkept _ w rfl)
  | some t =>
    refine wp_ite (fun _ => wp_pure (hkept _ w rfl)) fun _ => ?_
    refine wp_ite (fun _ => wp_pure (hkept _ w rfl)) fun _ => ?_
    refine wp_ite (fun _ => wp_pure (hkept _ w rfl)) fun _ => wp_ite (fun _ => ?_) fun _ => ?_
    · refine chain_bind (wallDay_keeps _) fun r w₁ _ h₁ => ?_
      cases r with
      | error rc => exact wp_pure (hkept rc w₁ h₁)
      | ok d => exact wp_ite (fun _ => hrotate w₁ h₁) fun _ => wp_pure (hkept _ w₁ h₁)
    · exact wp_ite (fun _ => hrotate w rfl) fun _ => wp_pure (hkept _ w rfl)

/-- The common part of the two write functions. -/
theorem writing_chain (n : ℕ) (t : Option Timespec) (sync : Bool)
    (output : LoggerFile → FileProg (ℤ × ℕ))
    (houtput : ∀ f, Keeps FileWorld.chain (fun _ => True) (output f))
    (hname : w.chain.binding.name = w.chain.binding.stem ++ w.chain.binding.ext) :
    wp (fun _ => True) (do
        countMetrics fun m => { m with writeOperations := m.writeOperations + 1 }
        let rc ← prepareWrite libc n t
        let f ← getFile
        finishWrite rc (output f) sync)
      (fun rc w' => rc = 0 → Turned w.chain w'.chain) w := by
  refine chain_bind (countMetrics_keeps _) fun _ w₁ _ h₁ => ?_
  refine wp_bind (wp_mono (prepareWrite_chain n t (h₁ ▸ hname)) ?_)
  intro rc w₂ h₂
  rw [h₁] at h₂
  refine wp_getFile_bind ?_
  refine wp_of_keeps (finishWrite_keeps sync (houtput _)) (fun _ _ => trivial) (fun _ _ => trivial)
    fun rc' w₃ hrc h₃ hzero => ?_
  rw [h₃]
  exact h₂ (hrc hzero)

/-- A reopen finds the file that is in use under its name, and keeps it. -/
theorem fileReopenImpl_chain (hlinked : w.chain.Linked ino) :
    wp (fun _ => True) (fileReopenImpl libc) (fun _ w' => w'.chain = w.chain) w := by
  refine chain_bind call_keeps fun now w₁ _ h₁ => ?_
  refine chain_bind (wallDay_keeps _) fun r w₂ _ h₂ => ?_
  have h₂' : w₂.chain = w.chain := h₂.trans h₁
  cases r with
  | error rc => exact wp_pure h₂'
  | ok day =>
    refine wp_bind (wp_mono (openCandidate_chain false) ?_)
    rintro r w₃ ⟨hopened, -⟩
    rw [h₂'] at hopened
    -- the name is in use, so nothing was created
    have h₃ : w₃.chain = w.chain := by
      rcases hopened.opened with h | ⟨hnone, -⟩
      · exact h
      · rw [hlinked.active] at hnone
        exact absurd hnone (by rintro ⟨⟩)
    cases r with
    | error rc => exact wp_pure h₃
    | ok c =>
      obtain rfl : ino = c.1 := by
        have hactive := hopened.active c rfl
        rw [h₃, hlinked.active] at hactive
        exact Option.some.inj hactive
      -- neither synchronisation touches the chain
      have hdata : Keeps FileWorld.chain (fun _ => True)
          (if w₃.file.binding.managed then syncData w₃.file.fd else pure 0) :=
        .ite (fun _ => (syncData_keeps _).mono fun _ _ => trivial) fun _ => .pure trivial
      refine wp_getFile_bind (chain_bind hdata fun rc w₄ _ h₄ => ?_)
      have hdirectory : Keeps FileWorld.chain (fun _ => True)
          (if rc = 0 then syncDirectoryIfDirty else pure rc) :=
        .ite (fun _ => syncDirectoryIfDirty_keeps.mono fun _ _ => trivial) fun _ => .pure trivial
      refine chain_bind hdirectory fun rc w₅ _ h₅ => ?_
      have h₅' : w₅.chain = w.chain := h₅.trans (h₄.trans h₃)
      refine wp_ite (fun _ => ?_) fun _ => wp_bind (wp_modify ?_)
      -- a candidate that is refused is closed
      · exact chain_bind (loggerFdCloseStatus_keeps _) fun _ w₆ _ h₆ => wp_pure (h₆.trans h₅')
      · refine wp_of_keeps (loggerFdCloseStatus_keeps _) (fun _ _ => trivial) (fun _ _ => trivial)
          fun rc w₆ _ h₆ => h₆.trans ?_
        -- the descriptor that is installed refers to the file it already referred to
        have hnoted := chain_note (e := .install w₅.file.fd c.1) rfl w₅
        rw [h₅'] at hnoted
        have hsame : { w.chain with fd := some c.1 } = w.chain := by rw [← hlinked.fd]
        rw [← hsame, ← hnoted]
        rfl

/-- A write that succeeds rotates at most once. -/
theorem fileOp_exec_chain (op : FileOp) (hop : op ≠ .reopen) (hlinked : w.chain.Linked ino) :
    wp (fun _ => True) (op.exec libc) (fun rc w' => rc = 0 → Turned w.chain w'.chain) w := by
  have hentered : (op.entered w).chain.Linked ino := ⟨hlinked.name, hlinked.fd, hlinked.active⟩
  refine wp_bind (wp_modify ?_)
  cases op with
  | write p t sync =>
    refine wp_ite (fun _ => wp_pure fun hzero => absurd hzero (by decide)) fun _ => ?_
    exact writing_chain p.len t sync (fun f => all f.fd p.bytes) (fun f => all_keeps _ _)
      hentered.name
  | writev v n t sync =>
    refine wp_ite (fun _ => wp_pure fun hzero => absurd hzero (by decide)) fun _ => ?_
    exact writing_chain n t sync (fun f => vall f.fd f.binding.iovMax (v.map Iovec.bytes))
      (fun f => vall_keeps _ _ _) hentered.name
  | sync =>
    exact wp_of_keeps (π := FileWorld.chain) loggerFileSync_keeps (fun _ _ => trivial)
      (fun _ _ => trivial) fun rc w' _ h' _ => .inl h'
  | reopen => exact absurd rfl hop

/-- A synchronisation and a reopen leave the chain alone. -/
theorem fileOp_exec_unturned {op : FileOp} (hop : op = .sync ∨ op = .reopen)
    (hlinked : w.chain.Linked ino) :
    wp (fun _ => True) (op.exec libc) (fun _ w' => w'.chain = w.chain) w := by
  refine wp_bind (wp_modify ?_)
  rcases hop with rfl | rfl
  · exact wp_of_keeps (π := FileWorld.chain) loggerFileSync_keeps (fun _ _ => trivial)
      (fun _ _ => trivial) fun rc w' _ h' => h'
  · refine wp_getFile_bind (wp_ite (fun _ => wp_pure rfl) fun _ => ?_)
    refine chain_bind (countMetrics_keeps _) fun _ w₁ _ h₁ => ?_
    have h₁' : w₁.chain = w.chain := h₁
    have hlinked₁ : w₁.chain.Linked ino := h₁' ▸ hlinked
    refine wp_bind (wp_mono (fileReopenImpl_chain hlinked₁) ?_)
    intro rc w₂ h₂
    have h₂' : w₂.chain = w.chain := h₂.trans h₁'
    refine wp_ite (fun _ => ?_) fun _ => ?_
    · exact chain_bind (countMetrics_keeps _) fun _ w₃ _ h₃ => wp_pure (h₃.trans h₂')
    · exact chain_bind (countMetrics_keeps _) fun _ w₃ _ h₃ => wp_pure (h₃.trans h₂')

end Specs

/-! ## The segments of a run -/

/-- A segment of the file, with what the calls of a run have written to it. -/
structure FileSegment where
  ino : ℕ
  parts : List (List UInt8)

/-- The content of an inode when the run began; an inode that was not in use then is new. -/
def FileWorld.opened (w₀ : FileWorld) (ino : ℕ) : List UInt8 :=
  if w₀.file.fd = some ino then w₀.disk.data ino else []

/-- A run from `w₀` in which calls have written `parts` has led to `w`: the file consists of the
closed segments and the active one, and each call has written to one of them. -/
structure Segmented (w₀ w : FileWorld) (parts : List (List UInt8)) (closed : List FileSegment)
    (active : FileSegment) : Prop where
  linked : w.chain.Linked active.ino
  /-- The closed segments are the archives, in the order of their renames. -/
  archived : w.archived = w₀.archived ++ closed.map FileSegment.ino
  parts : (closed ++ [active]).flatMap FileSegment.parts = parts
  content : ∀ s ∈ closed ++ [active], w.disk.data s.ino = w₀.opened s.ino ++ s.parts.flatten
  /-- The first segment is the file that was in use when the run began. -/
  first : ((closed ++ [active]).map FileSegment.ino).head? = w₀.file.fd
  distinct : ((closed ++ [active]).map FileSegment.ino).Nodup
  used : ∀ s ∈ closed ++ [active], s.ino < w.disk.nextIno

/-- A managed file is in use under its name. -/
theorem FileManaged.linked {w : FileWorld} (h : FileManaged w) : ∃ ino, w.chain.Linked ino := by
  obtain ⟨ino, hfd, hactive, -⟩ := h.fd
  exact ⟨ino, h.inv.name, hfd, hactive⟩

section Segments

variable {libc : Libc} {w₀ w w' : FileWorld} {parts : List (List UInt8)} {part : List UInt8}
  {closed : List FileSegment} {active : FileSegment} {ino : ℕ}

/-- A run begins with one segment. -/
theorem Segmented.start (hlinked : w.chain.Linked ino) (hok : FileOk w) :
    Segmented w w [] [] ⟨ino, []⟩ where
  linked := hlinked
  archived := (List.append_nil _).symm
  parts := rfl
  content s hs := by
    have hfd : w.file.fd = some ino := hlinked.fd
    obtain rfl := List.mem_singleton.mp hs
    rw [FileWorld.opened, if_pos hfd]
    exact (List.append_nil _).symm
  first := hlinked.fd.symm
  distinct := List.nodup_singleton _
  used s hs := by
    obtain rfl := List.mem_singleton.mp hs
    exact hok.fd ino hlinked.fd

/-- A call that changes neither the chain nor the files keeps the segments. -/
theorem Segmented.same (h : Segmented w₀ w parts closed active) (hchain : w'.chain = w.chain)
    (hdata : ∀ ino < w.disk.nextIno, w'.disk.data ino = w.disk.data ino) :
    Segmented w₀ w' parts closed active where
  linked := by
    rw [hchain]
    exact h.linked
  archived := (congrArg FileChain.archived hchain).trans h.archived
  parts := h.parts
  content s hs := (hdata s.ino (h.used s hs)).trans (h.content s hs)
  first := h.first
  distinct := h.distinct
  used s hs := by
    have hnext : w'.disk.nextIno = w.disk.nextIno := congrArg FileChain.nextIno hchain
    rw [hnext]
    exact h.used s hs

/-- The closed segments are other files than the active one. -/
theorem Segmented.other (h : Segmented w₀ w parts closed active) {s : FileSegment}
    (hs : s ∈ closed) : s.ino ≠ active.ino := by
  have hdistinct := h.distinct
  rw [List.map_append, List.nodup_append] at hdistinct
  exact hdistinct.2.2 _ (List.mem_map_of_mem hs) _ (List.mem_singleton_self _)

/-- A file in use that is not the one written to keeps its content. -/
theorem FileWrote.untouched (hwrote : FileWrote w w' part)
    (hnext : w.disk.nextIno ≤ w'.disk.nextIno) (hused : ino < w.disk.nextIno) {fd : ℕ}
    (hfd : w'.file.fd = some fd) (hne : ino ≠ fd) : w'.disk.data ino = w.disk.data ino := by
  have hother : w'.file.fd ≠ some ino := by
    rw [hfd]
    exact fun heq => hne (Option.some.inj heq).symm
  rw [hwrote.data ino (hused.trans_le hnext), if_pos hused, if_neg hother, List.append_nil]

/-- The active segment has got a part more. -/
theorem Segmented.append (h : Segmented w₀ w parts closed active) (hwrote : FileWrote w w' part)
    (hchain : w'.chain = w.chain) :
    Segmented w₀ w' (parts ++ [part]) closed ⟨active.ino, active.parts ++ [part]⟩ := by
  have hnext : w'.disk.nextIno = w.disk.nextIno := congrArg FileChain.nextIno hchain
  have hfd : w'.file.fd = some active.ino :=
    (congrArg FileChain.fd hchain).trans h.linked.fd
  -- a part more does not change which files the segments are
  have hinos : (closed ++ [(⟨active.ino, active.parts ++ [part]⟩ : FileSegment)]).map
      FileSegment.ino = (closed ++ [active]).map FileSegment.ino := by
    rw [List.map_append, List.map_append]
    rfl
  have hclosed : ∀ s ∈ closed, s ∈ closed ++ [active] := fun s => List.mem_append_left _
  have hactive : active ∈ closed ++ [active] := List.mem_append_right _ (List.mem_singleton_self _)
  refine ⟨hchain ▸ h.linked, (congrArg FileChain.archived hchain).trans h.archived, ?_,
    List.forall_mem_append.mpr ⟨fun s hs => ?_, List.forall_mem_singleton.mpr ?_⟩, ?_, ?_,
    List.forall_mem_append.mpr ⟨fun s hs => ?_, List.forall_mem_singleton.mpr ?_⟩⟩
  · rw [← h.parts, List.flatMap_append, List.flatMap_append, List.append_assoc,
      List.flatMap_singleton, List.flatMap_singleton]
  · rw [hwrote.untouched hnext.ge (h.used s (hclosed s hs)) hfd (h.other hs)]
    exact h.content s (hclosed s hs)
  · have hused := h.used active hactive
    rw [hwrote.data active.ino (hnext ▸ hused), if_pos hused, if_pos hfd, h.content active hactive,
      List.append_assoc, List.flatten_append, List.flatten_singleton]
  · rw [hinos]
    exact h.first
  · rw [hinos]
    exact h.distinct
  · rw [hnext]
    exact h.used s (hclosed s hs)
  · rw [hnext]
    exact h.used active hactive

/-- The active segment has been closed, and a new one has got the part. -/
theorem Segmented.rotate (h : Segmented w₀ w parts closed active) (hwrote : FileWrote w w' part)
    (hchain : w'.chain = w.chain.rotate) :
    Segmented w₀ w' (parts ++ [part]) (closed ++ [active]) ⟨w.disk.nextIno, [part]⟩ := by
  have hnext : w'.disk.nextIno = w.disk.nextIno + 1 := congrArg FileChain.nextIno hchain
  have hfd : w'.file.fd = some w.disk.nextIno := congrArg FileChain.fd hchain
  -- the new file is none of those in use, in particular not the one the run began with
  have hnew : w₀.file.fd ≠ some w.disk.nextIno := by
    rw [← h.first]
    intro heq
    obtain ⟨s, hs, hino⟩ := List.mem_map.mp (List.mem_of_mem_head? heq)
    exact (h.used s hs).ne hino
  refine ⟨?_, ?_, ?_,
    List.forall_mem_append.mpr ⟨fun s hs => ?_, List.forall_mem_singleton.mpr ?_⟩, ?_, ?_,
    List.forall_mem_append.mpr ⟨fun s hs => ?_, List.forall_mem_singleton.mpr ?_⟩⟩
  · rw [hchain]
    exact ⟨h.linked.name, rfl, rfl⟩
  · have harchived : w'.archived = w.archived ++ w.chain.active.toList :=
      congrArg FileChain.archived hchain
    rw [harchived, h.linked.active, h.archived, List.map_append, List.append_assoc]
    rfl
  · rw [List.flatMap_append, h.parts]
    rfl
  · rw [hwrote.untouched (by omega) (h.used s hs) hfd (h.used s hs).ne]
    exact h.content s hs
  · -- all that the new file holds is the part
    rw [hwrote.data w.disk.nextIno (by omega), if_neg (lt_irrefl _), if_pos hfd,
      FileWorld.opened, if_neg hnew, List.flatten_singleton]
  · -- the first segment stays the first
    have hsome : w₀.file.fd.isSome := by
      rw [← h.first]
      simp
    obtain ⟨ino₀, hino₀⟩ := Option.isSome_iff_exists.mp hsome
    rw [List.map_append, List.head?_append, h.first, hino₀]
    rfl
  · rw [List.map_append]
    refine h.distinct.append (List.nodup_singleton _) ?_
    intro ino' hino hnew'
    obtain ⟨s, hs, rfl⟩ := List.mem_map.mp hino
    exact (h.used s hs).ne (List.mem_singleton.mp hnew')
  · rw [hnext]
    exact (h.used s hs).trans (Nat.lt_succ_self _)
  · rw [hnext]
    exact Nat.lt_succ_self _

/-- A call that writes all of its bytes adds them to one segment. -/
theorem Segmented.write (h : Segmented w₀ w parts closed active) {op : FileOp}
    (hop : op ≠ .reopen) (hok : FileOk w) (hreturns : Returns (op.exec libc) w 0 w') :
    ∃ closed' active', Segmented w₀ w' (parts ++ [op.bytes]) closed' active' := by
  obtain ⟨part, -, hall, htaken⟩ := (fileOp_exec_wrote hop hok hreturns).taken
  obtain rfl := hall rfl
  rcases hreturns.spec (fileOp_exec_chain op hop h.linked) rfl with hchain | hchain
  · exact ⟨_, _, h.append htaken.toFileWrote hchain⟩
  · exact ⟨_, _, h.rotate htaken.toFileWrote hchain⟩

/-- A synchronisation and a reopen keep the segments. -/
theorem Segmented.unturned (h : Segmented w₀ w parts closed active) {op : FileOp}
    (hop : op = .sync ∨ op = .reopen) (hok : FileOk w) {rc : ℤ}
    (hreturns : Returns (op.exec libc) w rc w') : Segmented w₀ w' parts closed active := by
  have hchain := hreturns.spec (fileOp_exec_unturned hop h.linked)
  refine h.same hchain ?_
  rcases hop with rfl | rfl
  · obtain ⟨part, hpart, -, htaken⟩ := (fileOp_exec_wrote (by rintro ⟨⟩) hok hreturns).taken
    obtain rfl := List.prefix_nil.mp hpart
    intro ino hino
    have hnext : w'.disk.nextIno = w.disk.nextIno := congrArg FileChain.nextIno hchain
    rw [htaken.data ino (hnext ▸ hino), if_pos hino, ite_self, List.append_nil]
  · exact (fileOp_exec_reopened hok hreturns).2.1

end Segments

end CLogger
