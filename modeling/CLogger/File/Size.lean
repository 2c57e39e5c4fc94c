import CLogger.File.Daily
import CLogger.File.Sealing

/-!
# Size accounting

`current_size` follows the size of the file behind the data descriptor, and `bytes_written` the
bytes that the kernel has taken, through short writes, failures, rotations that stop half way and
reopens. While a write is under way both lag behind by the bytes it has not accounted for yet.

* `Gauge`: the part of the state that the counters are about.
* `Sized pending`: the counters lag behind by `pending` bytes.
* `file_size_accounting`: between calls they do not lag, and the size limit is kept.
-/

namespace CLogger

open TapeProgram

/-- The number of bytes that the kernel took in an event. -/
def FileEvent.taken : FileEvent → ℕ
  | .write _ bytes => bytes.length
  | _ => 0

/-- The number of all bytes that the kernel has accepted. -/
def FileWorld.accepted (w : FileWorld) : ℕ := (w.trace.map FileEvent.taken).sum

theorem FileWorld.accepted_note (w : FileWorld) (e : FileEvent) :
    (w.note e).accepted = w.accepted + e.taken := by
  simp [FileWorld.accepted, FileWorld.note]

/-- The content behind the data descriptor. -/
def FileWorld.content (w : FileWorld) : List UInt8 :=
  match w.file.fd with
  | none => []
  | some ino => w.disk.data ino

/-- What the counters are about: the disk, the fields except the mark of the directory, the bytes
counted, the bytes accepted, and those accepted from the current call. -/
@[ext]
structure Gauge where
  disk : Disk
  file : LoggerFile
  bytesWritten : UInt64
  accepted : ℕ
  taken : ℕ

/-- The gauge of a state. -/
def FileWorld.gauge (w : FileWorld) : Gauge where
  disk := w.disk
  file := { w.file with dirDirty := false }
  bytesWritten := w.metrics.bytesWritten
  accepted := w.accepted
  taken := w.history.taken

/-- The content behind the data descriptor. -/
def Gauge.content (g : Gauge) : List UInt8 :=
  match g.file.fd with
  | none => []
  | some ino => g.disk.data ino

/-- The counters lag behind by the `pending` bytes of a write under way. -/
structure Sized (pending : ℕ) (g : Gauge) : Prop where
  managed : g.file.binding.managed = true
  limit : g.file.binding.maxFileSize ≤ sizeMax
  fd : ∀ ino, g.file.fd = some ino → ino < g.disk.nextIno
  active : ∀ ino, g.disk.dir g.file.binding.name = some ino → ino < g.disk.nextIno
  pending_le : pending ≤ g.taken ∧ pending ≤ g.content.length ∧ pending ≤ g.accepted
  size : g.file.currentSize = min sizeMax (g.content.length - pending)
  bytes : g.bytesWritten.toNat = min (2 ^ 64 - 1) (g.accepted - pending)

/-- At every moment the counters lag behind by at most what the current call has written. -/
def Gauged (w : FileWorld) : Prop := ∃ pending, Sized pending w.gauge

instance : Unsynced FileWorld.gauge where
  metrics _ _ hm := Gauge.ext rfl rfl hm rfl rfl
  dirDirty _ _ := rfl
  fsync w _ := Gauge.ext rfl rfl rfl (w.accepted_note _) rfl
  fsyncDir w := Gauge.ext rfl rfl rfl (w.accepted_note _) rfl

section

variable {libc : Libc} {w w' : FileWorld} {pending : ℕ} {g g' : Gauge} {α β : Type}

/-- Passing a function that leaves the gauge alone. -/
theorem sized_bind {P : α → Prop} {m : FileProg α} {f : α → FileProg β}
    {Q : β → FileWorld → Prop} (hm : Keeps FileWorld.gauge P m) (h : Sized pending w.gauge)
    (hf : ∀ a w', P a → w'.gauge = w.gauge → wp Gauged (f a) Q w') :
    wp Gauged (m >>= f) Q w := by
  refine wp_bind (wp_of_keeps hm (fun w' hw' => ⟨pending, hw' ▸ h⟩) (fun _ _ => trivial) ?_)
  exact fun a w' ha hw' => hf a w' ha hw'

/-- Passing a function that leaves the gauge alone at the end. -/
theorem sized_pass {P : α → Prop} {m : FileProg α} {Q : α → FileWorld → Prop}
    (hm : Keeps FileWorld.gauge P m) (h : Sized pending w.gauge)
    (hQ : ∀ a w', P a → w'.gauge = w.gauge → Q a w') : wp Gauged m Q w :=
  wp_of_keeps hm (fun _ hw' => ⟨pending, hw' ▸ h⟩) (fun _ _ => trivial) hQ

/-- The disk has changed, but not the content of the files in use. -/
theorem Sized.of_disk (h : Sized pending g) {d : Disk} (hnext : g.disk.nextIno ≤ d.nextIno)
    (hdata : ∀ ino, ino < g.disk.nextIno → d.data ino = g.disk.data ino)
    (hactive : ∀ ino, d.dir g.file.binding.name = some ino → ino < d.nextIno) :
    Sized pending { g with disk := d } := by
  have hcontent : Gauge.content { g with disk := d } = g.content := by
    unfold Gauge.content
    cases hfd : g.file.fd with
    | none => rfl
    | some ino => exact hdata ino (h.fd ino hfd)
  have hle := h.pending_le
  have hsize := h.size
  rw [← hcontent] at hle hsize
  exact ⟨h.managed, h.limit, fun ino hino => (h.fd ino hino).trans_le hnext, hactive, hle, hsize,
    h.bytes⟩

/-- A change of the disk is noted as an event that writes nothing. -/
theorem Sized.noted {d : Disk} (h : Sized pending { w.gauge with disk := d }) {e : FileEvent}
    (he : e.taken = 0) (history : History) (htaken : history.taken = w.history.taken) :
    Sized pending (FileWorld.gauge { w.note e with disk := d, history := history }) := by
  have haccepted := w.accepted_note e
  rw [he] at haccepted
  rw [show FileWorld.gauge { w.note e with disk := d, history := history } =
    { w.gauge with disk := d } from Gauge.ext rfl rfl rfl haccepted htaken]
  exact h

/-! ## Opening the active file -/

/-- Opening fails and does nothing, finds the active file, or creates it. -/
theorem openAnswer_cases (w : FileWorld) (create exclusive : Bool) (a : Answer) :
    (∃ e, w.openAnswer create exclusive a = (.error e, w)) ∨
    (∃ ino, w.active = some ino ∧ exclusive = false ∧
      w.openAnswer create exclusive a = (.ok ino, w)) ∨
    w.active = none ∧ ∃ r, w.openAnswer create exclusive a =
      (r, { w.note (.create w.disk.nextIno) with disk := w.disk.create w.file.binding.name }) ∧
      ∀ ino, r = .ok ino → ino = w.disk.nextIno := by
  unfold FileWorld.openAnswer
  cases hdir : w.disk.dir w.file.binding.name with
  | some ino =>
    cases a.ok with
    | false => exact .inl ⟨_, rfl⟩
    | true =>
      cases exclusive with
      | false => exact .inr (.inl ⟨ino, hdir, rfl, rfl⟩)
      | true => exact .inl ⟨_, rfl⟩
  | none =>
    cases create with
    | false => exact .inl ⟨_, rfl⟩
    | true =>
      cases a.ok with
      | true => exact .inr (.inr ⟨hdir, _, rfl, fun ino hino => (Except.ok.inj hino).symm⟩)
      | false =>
        cases a.created with
        | false => exact .inl ⟨_, rfl⟩
        | true => exact .inr (.inr ⟨hdir, _, rfl, nofun⟩)

/-- A file opened from a state of the gauge: what is known of its inode. -/
structure Candidate (g : Gauge) (exclusive : Bool) (fd : ℕ) : Prop where
  used : fd < g.disk.nextIno
  empty : exclusive = true → g.disk.data fd = []

/-- The creation of the active file does not touch the files in use. -/
theorem Sized.create (h : Sized pending w.gauge) :
    Sized pending (FileWorld.gauge { w.note (.create w.disk.nextIno) with
      disk := w.disk.create w.file.binding.name }) := by
  have hcreated := h.of_disk (d := w.disk.create w.file.binding.name) (Nat.le_succ _)
    (fun ino hino => Function.update_of_ne (Nat.ne_of_lt hino) _ _) fun ino hino => by
      have hsome := Disk.dir_create_self.symm.trans hino
      rw [← Option.some.inj hsome]
      exact Nat.lt_succ_self _
  exact hcreated.noted rfl w.history rfl

theorem openActive_sized (h : Sized 0 w.gauge) (create exclusive : Bool) :
    wp Gauged (openActive create exclusive) (fun r w' => Sized 0 w'.gauge ∧
      w'.gauge.file = w.gauge.file ∧ ∀ fd, r = .ok fd → Candidate w'.gauge exclusive fd) w := by
  refine wp_ask ⟨0, h⟩ fun a => ?_
  rcases openAnswer_cases w create exclusive a with
    ⟨e, hanswer⟩ | ⟨ino, hactive, hexclusive, hanswer⟩ | ⟨hnone, r, hanswer, hino⟩
  · rw [hanswer]
    exact ⟨h, rfl, nofun⟩
  · rw [hanswer]
    refine ⟨h, rfl, fun fd hfd => ?_⟩
    obtain rfl := Except.ok.inj hfd
    exact ⟨h.active ino hactive, fun hexcl => absurd (hexclusive.symm.trans hexcl) nofun⟩
  · rw [hanswer]
    refine ⟨h.create, rfl, fun fd hfd => ?_⟩
    rw [hino fd hfd]
    exact ⟨Nat.lt_succ_self _, fun _ => Function.update_self _ _ _⟩

/-- The status that a successful check returns is the one of the descriptor. -/
theorem checkNamedFd_size {C D : FileWorld → Prop} (hC : C w) (hD : D w) (name : CString) (fd : ℕ) :
    Safe C D (checkNamedFd name (some fd)) (fun r w' => w' = w ∧
      ∀ st, r = .ok st → st.size = (w.disk.data fd).length) w := by
  refine wp_bind (Safe.ask hC (fun a => ?_) fun _ => hD)
  cases a.ok with
  | false => exact wp_pure ⟨rfl, nofun⟩
  | true =>
    refine wp_bind (wp_of_keeps (π := id) (fstatat_keeps name) ?_ ?_ ?_)
    · rintro w' rfl
      exact hC
    · rintro w' rfl
      exact hD
    rintro (e | named) w' - rfl
    · exact wp_pure ⟨rfl, nofun⟩
    · refine wp_ite (fun _ => wp_pure ⟨rfl, nofun⟩) fun _ => wp_ite (fun _ => wp_pure ⟨rfl, ?_⟩)
        fun _ => wp_pure ⟨rfl, nofun⟩
      intro st hst
      rw [← Except.ok.inj hst]
      rfl

theorem size_le_of_regularSingleLink {st : Stat} (h : regularSingleLink st = 0) :
    st.size ≤ sizeMax := by
  unfold regularSingleLink at h
  split_ifs at h with hkind hlink hsize
  · exact absurd h (by decide)
  · exact absurd h (by decide)
  · exact absurd h (by decide)
  · exact not_lt.mp fun hlt => hsize (.inr hlt)

/-- A candidate is a file in use, with its size as its status, and empty if it had to be new. -/
theorem openCandidate_sized (h : Sized 0 w.gauge) (exclusive : Bool) :
    wp Gauged (openCandidate exclusive) (fun r w' => Sized 0 w'.gauge ∧
      w'.gauge.file = w.gauge.file ∧ ∀ fd st, r = .ok (fd, st) →
        Candidate w'.gauge exclusive fd ∧ st.size = (w'.disk.data fd).length ∧
        st.size ≤ sizeMax) w := by
  refine sized_bind checkOwner_keeps h fun rc w₁ _ h₁ => ?_
  rw [← h₁] at h ⊢
  refine wp_ite (fun _ => wp_pure ⟨h, rfl, nofun⟩) fun _ => wp_getFile_bind ?_
  refine wp_bind (wp_mono (openActive_sized h _ _) ?_)
  rintro (e | fd) w₂ ⟨h₂, hfile, hcandidate⟩
  · exact wp_pure ⟨h₂, hfile, nofun⟩
  rw [← hfile]
  refine wp_bind (wp_mono (checkNamedFd_size ⟨0, h₂⟩ trivial _ _) ?_)
  rintro (rc | st) w₃ ⟨rfl, hsize⟩
  · refine sized_bind (loggerFdCloseStatus_keeps _) h₂ fun _ w₄ _ h₄ => wp_pure ?_
    rw [← h₄] at h₂ ⊢
    exact ⟨h₂, rfl, nofun⟩
  have hmanaged : w₁.file.binding.managed = true := h.managed
  dsimp only
  rw [if_pos hmanaged]
  refine wp_ite (fun _ => ?_) fun hlink => ?_
  · refine sized_bind (loggerFdCloseStatus_keeps _) h₂ fun _ w₄ _ h₄ => wp_pure ?_
    rw [← h₄] at h₂ ⊢
    exact ⟨h₂, rfl, nofun⟩
  · refine wp_bind (wp_modify (wp_pure ⟨h₂, rfl, fun fd' st' hok => ?_⟩))
    obtain ⟨rfl, rfl⟩ := Prod.mk.inj (Except.ok.inj hok)
    exact ⟨hcandidate fd rfl, hsize st rfl, size_le_of_regularSingleLink (not_not.mp hlink)⟩

/-- The installation of a file with its size. -/
theorem Sized.install (h : Sized 0 w.gauge) {exclusive : Bool} {fd : ℕ} {st : Stat}
    (hcandidate : Candidate w.gauge exclusive fd) (hsize : st.size = (w.disk.data fd).length)
    (hle : st.size ≤ sizeMax) (day : ℤ) {g : Gauge}
    (hg : g = { w.gauge with file := { w.gauge.file with
      fd := some fd, device := st.dev, inode := st.ino, currentSize := st.size.toNat
      currentDay := day, detached := false, switchError := 0 } }) : Sized 0 g := by
  have hlength : (w.disk.data fd).length ≤ sizeMax := by
    rw [hsize] at hle
    exact_mod_cast hle
  rw [hg]
  refine ⟨h.managed, h.limit, fun ino hino => ?_, h.active, ?_, ?_, h.bytes⟩
  · obtain rfl := Option.some.inj hino
    exact hcandidate.used
  · exact ⟨Nat.zero_le _, Nat.zero_le _, Nat.zero_le _⟩
  · show st.size.toNat = min sizeMax ((w.disk.data fd).length - 0)
    rw [hsize, Int.toNat_natCast, Nat.sub_zero, min_eq_right hlength]

theorem installFd_sized (h : Sized 0 w.gauge) {exclusive : Bool} {fd : ℕ} {st : Stat} (day : ℤ)
    (hcandidate : Candidate w.gauge exclusive fd) (hsize : st.size = (w.disk.data fd).length)
    (hle : st.size ≤ sizeMax) :
    wp Gauged (installFd fd st day) (fun _ w' => Sized 0 w'.gauge ∧
      w'.file.detached = false ∧ (exclusive = true → w'.gauge.content = [])) w := by
  refine wp_modify ⟨h.install hcandidate hsize hle day ?_, rfl, hcandidate.empty⟩
  refine Gauge.ext rfl ?_ rfl (w.accepted_note _) rfl
  have hmanaged : w.file.binding.managed = true := h.managed
  show LoggerFile.mk _ _ _ _ _ (if w.file.binding.managed then _ else _) _ _ _ _ _ _ = _
  rw [if_pos hmanaged]
  rfl

/-! ## Rotation -/

/-- Entries may be moved or removed: the files behind them stay. -/
theorem Sized.of_dir (h : Sized pending g) {d : Disk} (hnext : d.nextIno = g.disk.nextIno)
    (hdata : d.data = g.disk.data) (hactive : d.dir g.file.binding.name = none ∨
      d.dir g.file.binding.name = g.disk.dir g.file.binding.name) :
    Sized pending { g with disk := d } := by
  refine h.of_disk hnext.ge (fun ino _ => congrFun hdata ino) fun ino hino => ?_
  rcases hactive with hnone | hsame
  · exact absurd (hnone.symm.trans hino) nofun
  · rw [hnext]
    exact h.active ino (hsame.symm.trans hino)

theorem archiveRename_sized (n : ℕ) (t : Timespec) (h : Sized 0 w.gauge) :
    wp Gauged (archiveRename libc n t) (fun _ w' => Sized 0 w'.gauge) w := by
  induction n generalizing t w with
  | zero => exact wp_pure h
  | succ n ih =>
    refine sized_bind (archiveName_keeps t) h fun r w₁ _ h₁ => ?_
    rw [← h₁] at h
    cases r with
    | error rc => exact wp_pure h
    | ok name =>
      refine wp_bind (wp_ask ⟨0, h⟩ fun a => ?_)
      rcases renameAnswer_cases w₁ name a with ⟨e, -, hanswer⟩ | ⟨ino, -, -, hanswer⟩
      · rw [hanswer]
        refine wp_ite (fun _ => wp_pure h) fun _ => ?_
        refine sized_bind (advanceMicrosecond_keeps t) h fun r w₂ _ h₂ => ?_
        rw [← h₂] at h
        cases r with
        | error rc => exact wp_pure h
        | ok t' => exact ih t' h
      · rw [hanswer]
        have hrenamed := h.of_dir (d := w₁.disk.rename w₁.file.binding.name name) rfl rfl
          (.inl (Function.update_self _ _ _))
        exact wp_pure (hrenamed.noted rfl _ rfl)

/-- Assignments to fields that the counters are not about. -/
theorem Sized.of_file (h : Sized pending g) {f : LoggerFile} (hbinding : f.binding = g.file.binding)
    (hfd : f.fd = g.file.fd) (hsize : f.currentSize = g.file.currentSize) :
    Sized pending { g with file := f } := by
  have hcontent : Gauge.content { g with file := f } = g.content := by
    show (match f.fd with | none => [] | some ino => g.disk.data ino) = g.content
    rw [hfd]
    rfl
  have hle := h.pending_le
  have hcurrent := h.size
  rw [← hcontent] at hle hcurrent
  refine ⟨hbinding ▸ h.managed, hbinding ▸ h.limit, fun ino hino => h.fd ino (hfd ▸ hino), ?_, hle,
    hsize.trans hcurrent, h.bytes⟩
  intro ino hino
  rw [hbinding] at hino
  exact h.active ino hino

theorem failSwitch_sized (candidate : Option ℕ) {rc : ℤ} (hrc : rc ≠ 0) (h : Sized 0 w.gauge) :
    wp Gauged (failSwitch candidate rc) (fun rc' w' => Sized 0 w'.gauge ∧ rc' ≠ 0) w := by
  refine sized_bind (loggerFdCloseStatus_keeps candidate) h fun _ w₁ _ h₁ => ?_
  rw [← h₁] at h
  refine wp_bind (wp_modify (wp_pure ⟨?_, hrc⟩))
  exact h.of_file (f := { w₁.gauge.file with switchError := -rc }) rfl rfl rfl

/-- The deletion of archives leaves the files behind the entries alone. -/
structure Pruned (w w' : FileWorld) : Prop where
  sized : Sized 0 w'.gauge
  file : w'.gauge.file = w.gauge.file
  content : w'.gauge.content = w.gauge.content

theorem Pruned.of_gauge (h : Sized 0 w.gauge) (hw : w'.gauge = w.gauge) : Pruned w w' := by
  refine ⟨?_, ?_, ?_⟩ <;> rw [hw]
  exact h

theorem Pruned.trans {w'' : FileWorld} (h : Pruned w w') (h' : Pruned w' w'') : Pruned w w'' :=
  ⟨h'.sized, h'.file.trans h.file, h'.content.trans h.content⟩

theorem unlinkat_pruned (name : CString) (h : Sized 0 w.gauge) :
    wp Gauged (unlinkat name) (fun _ w' => Pruned w w') w := by
  refine wp_ask ⟨0, h⟩ fun a => ?_
  unfold FileWorld.unlinkAnswer
  cases a.ok with
  | false => exact .of_gauge h rfl
  | true =>
    cases (w.disk.dir name).isSome with
    | false => exact .of_gauge h rfl
    | true =>
      have hunlinked := h.of_dir (d := w.disk.unlink name) rfl rfl (by
        by_cases hname : w.file.binding.name = name
        · exact .inl (by rw [← hname]; exact Function.update_self _ _ _)
        · exact .inr (Function.update_of_ne hname _ _))
      exact ⟨hunlinked.noted rfl w.history rfl, rfl, rfl⟩

theorem retentionStep_pruned (now : ℤ) (changed : Bool) (h : Sized 0 w.gauge) :
    wp Gauged (retentionStep now changed) (fun _ w' => Pruned w w') w := by
  refine wp_getFile_bind (sized_bind call_keeps h fun a w₁ _ h₁ => ?_)
  have hpruned : Pruned w w₁ := .of_gauge h h₁
  cases a.entry with
  | none => exact wp_pure hpruned
  | some name =>
    refine wp_ite (fun _ => wp_pure hpruned) fun _ => ?_
    refine sized_bind (fstatat_keeps name) hpruned.sized fun r w₂ _ h₂ => ?_
    have hpruned₂ := hpruned.trans (.of_gauge hpruned.sized h₂)
    cases r with
    | error e => exact wp_pure hpruned₂
    | ok st =>
      refine wp_ite (fun _ => wp_pure hpruned₂) fun _ => wp_ite (fun _ => wp_pure hpruned₂)
        fun _ => ?_
      refine wp_bind (wp_mono (unlinkat_pruned name hpruned₂.sized) ?_)
      rintro (e | _) w₃ h₃
      · exact wp_pure (hpruned₂.trans h₃)
      · refine sized_bind (countMetrics_unsynced fun _ => rfl) h₃.sized fun _ w₄ _ h₄ => wp_pure ?_
        exact (hpruned₂.trans h₃).trans (.of_gauge h₃.sized h₄)

theorem retention_pruned (now : ℤ) (h : Sized 0 w.gauge) :
    wp Gauged (retention now) (fun _ w' => Pruned w w') w := by
  refine wp_getFile_bind (wp_ite (fun _ => wp_pure (.of_gauge h rfl)) fun _ => ?_)
  refine sized_bind call_keeps h fun dir w₁ _ h₁ => ?_
  have hpruned₁ : Pruned w w₁ := .of_gauge h h₁
  refine wp_ite (fun _ => wp_pure hpruned₁) fun _ => ?_
  refine sized_bind call_keeps hpruned₁.sized fun scan w₂ _ h₂ => ?_
  have hpruned₂ := hpruned₁.trans (.of_gauge hpruned₁.sized h₂)
  refine wp_ite (fun _ => ?_) fun _ => ?_
  · refine sized_bind call_keeps hpruned₂.sized fun _ w₃ _ h₃ => wp_pure ?_
    exact hpruned₂.trans (.of_gauge hpruned₂.sized h₃)
  have hloop : wp Gauged (Prog.iterate (retentionStep now) false) (fun _ w' => Pruned w w') w₂ := by
    refine wp_iterate (fun _ w' => Pruned w w') (fun _ w' h' => ⟨0, h'.sized⟩) ?_ hpruned₂
    intro changed w' h'
    refine wp_mono (retentionStep_pruned now changed h'.sized) ?_
    rintro (changed | result) w'' h''
    · exact h'.trans h''
    · exact h'.trans h''
  refine wp_bind (wp_mono hloop fun r w₃ hpruned₃ => ?_)
  refine sized_bind call_keeps hpruned₃.sized fun closed w₄ _ h₄ => ?_
  have hpruned₄ := hpruned₃.trans (.of_gauge hpruned₃.sized h₄)
  refine wp_ite (fun _ => ?_) fun _ => wp_pure hpruned₄
  refine wp_bind
    (wp_modify (sized_bind syncDirectory_keeps hpruned₄.sized fun synced w₅ _ h₅ => ?_))
  exact wp_pure (hpruned₄.trans (.of_gauge hpruned₄.sized h₅))

/-- What holds after a rotation, complete or not: the counters are right, and a rotation that has
succeeded has left a new file behind the descriptor. -/
structure RotationSized (rc : ℤ) (w : FileWorld) : Prop where
  sized : Sized 0 w.gauge
  fresh : rc = 0 → w.gauge.content = [] ∧ w.gauge.file.detached = false

theorem RotationSized.failed {rc : ℤ} (h : Sized 0 w.gauge) (hrc : rc ≠ 0) : RotationSized rc w :=
  ⟨h, fun hzero => absurd hzero hrc⟩

theorem switchActive_sized (t : Timespec) (h : Sized 0 w.gauge) :
    wp Gauged (switchActive libc t) (fun rc w' => RotationSized rc w') w := by
  -- a switch that fails keeps the gauge and reports an error
  have hfail {candidate : Option ℕ} {rc : ℤ} {w₁ : FileWorld} (hrc : rc ≠ 0)
      (h₁ : Sized 0 w₁.gauge) :
      wp Gauged (failSwitch candidate rc) (fun rc w' => RotationSized rc w') w₁ :=
    wp_mono (failSwitch_sized candidate hrc h₁) fun rc' w' h' => .failed h'.1 h'.2
  refine sized_bind syncDirectory_keeps h fun rc w₁ _ h₁ => ?_
  rw [← h₁] at h
  refine wp_ite (fun hrc => hfail hrc h) fun _ => ?_
  refine sized_bind (wallDay_keeps t.sec) h fun r w₂ hr h₂ => ?_
  rw [← h₂] at h
  cases r with
  | error rc => exact hfail (hr rc rfl).ne h
  | ok day =>
    -- the candidate is sized by its `fstat`
    refine wp_bind (wp_mono ((openCandidate_sized h true).and_keeps (openCandidate_turn true)) ?_)
    rintro (rc | ⟨fd, st⟩) w₃ ⟨⟨h₃, -, hcandidate⟩, hfailing⟩
    · exact hfail (hfailing rc rfl).ne h₃
    obtain ⟨hcandidate, hsize, hle⟩ := hcandidate fd st rfl
    refine sized_bind (syncData_keeps _) h₃ fun rc w₄ _ h₄ => ?_
    refine wp_ite (fun hrc => hfail hrc (h₄ ▸ h₃)) fun _ => ?_
    refine sized_bind syncDirectory_keeps (h₄ ▸ h₃) fun rc w₅ _ h₅ => ?_
    have hgauge : w₅.gauge = w₃.gauge := h₅.trans h₄
    refine wp_ite (fun hrc => hfail hrc (hgauge ▸ h₃)) fun _ => wp_getFile_bind ?_
    have hdisk : w₅.disk = w₃.disk := congrArg Gauge.disk hgauge
    -- its size is still the one read, for the synchronisations write nothing
    rw [← hdisk] at hsize
    refine wp_bind (wp_mono (installFd_sized (hgauge ▸ h₃) day (hgauge ▸ hcandidate) hsize hle) ?_)
    rintro _ w₆ ⟨h₆, hattached, hempty⟩
    refine sized_bind (loggerFdCloseStatus_keeps _) h₆ fun rc w₇ _ h₇ => ?_
    rw [← h₇] at h₆ hempty
    have hattached₇ : w₇.gauge.file.detached = false := by
      rw [h₇]
      exact hattached
    -- the switch is done, and a failed close still counts as an error
    refine wp_ite (fun hrc => wp_pure (.failed h₆ hrc)) fun _ => ?_
    -- retention leaves the content and the descriptor alone
    refine wp_mono (retention_pruned t.sec h₆) fun rc w₈ h₈ => ⟨h₈.sized, fun _ => ?_⟩
    rw [h₈.content, h₈.file]
    exact ⟨hempty rfl, hattached₇⟩

theorem rotateImpl_sized (h : Sized 0 w.gauge) :
    wp Gauged (rotateImpl libc) (fun rc w' => RotationSized rc w') w := by
  refine sized_bind checkActive_keeps h fun rc w₁ _ h₁ => ?_
  rw [← h₁] at h
  refine wp_ite (fun hrc => wp_pure (.failed h hrc)) fun _ => ?_
  refine sized_bind call_keeps h fun clock w₂ _ h₂ => ?_
  rw [← h₂] at h
  refine wp_ite (fun _ => wp_pure (.failed h clock.neg_errno_neg.ne)) fun _ => ?_
  refine sized_bind (timestampValid_keeps _) h fun valid w₃ _ h₃ => ?_
  rw [← h₃] at h
  refine wp_ite (fun _ => wp_pure (.failed h (by decide))) fun _ => ?_
  refine sized_bind (archiveStart_keeps _) h fun r w₄ hr h₄ => ?_
  rw [← h₄] at h
  cases r with
  | error rc => exact wp_pure (.failed h (hr rc rfl).ne)
  | ok start =>
    refine sized_bind loggerFileSync_keeps h fun rc w₅ _ h₅ => ?_
    rw [← h₅] at h
    refine wp_ite (fun hrc => wp_pure (.failed h hrc)) fun _ => ?_
    have hrename : wp Gauged (archiveRename libc loggerArchiveAttempts start)
        (fun r w' => Sized 0 w'.gauge ∧ Failing r) w₅ :=
      (archiveRename_sized _ start h).and_keeps (archiveRename_failing _ start)
    refine wp_bind (wp_mono hrename ?_)
    rintro (rc | t) w₆ ⟨h₆, hfailing⟩
    · exact wp_pure (.failed h₆ (hfailing rc rfl).ne)
    · refine wp_bind (wp_modify (switchActive_sized t ?_))
      exact h₆.of_file (f := { w₆.gauge.file with
        detached := true, switchError := eio, archiveTime := t, archiveTimeValid := true })
        rfl rfl rfl

theorem rotate_sized (h : Sized 0 w.gauge) :
    wp Gauged (rotate libc) (fun rc w' => RotationSized rc w') w := by
  refine sized_bind (countMetrics_unsynced fun _ => rfl) h fun _ w₁ _ h₁ => ?_
  rw [← h₁] at h
  refine wp_bind (wp_mono (rotateImpl_sized h) fun rc w₂ h₂ => ?_)
  refine wp_ite (fun hrc => ?_) fun _ => ?_
  · refine sized_bind (countMetrics_unsynced fun _ => rfl) h₂.sized fun _ w₃ _ h₃ => wp_pure ?_
    exact .failed (h₃ ▸ h₂.sized) hrc
  · refine sized_bind (countMetrics_unsynced fun _ => rfl) h₂.sized fun _ w₃ _ h₃ => wp_pure ?_
    exact ⟨h₃ ▸ h₂.sized, h₃ ▸ h₂.fresh⟩

/-! ## Writing -/

/-- What holds when `prepare_write` has returned: a write of `n` bytes that it lets through goes to
a new file, or does not exceed the size limit. -/
structure Prepared (n : ℕ) (rc : ℤ) (w w' : FileWorld) : Prop where
  sized : Sized 0 w'.gauge
  attached : rc = 0 → w'.gauge.file.detached = false
  room : rc = 0 → n ≠ 0 → w'.gauge.content = [] ∨
    w'.gauge = w.gauge ∧ w.file.sizeExceeded n = false

theorem Prepared.failed {n : ℕ} {rc : ℤ} (h : Sized 0 w'.gauge) (hrc : rc ≠ 0) :
    Prepared n rc w w' := ⟨h, fun hzero => absurd hzero hrc, fun hzero => absurd hzero hrc⟩

theorem RotationSized.prepared {n : ℕ} {rc : ℤ} (h : RotationSized rc w') : Prepared n rc w w' :=
  ⟨h.sized, fun hzero => (h.fresh hzero).2, fun hzero _ => .inl (h.fresh hzero).1⟩

theorem sizeExceeded_of_not_internalRotation {f : LoggerFile}
    (h : f.binding.internalRotation = false) (n : ℕ) : f.sizeExceeded n = false := by
  unfold FileBinding.internalRotation at h
  unfold LoggerFile.sizeExceeded
  rw [decide_eq_false_iff_not] at h ⊢
  rintro ⟨hsize | hsizeDaily, -⟩
  · exact h (.inl hsize)
  · exact h (.inr (.inr hsizeDaily))

theorem prepareWrite_sized (n : ℕ) (t : Option Timespec) (h : Sized 0 w.gauge) :
    wp Gauged (prepareWrite libc n t) (fun rc w' => Prepared n rc w w') w := by
  have hrotate : wp Gauged (rotate libc) (fun rc w' => Prepared n rc w w') w :=
    wp_mono (rotate_sized h) fun rc w' h' => h'.prepared
  refine wp_getFile_bind (wp_ite (fun _ => wp_pure (.failed h (by decide))) fun _ => ?_)
  cases t with
  | none => exact wp_pure (.failed h (by decide))
  | some t =>
    refine wp_ite (fun _ => wp_pure (.failed h (by decide))) fun _ => ?_
    refine wp_ite (fun _ => wp_pure (.failed h w.file.detachedError_ne_zero)) fun hdetached => ?_
    have hattached : w.gauge.file.detached = false := Bool.eq_false_iff.mpr hdetached
    refine wp_ite (fun hnone => wp_pure ⟨h, fun _ => hattached, fun _ hn => .inr ⟨rfl, ?_⟩⟩)
      fun _ => ?_
    · have hmode := hnone.resolve_right hn
      rw [Bool.not_eq_true'] at hmode
      exact sizeExceeded_of_not_internalRotation hmode n
    refine wp_ite (fun _ => ?_) fun _ => ?_
    · refine sized_bind (wallDay_keeps t.sec) h fun r w₁ hr h₁ => ?_
      cases r with
      | error rc => exact wp_pure (.failed (h₁ ▸ h) (hr rc rfl).ne)
      | ok day =>
        refine wp_ite (fun _ => ?_) fun hsmall => wp_pure ?_
        · exact wp_mono (rotate_sized (h₁ ▸ h)) fun rc w' h' => h'.prepared
        · refine ⟨h₁ ▸ h, fun _ => h₁ ▸ hattached, fun _ _ => .inr ⟨h₁, ?_⟩⟩
          exact Bool.eq_false_iff.mpr fun hexceeded => hsmall (.inl hexceeded)
    · refine wp_ite (fun _ => hrotate) fun hsmall => wp_pure ?_
      exact ⟨h, fun _ => hattached, fun _ _ => .inr ⟨rfl, Bool.eq_false_iff.mpr hsmall⟩⟩

/-- A write loop through the descriptor of `f` is under way: `written` of the `bytes` have been
appended to the content that was there, and `rest` are the others. -/
structure Appending (f : LoggerFile) (base bytes rest : List UInt8) (written : ℕ) (w : FileWorld) :
    Prop where
  sized : Sized written w.gauge
  file : w.gauge.file = f
  content : w.gauge.content = base ++ bytes.take written
  rest : rest = bytes.drop written

/-- What a write loop leaves: a first part of the bytes, or all of them when it succeeds. -/
structure Appended (f : LoggerFile) (base bytes : List UInt8) (r : ℤ × ℕ) (w : FileWorld) :
    Prop where
  sized : Sized r.2 w.gauge
  file : w.gauge.file = f
  content : w.gauge.content = base ++ bytes.take r.2
  complete : r.1 = 0 → bytes.length ≤ r.2

variable {f : LoggerFile} {base bytes rest : List UInt8} {written : ℕ}

theorem Appending.of_gauge (h : Appending f base bytes rest written w) (hw : w'.gauge = w.gauge) :
    Appending f base bytes rest written w' := by
  refine ⟨?_, ?_, ?_, h.rest⟩ <;> rw [hw]
  · exact h.sized
  · exact h.file
  · exact h.content

/-- The gauge after the kernel has appended bytes to an inode. -/
def Gauge.append (g : Gauge) (ino : ℕ) (taken : List UInt8) : Gauge :=
  { g with
    disk := g.disk.append ino taken
    accepted := g.accepted + taken.length
    taken := g.taken + taken.length }

theorem Gauge.content_append {ino : ℕ} (hfd : g.file.fd = some ino) (taken : List UInt8) :
    (g.append ino taken).content = g.content ++ taken := by
  simp only [Gauge.content, Gauge.append, hfd, Disk.append, Function.update_self]

theorem Sized.append {ino : ℕ} (h : Sized pending g) (hfd : g.file.fd = some ino)
    (taken : List UInt8) : Sized (pending + taken.length) (g.append ino taken) := by
  have hcontent := Gauge.content_append hfd taken
  obtain ⟨htaken, hlength, haccepted⟩ := h.pending_le
  refine ⟨h.managed, h.limit, h.fd, h.active, ⟨?_, ?_, ?_⟩, ?_, ?_⟩
  · exact Nat.add_le_add_right htaken _
  · rw [hcontent, List.length_append]
    exact Nat.add_le_add_right hlength _
  · exact Nat.add_le_add_right haccepted _
  · rw [hcontent, List.length_append, Nat.add_sub_add_right]
    exact h.size
  · show g.bytesWritten.toNat = min _ (g.accepted + taken.length - (pending + taken.length))
    rw [Nat.add_sub_add_right]
    exact h.bytes

/-- The kernel has taken the next `k` bytes. -/
theorem Appending.append {ino k : ℕ} {taken : List UInt8}
    (h : Appending f base bytes rest written w) (hfd : w.gauge.file.fd = some ino)
    (hgauge : w'.gauge = w.gauge.append ino taken) (htaken : taken = rest.take k)
    (hk : taken.length = k) : Appending f base bytes (rest.drop k) (written + k) w' := by
  refine ⟨?_, ?_, ?_, ?_⟩
  · rw [hgauge, ← hk]
    exact h.sized.append hfd taken
  · rw [hgauge]
    exact h.file
  · rw [hgauge, Gauge.content_append hfd, h.content, htaken, h.rest, List.append_assoc,
      List.take_add]
  · rw [h.rest, List.drop_drop]

/-- A write call appends a first part of what it is offered. -/
theorem writeCall_appending {offered : List UInt8} (h : Appending f base bytes rest written w)
    (hoffered : offered <+: rest) :
    wp Gauged (writeCall f.fd offered) (fun r w' => match r with
      | .error _ => Appending f base bytes rest written w'
      | .ok k => Appending f base bytes (rest.drop k) (written + k) w') w := by
  refine wp_ask ⟨_, h.sized⟩ fun a => ?_
  unfold FileWorld.writeAnswer
  -- without a descriptor the call is not made
  cases hfd : f.fd with
  | none => exact h
  | some ino =>
    cases a.ok with
    | false =>
      -- a call that fails writes nothing
      have hgauge : FileWorld.gauge (w.note (.write ino [])) = w.gauge :=
        Gauge.ext rfl rfl rfl (w.accepted_note _) rfl
      exact h.of_gauge hgauge
    | true =>
      -- the bytes taken are the next ones of the caller's
      have htaken : offered.take a.count = rest.take (min a.count offered.length) := by
        obtain ⟨tail, rfl⟩ := hoffered
        rw [← List.take_take, List.take_append_of_le_length le_rfl, List.take_length]
      have hfd' : w.gauge.file.fd = some ino := by
        rw [h.file]
        exact hfd
      -- the disk and the count of what was taken grow together
      have hgauge : FileWorld.gauge { w.note (.write ino (offered.take a.count)) with
          disk := w.disk.append ino (offered.take a.count)
          history := { w.history with taken := w.history.taken + min a.count offered.length } } =
          w.gauge.append ino (offered.take a.count) := by
        refine Gauge.ext rfl rfl rfl (w.accepted_note _) ?_
        show w.history.taken + min a.count offered.length = w.history.taken + _
        rw [List.length_take]
      exact h.append hfd' hgauge htaken List.length_take

/-- What a write loop does with the result of a call. -/
theorem afterWrite_appending {δ : Type} {I : δ → FileWorld → Prop} {result : Except ℤ ℕ}
    {goOn : ℕ → δ} {retry : δ} (h : match result with
      | .error _ => Appending f base bytes rest written w
      | .ok k => Appending f base bytes (rest.drop k) (written + k) w)
    (hretry : ∀ w', Appending f base bytes rest written w' → I retry w')
    (hgoOn : ∀ k w', Appending f base bytes (rest.drop k) (written + k) w' → I (goOn k) w') :
    wp Gauged (afterWrite result goOn retry written) (fun r w' =>
      r.elim (fun b => I b w') (fun r => Appended f base bytes r w')) w := by
  have hfailed {e : ℤ} {w' : FileWorld} (he : e ≠ 0)
      (h' : Appending f base bytes rest written w') : Appended f base bytes (e, written) w' :=
    ⟨h'.sized, h'.file, h'.content, fun hzero => absurd hzero he⟩
  cases result with
  | error e =>
    refine wp_ite (fun _ => ?_) fun _ => ?_
    · refine sized_bind (countMetrics_unsynced fun _ => rfl) h.sized fun _ w₁ _ h₁ => wp_pure ?_
      exact hretry w₁ (h.of_gauge h₁)
    · refine sized_bind (countMetrics_unsynced fun _ => rfl) h.sized fun _ w₁ _ h₁ => wp_pure ?_
      refine hfailed (neg_ne_zero.mpr ?_) (h.of_gauge h₁)
      split
      · decide
      · assumption
  | ok k =>
    cases k with
    | zero =>
      refine sized_bind (countMetrics_unsynced fun _ => rfl) h.sized fun _ w₁ _ h₁ => wp_pure ?_
      exact hfailed (by decide) (h.of_gauge h₁)
    | succ k => exact wp_pure (hgoOn (k + 1) w h)

theorem all_appended (h : Appending f base bytes bytes 0 w) :
    wp Gauged (all f.fd bytes) (fun r w' => Appended f base bytes r w') w := by
  refine wp_iterate (fun (b : List UInt8 × ℕ) w => Appending f base bytes b.1 b.2 w)
    (fun b w hb => ⟨_, hb.sized⟩) ?_ h
  rintro ⟨p, written⟩ w h
  refine wp_ite (fun hnil => wp_pure ⟨h.sized, h.file, h.content, fun _ => ?_⟩) fun _ => ?_
  · exact List.drop_eq_nil_iff.mp (h.rest.symm.trans hnil)
  · refine sized_bind (countMetrics_unsynced fun _ => rfl) h.sized fun _ w₁ _ h₁ => ?_
    refine wp_bind (wp_mono (writeCall_appending (h.of_gauge h₁) (List.prefix_refl p)) ?_)
    intro result w₂ h₂
    exact afterWrite_appending h₂ (fun _ h' => h') fun _ _ h' => h'

theorem vall_appended (iovMax : ℕ) (v : List (List UInt8))
    (h : Appending f base v.flatten v.flatten 0 w) :
    wp Gauged (vall f.fd iovMax v) (fun r w' => Appended f base v.flatten r w') w := by
  refine wp_iterate (fun (b : List (List UInt8) × ℕ) w =>
    Appending f base v.flatten b.1.flatten b.2 w) (fun b w hb => ⟨_, hb.sized⟩) ?_ h
  rintro ⟨vs, written⟩ w h
  dsimp only at h ⊢
  rw [← flatten_dropWhile_isEmpty vs] at h
  cases hdrop : vs.dropWhile (·.isEmpty) with
  | nil =>
    rw [hdrop] at h
    refine wp_pure ⟨h.sized, h.file, h.content, fun _ => ?_⟩
    exact List.drop_eq_nil_iff.mp h.rest.symm
  | cons x xs =>
    rw [hdrop] at h
    have hoffered : ((x :: xs).take iovMax).flatten <+: (x :: xs).flatten :=
      (List.take_prefix _ _).flatten
    refine sized_bind (countMetrics_unsynced fun _ => rfl) h.sized fun _ w₁ _ h₁ => ?_
    refine wp_bind (wp_mono (writeCall_appending (h.of_gauge h₁) hoffered) ?_)
    intro result w₂ h₂
    refine afterWrite_appending h₂ (fun _ h' => h') fun k _ h' => ?_
    show Appending _ _ _ (advanceVectors (x :: xs) k).flatten _ _
    rw [flatten_advanceVectors]
    exact h'

/-- A sum that saturates at `max`, computed without overflow. -/
theorem saturating_add {n max k : ℕ} (h : n ≤ max) :
    (if max - n < k then max else n + k) = min max (n + k) := by
  split_ifs with hfull
  · exact (min_eq_left (by omega)).symm
  · exact (min_eq_right (by omega)).symm

theorem saturating_bytes (n : UInt64) (k : ℕ) :
    (if 2 ^ 64 - 1 - n.toNat < k then UInt64.ofNat (2 ^ 64 - 1)
      else n + UInt64.ofNat k).toNat = min (2 ^ 64 - 1) (n.toNat + k) := by
  have hn := n.toNat_lt
  rw [← saturating_add (by omega)]
  split_ifs with hfull
  · rfl
  · rw [UInt64.toNat_add, UInt64.toNat_ofNat']
    omega

/-- The bytes of a write loop are accounted for. -/
theorem Sized.account (h : Sized pending w.gauge) :
    wp Gauged (account pending) (fun _ w' => Sized 0 w'.gauge ∧ w'.gauge.content = w.gauge.content ∧
      w'.gauge.file.detached = w.gauge.file.detached) w := by
  obtain ⟨-, hlength, haccepted⟩ := h.pending_le
  refine wp_bind (wp_modify (wp_modify ⟨?_, rfl, rfl⟩))
  refine ⟨h.managed, h.limit, h.fd, h.active, ⟨Nat.zero_le _, Nat.zero_le _, Nat.zero_le _⟩, ?_, ?_⟩
  · have hsize : w.file.currentSize = min sizeMax (w.gauge.content.length - pending) := h.size
    show (if sizeMax - w.file.currentSize < pending then sizeMax else w.file.currentSize +
      pending) = min sizeMax (w.gauge.content.length - 0)
    rw [saturating_add (by omega)]
    omega
  · have hbytes : w.metrics.bytesWritten.toNat = min (2 ^ 64 - 1) (w.accepted - pending) := h.bytes
    have haccepted' : pending ≤ w.accepted := haccepted
    refine (saturating_bytes w.metrics.bytesWritten pending).trans ?_
    show min (2 ^ 64 - 1) (w.metrics.bytesWritten.toNat + pending) = min (2 ^ 64 - 1)
      (w.accepted - 0)
    omega

/-- What holds when a write has returned, with `rc` the result of `prepare_write`. -/
structure WriteSized (base bytes : List UInt8) (rc rc' : ℤ) (w : FileWorld) : Prop where
  sized : Sized 0 w.gauge
  attached : rc' = 0 → rc = 0 ∧ w.gauge.file.detached = false
  content : rc' = 0 → w.gauge.content = base ++ bytes

theorem finishWrite_sized {n : ℕ} {rc : ℤ} {output : FileProg (ℤ × ℕ)} (sync : Bool)
    (h : Prepared n rc w w')
    (houtput : Appending w'.gauge.file w'.gauge.content bytes bytes 0 w' →
      wp Gauged output (fun r w₁ => Appended w'.gauge.file w'.gauge.content bytes r w₁) w') :
    wp Gauged (finishWrite rc output sync)
      (fun rc' w₁ => WriteSized w'.gauge.content bytes rc rc' w₁) w' := by
  -- only a prepared call writes, and it writes its bytes in full when it returns 0
  have hloop : wp Gauged (if rc = 0 then output else pure (rc, 0)) (fun r w₁ =>
      Sized r.2 w₁.gauge ∧ (r.1 = 0 → rc = 0 ∧ w₁.gauge.file.detached = false ∧
        w₁.gauge.content = w'.gauge.content ++ bytes)) w' := by
    refine wp_ite (fun hrc => ?_) fun hrc => wp_pure ⟨h.sized, fun hzero => absurd hzero hrc⟩
    refine wp_mono (houtput ⟨h.sized, rfl, ?_, rfl⟩) fun r w₁ h₁ => ⟨h₁.sized, fun hzero => ?_⟩
    · exact (List.append_nil _).symm
    · refine ⟨hrc, ?_, ?_⟩
      · rw [h₁.file]
        exact h.attached hrc
      · rw [h₁.content, List.take_of_length_le (h₁.complete hzero)]
  refine wp_bind (wp_mono hloop ?_)
  rintro ⟨rc₁, written⟩ w₁ ⟨h₁, hdone⟩
  refine wp_bind (wp_mono h₁.account ?_)
  rintro _ w₂ ⟨h₂, hcontent, hdetached⟩
  -- a synchronisation may turn a success into a failure, not the other way
  have hsync : Keeps FileWorld.gauge (fun rc₂ => rc₂ = 0 → rc₁ = 0)
      (if rc₁ = 0 ∧ sync = true then loggerFileSync else pure rc₁) :=
    .ite (fun hboth => loggerFileSync_keeps.mono fun _ _ _ => hboth.1) fun _ => .pure id
  refine sized_bind hsync h₂ fun rc₂ w₃ hrc₂ h₃ => ?_
  rw [← h₃] at h₂ hcontent hdetached
  -- both ends of the call count a metric, which the gauge does not read
  refine wp_ite (fun hne => ?_) fun _ => ?_
  · refine sized_bind (countMetrics_unsynced fun _ => rfl) h₂ fun _ w₄ _ h₄ => wp_pure ?_
    exact ⟨h₄ ▸ h₂, fun hzero => absurd hzero hne, fun hzero => absurd hzero hne⟩
  · refine sized_bind (countMetrics_unsynced fun _ => rfl) h₂ fun _ w₄ _ h₄ => wp_pure ?_
    refine ⟨h₄ ▸ h₂, fun hzero => ?_, fun hzero => ?_⟩
    · obtain ⟨hrc, hattached, -⟩ := hdone (hrc₂ hzero)
      rw [h₄, hdetached]
      exact ⟨hrc, hattached⟩
    · rw [h₄, hcontent]
      exact (hdone (hrc₂ hzero)).2.2

theorem fileReopenImpl_sized (h : Sized 0 w.gauge) :
    wp Gauged (fileReopenImpl libc) (fun _ w' => Sized 0 w'.gauge) w := by
  refine sized_bind call_keeps h fun now w₁ _ h₁ => ?_
  refine sized_bind (wallDay_keeps _) (h₁ ▸ h) fun r w₂ _ h₂ => ?_
  have hsized₂ : Sized 0 w₂.gauge := by
    rw [h₂, h₁]
    exact h
  cases r with
  | error rc => exact wp_pure hsized₂
  | ok day =>
    refine wp_bind (wp_mono (openCandidate_sized hsized₂ false) ?_)
    rintro (rc | ⟨fd, st⟩) w₃ ⟨h₃, -, hcandidate⟩
    · exact wp_pure h₃
    obtain ⟨hcandidate, hsize, hle⟩ := hcandidate fd st rfl
    -- the two synchronisations of a reopen write nothing
    have hsync : Keeps FileWorld.gauge (fun _ => True)
        (if w₃.file.binding.managed then syncData w₃.file.fd else pure 0) :=
      .ite (fun _ => (syncData_keeps _).mono fun _ _ => trivial) fun _ => .pure trivial
    refine wp_getFile_bind (sized_bind hsync h₃ fun rc w₄ _ h₄ => ?_)
    have hsyncDir : Keeps FileWorld.gauge (fun _ => True)
        (if rc = 0 then syncDirectoryIfDirty else pure rc) :=
      .ite (fun _ => syncDirectoryIfDirty_keeps.mono fun _ _ => trivial) fun _ => .pure trivial
    refine sized_bind hsyncDir (h₄ ▸ h₃) fun rc w₅ _ h₅ => ?_
    have hgauge : w₅.gauge = w₃.gauge := h₅.trans h₄
    rw [← hgauge] at h₃ hcandidate
    refine wp_ite (fun _ => ?_) fun _ => ?_
    · exact sized_bind (loggerFdCloseStatus_keeps _) h₃ fun _ w₆ _ h₆ => wp_pure (h₆ ▸ h₃)
    -- the size installed is the one `fstat` has shown
    · have hdisk : w₅.disk = w₃.disk := congrArg Gauge.disk hgauge
      rw [← hdisk] at hsize
      refine wp_bind (wp_mono (installFd_sized h₃ day hcandidate hsize hle) ?_)
      rintro _ w₆ ⟨h₆, -⟩
      exact sized_pass (loggerFdCloseStatus_keeps _) h₆ fun _ w₇ _ h₇ => h₇ ▸ h₆

theorem loggerFileReopen_sized (h : Sized 0 w.gauge) :
    wp Gauged (loggerFileReopen libc) (fun _ w' => Sized 0 w'.gauge) w := by
  refine wp_getFile_bind (wp_ite (fun _ => wp_pure h) fun _ => ?_)
  refine sized_bind (countMetrics_unsynced fun _ => rfl) h fun _ w₁ _ h₁ => ?_
  refine wp_bind (wp_mono (fileReopenImpl_sized (h₁ ▸ h)) fun rc w₂ h₂ => ?_)
  refine wp_ite (fun _ => ?_) fun _ => ?_
  · exact sized_bind (countMetrics_unsynced fun _ => rfl) h₂ fun _ w₃ _ h₃ => wp_pure (h₃ ▸ h₂)
  · exact sized_bind (countMetrics_unsynced fun _ => rfl) h₂ fun _ w₃ _ h₃ => wp_pure (h₃ ▸ h₂)

/-! ## Calls -/

/-- The size limit is in force. -/
abbrev LoggerFile.sizeLimited (f : LoggerFile) : Prop :=
  (f.binding.mode = .size ∨ f.binding.mode = .sizeDaily) ∧ f.binding.maxFileSize ≠ 0

/-- A write that does not exceed the size fits the limit, or goes to an empty file. -/
theorem Sized.fits {n : ℕ} (h : Sized 0 w.gauge) (hsmall : w.file.sizeExceeded n = false)
    (hlimited : w.file.sizeLimited) :
    w.gauge.content = [] ∨ w.gauge.content.length + n ≤ w.file.binding.maxFileSize := by
  have hsize : w.file.currentSize = min sizeMax w.gauge.content.length := h.size
  have hlimit : w.file.binding.maxFileSize ≤ sizeMax := h.limit
  have hpos : 0 < sizeMax := by decide
  rw [LoggerFile.sizeExceeded, decide_eq_false_iff_not] at hsmall
  by_cases hzero : w.file.currentSize = 0
  · refine .inl (List.length_eq_zero_iff.mp ?_)
    omega
  · have hroom : ¬ (w.file.currentSize ≥ w.file.binding.maxFileSize ∨
        n > w.file.binding.maxFileSize - w.file.currentSize) :=
      fun hover => hsmall ⟨hlimited.1, hlimited.2, hzero, hover⟩
    refine .inr ?_
    omega

/-- What holds when a call from `w` has returned `rc` in `w'`. -/
structure CallSized (op : FileOp) (w : FileWorld) (rc : ℤ) (w' : FileWorld) : Prop where
  sized : Sized 0 w'.gauge
  /-- A write that succeeds has kept the size limit, or the file holds just this write. -/
  limit : ∀ n t, op.record = some (n, t) → n ≠ 0 → rc = 0 → w'.gauge.file.detached = false ∧
    (w.file.sizeLimited → w'.gauge.content.length ≤ w.file.binding.maxFileSize ∨
      w'.gauge.content = op.bytes)

/-- The body of both write calls. -/
theorem writing_sized (output : LoggerFile → FileProg (ℤ × ℕ)) {n : ℕ} {t : Option Timespec}
    {sync : Bool} (h : Sized 0 w.gauge) (hlength : bytes.length = n)
    (houtput : ∀ w', Appending w'.gauge.file w'.gauge.content bytes bytes 0 w' →
      wp Gauged (output w'.file)
        (fun r w₁ => Appended w'.gauge.file w'.gauge.content bytes r w₁) w') :
    wp Gauged (do
      countMetrics fun m => { m with writeOperations := m.writeOperations + 1 }
      let rc ← prepareWrite libc n t
      let f ← getFile
      finishWrite rc (output f) sync)
      (fun rc w' => Sized 0 w'.gauge ∧ (n ≠ 0 → rc = 0 → w'.gauge.file.detached = false ∧
        (w.file.sizeLimited → w'.gauge.content.length ≤ w.file.binding.maxFileSize ∨
          w'.gauge.content = bytes))) w := by
  refine sized_bind (countMetrics_unsynced fun _ => rfl) h fun _ w₁ _ h₁ => ?_
  refine wp_bind (wp_mono (prepareWrite_sized n t (h₁ ▸ h)) fun rc w₂ h₂ => wp_getFile_bind ?_)
  refine wp_mono (finishWrite_sized sync h₂ (houtput w₂)) fun rc' w₃ h₃ => ⟨h₃.sized, ?_⟩
  -- only a call that returns 0 with bytes to write has to fit
  intro hn hzero
  obtain ⟨hrc, hattached⟩ := h₃.attached hzero
  refine ⟨hattached, fun hlimited => ?_⟩
  rw [h₃.content hzero, List.length_append, hlength]
  -- a rotation has emptied the file, or the limit was checked before
  rcases h₂.room hrc hn with hempty | ⟨hgauge, hsmall⟩
  · exact .inr (by rw [hempty, List.nil_append])
  · have hbinding : w₁.file.binding = w.file.binding :=
      show w₁.gauge.file.binding = w.gauge.file.binding by rw [h₁]
    have hlimited₁ : w₁.file.sizeLimited := by
      unfold LoggerFile.sizeLimited
      rw [hbinding]
      exact hlimited
    rw [hgauge, ← hbinding]
    -- the file was empty, or the bytes fit under the limit
    rcases (h₁ ▸ h : Sized 0 w₁.gauge).fits hsmall hlimited₁ with hempty | hfits
    · exact .inr (by rw [hempty, List.nil_append])
    · exact .inl hfits

theorem Iovec.length_bytes {p : Iovec} (h : ¬ (p.base = none ∧ p.len ≠ 0)) :
    p.bytes.length = p.len := by
  unfold Iovec.bytes
  cases hbase : p.base with
  | none =>
    have hlen : p.len = 0 := by
      by_contra hne
      exact h ⟨hbase, hne⟩
    exact hlen.symm
  | some bytes => exact p.sized bytes hbase

/-- The vectors that `logger_file_writev` accepts hold as many bytes as it is told. -/
theorem totalLength_bytes {v : List Iovec} {total n : ℕ} (h : totalLength v total = some n) :
    total + (v.map Iovec.bytes).flatten.length = n := by
  induction v generalizing total with
  | nil => exact Option.some.inj h
  | cons p v ih =>
    rw [totalLength] at h
    split_ifs at h with hbad
    have hp : p.bytes.length = p.len := Iovec.length_bytes fun hnull => hbad (.inl hnull)
    have hrest := ih h
    rw [List.map_cons, List.flatten_cons, List.length_append, hp]
    omega

theorem fileOp_exec_sized (libc : Libc) (op : FileOp) (h : Sized 0 w.gauge) :
    wp Gauged (op.exec libc) (fun rc w' => CallSized op w rc w') w := by
  have hbegin : Sized 0 (FileWorld.gauge { w with history := w.history.begin op.bytes }) :=
    ⟨h.managed, h.limit, h.fd, h.active, ⟨Nat.zero_le _, Nat.zero_le _, Nat.zero_le _⟩, h.size,
      h.bytes⟩
  refine wp_bind (wp_modify ?_)
  cases op with
  | write p t sync =>
    refine wp_ite (fun _ => wp_pure ⟨hbegin, fun _ _ _ _ hzero => absurd hzero (by decide)⟩) ?_
    intro hp
    refine wp_mono (writing_sized (fun f => all f.fd p.bytes) hbegin (Iovec.length_bytes hp)
      fun w' h' => all_appended h') fun rc w' h' => ⟨h'.1, fun n t hrecord => ?_⟩
    obtain ⟨rfl, rfl⟩ := Prod.mk.inj (Option.some.inj hrecord)
    exact h'.2
  | writev v n t sync =>
    refine wp_ite (fun _ => wp_pure ⟨hbegin, fun _ _ _ _ hzero => absurd hzero (by decide)⟩) ?_
    intro hv
    have hlength := totalLength_bytes (not_not.mp hv)
    rw [Nat.zero_add] at hlength
    refine wp_mono (writing_sized (fun f => vall f.fd f.binding.iovMax (v.map Iovec.bytes)) hbegin
      hlength fun w' h' => vall_appended _ _ h') fun rc w' h' => ⟨h'.1, fun n t hrecord => ?_⟩
    obtain ⟨rfl, rfl⟩ := Prod.mk.inj (Option.some.inj hrecord)
    exact h'.2
  | sync => exact sized_pass loggerFileSync_keeps hbegin fun _ w' _ h' => ⟨h' ▸ hbegin, nofun⟩
  | reopen => exact wp_mono (loggerFileReopen_sized hbegin) fun _ w' h' => ⟨h', nofun⟩

theorem runFileOps_sized (libc : Libc) (ops : List FileOp) (h : Sized 0 w.gauge) :
    wp Gauged (runFileOps libc ops) (fun _ w' => Sized 0 w'.gauge) w := by
  induction ops generalizing w with
  | nil => exact wp_pure h
  | cons op ops ih =>
    exact wp_bind (wp_mono (fileOp_exec_sized libc op h) fun _ w₁ h₁ => ih h₁.sized)

end

/-! ## The size limit -/

/-- The size condition as the source computes it, in words of 64 bits. -/
def sizeTrigger (current max n : UInt64) : Bool := current ≥ max || n > max - current

/-- The subtraction is only reached where it does not wrap. -/
theorem sizeTrigger_eq (current max n : UInt64) : sizeTrigger current max n =
    decide (current.toNat ≥ max.toNat ∨ n.toNat > max.toNat - current.toNat) := by
  rw [sizeTrigger, Bool.decide_or]
  by_cases hfull : current ≥ max
  · have hle : max.toNat ≤ current.toNat := UInt64.le_iff_toNat_le.mp hfull
    simp [hfull, hle]
  · have hlt : current.toNat < max.toNat :=
      not_le.mp fun hle => hfull (UInt64.le_iff_toNat_le.mpr hle)
    have hsub : (max - current).toNat = max.toNat - current.toNat :=
      UInt64.toNat_sub_of_le _ _ (UInt64.le_iff_toNat_le.mpr hlt.le)
    rw [← hsub]
    exact congrArg₂ or (decide_eq_decide.mpr UInt64.le_iff_toNat_le)
      (decide_eq_decide.mpr UInt64.lt_iff_toNat_lt)

/-- The size condition is exact: computed in words it is what it is in numbers, and says that the
write would take the file past the limit. -/
structure TriggerExact (f : LoggerFile) (n : ℕ) : Prop where
  word : f.sizeExceeded n = (decide (f.sizeLimited ∧ f.currentSize ≠ 0) &&
    sizeTrigger (.ofNat f.currentSize) (.ofNat f.binding.maxFileSize) (.ofNat n))
  exceeds : n ≠ 0 → (f.sizeExceeded n = true ↔
    f.sizeLimited ∧ f.currentSize ≠ 0 ∧ f.binding.maxFileSize < f.currentSize + n)

theorem triggerExact {f : LoggerFile} {n : ℕ} (hcurrent : f.currentSize ≤ sizeMax)
    (hmax : f.binding.maxFileSize ≤ sizeMax) (hn : n ≤ ssizeMax) : TriggerExact f n := by
  have hword {k : ℕ} (hk : k ≤ sizeMax) : (UInt64.ofNat k).toNat = k := by
    rw [UInt64.toNat_ofNat']
    exact Nat.mod_eq_of_lt (by unfold sizeMax at hk; omega)
  have hn' : n ≤ sizeMax := hn.trans (by decide)
  constructor
  · rw [sizeTrigger_eq, hword hcurrent, hword hmax, hword hn', ← Bool.decide_and]
    unfold LoggerFile.sizeExceeded
    rw [decide_eq_decide]
    constructor
    · rintro ⟨hmode, hlimit, hsome, hover⟩
      exact ⟨⟨⟨hmode, hlimit⟩, hsome⟩, hover⟩
    · rintro ⟨⟨⟨hmode, hlimit⟩, hsome⟩, hover⟩
      exact ⟨hmode, hlimit, hsome, hover⟩
  · intro hpos
    unfold LoggerFile.sizeExceeded
    rw [decide_eq_true_iff]
    constructor
    · rintro ⟨hmode, hlimit, hsome, hover⟩
      exact ⟨⟨hmode, hlimit⟩, hsome, by omega⟩
    · rintro ⟨⟨hmode, hlimit⟩, hsome, hover⟩
      exact ⟨hmode, hlimit, hsome, by omega⟩

/-- A managed file as `logger_file_init` leaves it, with its size and new metrics. -/
structure FileMeasured (w : FileWorld) : Prop where
  managed : FileManaged w
  size : w.file.currentSize = min sizeMax w.content.length
  bytes : w.metrics.bytesWritten = 0
  /-- `max_file_size` is a `size_t`. -/
  limit : w.file.binding.maxFileSize ≤ sizeMax

/-- The counters are right, but for `pending` bytes that the current call has written and not
accounted for. -/
structure SizeLags (pending : ℕ) (w : FileWorld) : Prop where
  taken : pending ≤ w.history.taken
  size : w.file.currentSize = min sizeMax (w.content.length - pending)
  bytes : w.metrics.bytesWritten.toNat = min (2 ^ 64 - 1) (w.accepted - pending)

/-- What a successful write of some bytes leaves: the active file keeps the limit, or holds just
these bytes. -/
def LimitKept (op : FileOp) (w : FileWorld) (rc : ℤ) (w' : FileWorld) : Prop :=
  ∀ n t, op.record = some (n, t) → n ≠ 0 → rc = 0 → w.file.sizeLimited →
    (w'.disk.content w'.file.binding.name).length ≤ w.file.binding.maxFileSize ∨
      w'.disk.content w'.file.binding.name = op.bytes

theorem FileMeasured.sized {w : FileWorld} (h : FileMeasured w) : Sized 0 w.gauge := by
  obtain ⟨ino, hfd, hactive, hlt, htrace⟩ := h.managed.fd
  have haccepted : w.accepted = 0 := by
    unfold FileWorld.accepted
    rw [htrace]
    rfl
  refine ⟨h.managed.managed, h.limit, fun ino' hino' => ?_, fun ino' hino' => ?_,
    ⟨Nat.zero_le _, Nat.zero_le _, Nat.zero_le _⟩, h.size, ?_⟩
  · rw [← Option.some.inj (hfd.symm.trans hino')]
    exact hlt
  · rw [← Option.some.inj (hactive.symm.trans hino')]
    exact hlt
  · show w.metrics.bytesWritten.toNat = min (2 ^ 64 - 1) (w.accepted - 0)
    rw [haccepted, h.bytes]
    rfl

theorem FileReached.sized {libc : Libc} {w₀ w : FileWorld} (hreached : FileReached libc w₀ w)
    (h : FileMeasured w₀) : Sized 0 w.gauge := by
  obtain ⟨ops, tape, rest, hrun⟩ := hreached
  have hsound := (runFileOps_sized libc ops h.sized).run tape
  rw [hrun] at hsound
  exact hsound

/-- The active file of an attached descriptor is the one behind it. -/
theorem LedgerInv.content_active {w : FileWorld} (h : LedgerInv w)
    (hattached : w.file.detached = false) :
    w.disk.content w.file.binding.name = w.gauge.content := by
  have hactive : w.active = w.file.fd := (h.attached hattached).2
  show (match w.active with | none => [] | some ino => w.disk.data ino) = _
  rw [hactive]
  rfl

/-- Size accounting, for every run of the calls on a managed file with any answers of the system.
At every moment the two counters lag behind by what the current call has written and not accounted
for, and between calls they do not lag. After every successful write of some bytes under a size
limit, the active file is within the limit or holds just that write. The size condition is computed
without overflow. -/
theorem file_size_accounting (libc : Libc) (w₀ : FileWorld) (h : FileMeasured w₀) :
    (∀ ops tape, ∃ pending, SizeLags pending ((runFileOps libc ops).run w₀ tape).state) ∧
    (∀ w, FileReached libc w₀ w → SizeLags 0 w ∧ (∀ n ≤ ssizeMax, TriggerExact w.file n) ∧
      ∀ op tape rc w' rest, (FileOp.exec libc op).run w tape = .done rc w' rest →
        SizeLags 0 w' ∧ LimitKept op w rc w') := by
  have hlags {pending : ℕ} {w : FileWorld} (hsized : Sized pending w.gauge) : SizeLags pending w :=
    ⟨hsized.pending_le.1, hsized.size, hsized.bytes⟩
  refine ⟨fun ops tape => ?_, fun w hreached => ⟨hlags (hreached.sized h), fun n hn => ?_, ?_⟩⟩
  · have hmoments : wp Gauged (runFileOps libc ops) (fun _ w' => Gauged w') w₀ :=
      wp_mono (runFileOps_sized libc ops h.sized) fun _ _ hsized => ⟨0, hsized⟩
    obtain ⟨pending, hsized⟩ := wp_state hmoments tape
    exact ⟨pending, hlags hsized⟩
  · have hsized := hreached.sized h
    exact triggerExact (hsized.size.trans_le (min_le_left _ _)) hsized.limit hn
  · intro op tape rc w' rest hrun
    have hsound := (fileOp_exec_sized libc op (hreached.sized h)).run tape
    rw [hrun] at hsound
    have hdone : CallSized op w rc w' := hsound
    refine ⟨hlags hdone.sized, fun n t hrecord hn hzero hlimited => ?_⟩
    obtain ⟨hattached, hlimit⟩ := hdone.limit n t hrecord hn hzero
    have hledger := (fileOp_exec_booked libc op (hreached.inv h.managed.inv)).run tape
    rw [hrun] at hledger
    have hbooked : CallBooked op w rc w' := hledger
    rw [hbooked.booked.inv.content_active hattached]
    exact hlimit hlimited

theorem managedFile_measured : FileMeasured managedFile where
  managed := managedFile_managed
  size := rfl
  bytes := rfl
  limit := by decide

/-- The answers to a write that rotates and takes its byte after an interruption. -/
def interruptedTape : List Answer :=
  List.replicate 23 { count := 1 } ++ [{ ok := false, errno := eintr }, { count := 1 }]

/-- The state after that write. -/
def rotatedFile : FileWorld := ((writeByte.exec ⟨1, gmtime⟩).run managedFile interruptedTape).state

/-- The full file is rotated, and the new one holds just the byte written. -/
theorem file_size_accounting_rotated :
    rotatedFile.history.archives.length = 1 ∧ SizeLags 0 rotatedFile ∧
      LimitKept writeByte managedFile 0 rotatedFile := by
  obtain ⟨-, hreached⟩ := file_size_accounting ⟨1, gmtime⟩ managedFile managedFile_measured
  obtain ⟨-, -, hcalls⟩ := hreached managedFile ⟨[], [], [], rfl⟩
  exact ⟨by decide +kernel, hcalls writeByte interruptedTape 0 rotatedFile [] rfl⟩

end CLogger
