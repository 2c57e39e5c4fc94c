import CLogger.File.Correctness

/-!
# When daily rotation settles

The day condition of `prepare_write` compares the local day of the record with the day noted in the
file, which a rotation takes from the time it names the archive after, and a reopen from the clock.
Where these fall on the day of the records, a run of writes of one day rotates at most once for the
change of the day. Where they do not, every write may rotate.
-/

namespace CLogger

open TapeProgram

/-- The local date of a second, as the number that `wall_day` makes of it. -/
def Libc.localDay (libc : Libc) (sec : ℤ) : ℤ :=
  ((libc.localtime sec).year + 1900) * 10000 + ((libc.localtime sec).mon + 1) * 100 +
    (libc.localtime sec).mday

/-- The time a rotation starts with at a reading of the clock: the reading in whole microseconds, or
the first microsecond after the last archive. -/
def LoggerFile.archiveFrom (f : LoggerFile) (now : Timespec) : Option Timespec :=
  if f.archiveTimeValid ∧ (now.sec < f.archiveTime.sec ∨ now.sec = f.archiveTime.sec ∧
      now.nsec - now.nsec % 1000 ≤ f.archiveTime.nsec) then f.archiveTime.nextMicrosecond
  else some { now with nsec := now.nsec - now.nsec % 1000 }

/-- The time a number of microseconds later. -/
def Timespec.later : ℕ → Timespec → Option Timespec
  | 0, t => some t
  | k + 1, t => t.nextMicrosecond.bind (Timespec.later k)

/-- A time that a rotation at a reading of the clock may name the archive after. -/
def LoggerFile.MayArchiveAt (f : LoggerFile) (now t : Timespec) : Prop :=
  ∃ start k, f.archiveFrom now = some start ∧ k < loggerArchiveAttempts ∧
    start.later k = some t

/-- The number of bytes and the time of the record that a call writes. -/
def FileOp.record : FileOp → Option (ℕ × Option Timespec)
  | .write p t _ => some (p.len, t)
  | .writev _ n t _ => some (n, t)
  | .sync => none
  | .reopen => none

/-- A successful write of a record of the given day that is not empty and does not exceed the size
limit, or a call that writes nothing. -/
def FileOp.OfDay (libc : Libc) (day : ℤ) (w : FileWorld) (op : FileOp) (rc : ℤ) : Prop :=
  ∀ n t, op.record = some (n, t) → rc = 0 ∧ n ≠ 0 ∧ w.file.sizeExceeded n = false ∧
    ∃ time, t = some time ∧ libc.localDay time.sec = day

/-- An answer to a write that agrees with the day of the records: when the day has changed, every
time that the archive may be named after at that reading of the clock is on the new day. -/
def LoggerFile.WriteOnDay (libc : Libc) (day : ℤ) (f : LoggerFile) (a : Answer) : Prop :=
  f.currentDay ≠ day → f.currentSize ≠ 0 → ∀ t, f.MayArchiveAt a.time t → libc.localDay t.sec = day

/-- The answers to a call that agree with the day of the records. A reopen notes the day of the
clock. -/
def ClockOnDay (libc : Libc) (day : ℤ) (w : FileWorld) : FileOp → Answer → Prop
  | .write _ _ _ => w.file.WriteOnDay libc day
  | .writev _ _ _ _ => w.file.WriteOnDay libc day
  | .sync => fun _ => True
  | .reopen => fun a => libc.localDay a.time.sec = day

/-- A call of a run of writes of one day, all of whose answers are as `Clock` says. -/
def DayStep (libc : Libc) (day : ℤ) (Clock : FileWorld → FileOp → Answer → Prop)
    (w w' : FileWorld) : Prop :=
  ∃ op tape rc rest, (FileOp.exec libc op).run w tape = .done rc w' rest ∧
    op.OfDay libc day w rc ∧ ∀ a ∈ tape, Clock w op a

/-! ## What the functions do to the archives and the day -/

/-- The archives so far and the day noted in the file. -/
def FileWorld.turn (w : FileWorld) : List CString × ℤ := (w.history.archives, w.file.currentDay)

instance : Unmetered FileWorld.turn := ⟨fun _ _ => rfl⟩

instance : Unsynced FileWorld.turn :=
  ⟨fun _ _ _ => rfl, fun _ _ => rfl, fun _ _ => rfl, fun _ => rfl⟩

instance : Unwritten FileWorld.turn :=
  ⟨fun _ _ => rfl, fun _ _ _ _ => rfl, fun _ _ => rfl⟩

section

variable {libc : Libc} {τ : Type} {π : FileWorld → τ} {w w' : FileWorld} {A : Answer → Prop}

theorem wallDay_day (sec : ℤ) :
    Keeps π (fun r => Failing r ∧ ∀ day, r = .ok day → day = libc.localDay sec)
      (wallDay libc sec) := by
  refine call_keeps.bind fun a _ => .ite (fun _ => .pure ⟨.error a.neg_errno_or_neg, nofun⟩) ?_
  intro _
  refine .ite (fun _ => .pure ⟨.error (by decide), nofun⟩) fun _ => .pure
    ⟨.ok _, fun day hday => ?_⟩
  exact (Except.ok.inj hday).symm

theorem advanceMicrosecond_next (t : Timespec) :
    Keeps π (fun r => Failing r ∧ ∀ t', r = .ok t' → t.nextMicrosecond = some t')
      (advanceMicrosecond t) := by
  unfold advanceMicrosecond
  cases t.nextMicrosecond with
  | none => exact .pure ⟨.error (by decide), nofun⟩
  | some next =>
    refine (timestampValid_keeps next).bind fun _ _ => .ite (fun _ => .pure ⟨.ok _, ?_⟩) fun _ => ?_
    · exact fun t' ht' => congrArg some (Except.ok.inj ht')
    · exact .pure ⟨.error (by decide), nofun⟩

theorem ends_getFile {β : Type} {f : LoggerFile → FileProg β} {Q : β → FileWorld → Prop}
    (h : Ends A (f w.file) Q w) : Ends A (getFile >>= f) Q w := h

theorem ends_modify {g : FileWorld → FileWorld} {Q : Unit → FileWorld → Prop} (h : Q () (g w)) :
    Ends A (Prog.modify g) Q w :=
  Safe.ends (wp_modify (C := fun _ => True) h)

/-- The start of a rotation is the one its state and the clock give. -/
theorem archiveStart_from (now : Timespec) :
    Ends A (archiveStart now) (fun r w' => w' = w ∧ Failing r ∧
      ∀ t, r = .ok t → w.file.archiveFrom now = some t) w := by
  refine ends_getFile ?_
  unfold LoggerFile.archiveFrom
  refine .ite (fun hlast => ?_) fun hlast => .pure ⟨rfl, .ok _, fun t ht => ?_⟩
  · refine (advanceMicrosecond_next (π := id) _).ends fun r w' hr hw' => ⟨hw', hr.1, ?_⟩
    rw [if_pos hlast]
    exact hr.2
  · rw [if_neg hlast]
    exact congrArg some (Except.ok.inj ht)

theorem openActive_turn (create exclusive : Bool) :
    Keeps FileWorld.turn ErrorNumber (openActive create exclusive) := by
  refine Keeps.ask (fun w a => ?_) fun w a => ?_
  · unfold FileWorld.openAnswer
    cases w.disk.dir w.file.binding.name with
    | some ino => cases a.ok <;> cases exclusive <;> rfl
    | none => cases create <;> cases a.ok <;> cases a.created <;> rfl
  · unfold FileWorld.openAnswer
    have hpos := a.errno_pos
    cases w.disk.dir w.file.binding.name with
    | some ino =>
      cases a.ok
      · exact .error hpos
      · cases exclusive
        · exact .ok _
        · exact .error (show 0 < eexist by decide)
    | none =>
      cases create <;> cases a.ok
      · exact .error hpos
      · exact .error (show 0 < enoent by decide)
      · cases a.created <;> exact .error hpos
      · exact .ok _

theorem openCandidate_turn (exclusive : Bool) :
    Keeps FileWorld.turn Failing (openCandidate exclusive) := by
  refine checkOwner_keeps.bind fun rc hrc => .ite (fun hne => .pure (.error ?_)) fun _ => ?_
  · exact lt_of_le_of_ne hrc hne
  refine getFile_keeps.bind fun f _ => (openActive_turn _ _).bind fun r hr => ?_
  cases r with
  | error e => exact .pure hr.failing
  | ok fd =>
    refine (checkNamedFd_keeps _ _).bind fun r hr => ?_
    cases r with
    | error rc =>
      exact (loggerFdCloseStatus_keeps _).bind fun _ _ => .pure (.error (hr rc rfl))
    | ok st =>
      refine .ite (fun hne => (loggerFdCloseStatus_keeps _).bind fun _ _ => .pure (.error ?_)) ?_
      · refine lt_of_le_of_ne ?_ hne
        split_ifs
        · exact regularSingleLink_nonpos st
        · exact le_rfl
        · decide
      · intro _
        exact Keeps.bind (Keeps.modify fun w => rfl) fun _ _ => .pure (.ok _)

theorem retention_turn (now : ℤ) : Keeps FileWorld.turn (fun _ => True) (retention now) := by
  have hunlink (name : CString) : Keeps FileWorld.turn (fun _ => True) (unlinkat name) := by
    refine Keeps.ask (fun w a => ?_) fun _ _ => trivial
    unfold FileWorld.unlinkAnswer
    cases a.ok <;> cases (w.disk.dir name).isSome <;> rfl
  -- a step of the scan asks for entries and unlinks; neither touches the turn
  have hstep (changed : Bool) :
    Keeps FileWorld.turn (fun _ => True) (retentionStep now changed) := by
    refine getFile_keeps.bind fun f _ => call_keeps.bind fun a _ => ?_
    cases a.entry with
    | none => exact .pure trivial
    | some name =>
      refine .ite (fun _ => .pure trivial) fun _ => (fstatat_keeps name).bind fun r _ => ?_
      cases r with
      | error e => exact .pure trivial
      | ok st =>
        refine .ite (fun _ => .pure trivial) fun _ => .ite (fun _ => .pure trivial) fun _ => ?_
        refine (hunlink name).bind fun r _ => ?_
        cases r with
        | error e => exact .pure trivial
        | ok _ => exact (countMetrics_keeps _).bind fun _ _ => .pure trivial
  refine getFile_keeps.bind fun f _ => .ite (fun _ => .pure trivial) fun _ => ?_
  refine call_keeps.bind fun dir _ => .ite (fun _ => .pure trivial) fun _ => ?_
  refine call_keeps.bind fun scan _ => .ite (fun _ => call_keeps.bind fun _ _ => .pure trivial) ?_
  intro _
  -- the scan is a loop over the entries, so the step carries it
  have hloop : Keeps FileWorld.turn (fun _ => True) (Prog.iterate (retentionStep now) false) :=
    Keeps.iterate false fun changed => (hstep changed).mono fun r _ => by cases r <;> trivial
  refine hloop.bind fun r _ => call_keeps.bind fun closed _ => ?_
  refine .ite (fun _ => ?_) fun _ => .pure trivial
  refine Keeps.bind (Keeps.modify fun w => ?_) fun _ _ => syncDirectory_keeps.bind fun _ _ => ?_
  · rfl
  · exact .pure trivial

theorem failSwitch_turn (candidate : Option ℕ) {rc : ℤ} (hrc : rc ≠ 0) :
    Keeps FileWorld.turn (· ≠ 0) (failSwitch candidate rc) := by
  refine (loggerFdCloseStatus_keeps candidate).bind fun _ _ => ?_
  exact Keeps.bind (Keeps.modify fun w => rfl) fun _ _ => .pure hrc

/-- The attempts to archive note one archive, named after one of the times they try. -/
theorem archiveRename_turn (n : ℕ) (t : Timespec) :
    Ends A (archiveRename libc n t) (fun r w' => Failing r ∧ ∀ t', r = .ok t' →
      (∃ k < n, t.later k = some t') ∧ w'.file.currentDay = w.file.currentDay ∧
      w'.history.archives.length = w.history.archives.length + 1) w := by
  induction n generalizing t w with
  | zero => exact .pure ⟨.error (by decide), nofun⟩
  | succ n ih =>
    refine .bind ((archiveName_keeps (π := id) t).ends fun r w₁ hr hw₁ => ?_)
    -- `archiveName` only reads, so the state is the same as before
    obtain rfl : w₁ = w := hw₁
    cases r with
    | error rc => exact .pure ⟨.error (hr rc rfl), nofun⟩
    | ok name =>
      refine .bind (.ask fun a _ => ?_)
      -- a rename that fails with `EEXIST` goes on one microsecond later, any other one ends the
      -- search
      rcases renameAnswer_cases w₁ name a with ⟨e, hpos, hanswer⟩ | ⟨ino, -, -, hanswer⟩
      · rw [hanswer]
        refine .ite (fun _ => .pure ⟨.error (neg_neg_of_pos hpos), nofun⟩) fun _ => .bind ?_
        refine (advanceMicrosecond_next (π := id) t).ends fun r w₂ hr hw₂ => ?_
        obtain rfl : w₂ = w₁ := hw₂
        cases r with
        | error rc => exact .pure ⟨.error (hr.1 rc rfl), nofun⟩
        | ok next =>
          refine (ih next).mono fun r w' hdone => ⟨hdone.1, fun t' ht' => ?_⟩
          -- the time found by the rest is one step further from the first one
          obtain ⟨⟨k, hk, hlater⟩, hrest⟩ := hdone.2 t' ht'
          refine ⟨⟨k + 1, by omega, ?_⟩, hrest⟩
          rw [Timespec.later, hr.2 next rfl]
          exact hlater
      · rw [hanswer]
        refine .pure ⟨.ok t, fun t' ht' => ?_⟩
        obtain rfl := Except.ok.inj ht'
        exact ⟨⟨0, n.succ_pos, rfl⟩, rfl, List.length_append⟩

/-- A switch that succeeds notes the day of the time the archive is named after. -/
theorem switchActive_turn (t : Timespec) :
    Ends A (switchActive libc t) (fun rc w' => rc = 0 →
      w'.history.archives = w.history.archives ∧ w'.file.currentDay = libc.localDay t.sec) w := by
  -- every exit before the switch returns an error, of which nothing is claimed
  have hfail {candidate : Option ℕ} {rc : ℤ} (w₁ : FileWorld) (hrc : rc ≠ 0)
      {Q : FileWorld → Prop} : Ends A (failSwitch candidate rc) (fun rc w' => rc = 0 → Q w') w₁ :=
    (failSwitch_turn candidate hrc).ends fun rc _ hne _ hrc => absurd hrc hne
  refine .bind (syncDirectory_keeps.ends fun rc w₁ _ (h₁ : w₁.turn = w.turn) => ?_)
  refine .ite (fun hrc => hfail w₁ hrc) fun _ => ?_
  refine .bind ((wallDay_day (π := id) t.sec).ends fun r w₂ hr hw₂ => ?_)
  obtain rfl : w₂ = w₁ := hw₂
  cases r with
  | error rc => exact hfail w₂ (hr.1 rc rfl).ne
  | ok day =>
    refine .bind ((openCandidate_turn true).ends fun r w₃ hr₃ (h₃ : w₃.turn = w₂.turn) => ?_)
    cases r with
    | error rc => exact hfail w₃ (hr₃ rc rfl).ne
    | ok candidate =>
      obtain ⟨fd, st⟩ := candidate
      refine .bind ((syncData_keeps _).ends fun rc w₄ _ (h₄ : w₄.turn = w₃.turn) => ?_)
      refine .ite (fun hrc => hfail w₄ hrc) fun _ => ?_
      refine .bind (syncDirectory_keeps.ends fun rc w₅ _ (h₅ : w₅.turn = w₄.turn) => ?_)
      refine .ite (fun hrc => hfail w₅ hrc) fun _ => ends_getFile (.bind (ends_modify ?_))
      -- the new descriptor is installed with the day of the archive
      have harchives : w₅.history.archives = w.history.archives :=
        congrArg Prod.fst (h₅.trans (h₄.trans (h₃.trans h₁)))
      have hday : day = libc.localDay t.sec := hr.2 day rfl
      refine .bind ((loggerFdCloseStatus_keeps (π := FileWorld.turn) _).ends fun rc w₆ _ h₆ => ?_)
      have hinstalled : w₆.turn = (w.history.archives, libc.localDay t.sec) := by
        rw [← harchives, ← hday]
        exact h₆
      refine .ite (fun hrc => .pure fun h => absurd h hrc) fun _ => ?_
      refine (retention_turn _).ends fun rc w₇ _ (h₇ : w₇.turn = w₆.turn) _ => ?_
      rw [hinstalled] at h₇
      exact ⟨congrArg Prod.fst h₇, congrArg Prod.snd h₇⟩

/-- A rotation that succeeds notes one archive and the day of a time it may have been named
after. -/
theorem rotateImpl_turn {day : ℤ}
    (hclock : ∀ a, A a → ∀ t, w.file.MayArchiveAt a.time t → libc.localDay t.sec = day) :
    Ends A (rotateImpl libc) (fun rc w' => rc = 0 →
      w'.history.archives.length = w.history.archives.length + 1 ∧ w'.file.currentDay = day) w := by
  refine .bind ((checkActive_keeps (π := id)).ends fun rc w₁ _ hw₁ => ?_)
  -- the checks and the reading of the clock leave the state alone
  obtain rfl : w₁ = w := hw₁
  refine .ite (fun hrc => .pure fun h => absurd h hrc) fun _ => .bind (.ask fun a ha => ?_)
  refine .ite (fun _ => .pure fun h => absurd h a.neg_errno_neg.ne) fun _ => ?_
  refine .bind ((timestampValid_keeps (π := id) _).ends fun valid w₂ _ hw₂ => ?_)
  obtain rfl : w₂ = w₁ := hw₂
  refine .ite (fun _ => .pure fun h => absurd h (by decide)) fun _ => ?_
  refine .bind ((archiveStart_from a.time).mono fun r w₃ hr => ?_)
  obtain ⟨rfl, hfailing, hstart⟩ := hr
  cases r with
  | error rc => exact .pure fun h => absurd h (hfailing rc rfl).ne
  | ok start =>
    refine .bind (loggerFileSync_keeps.ends fun rc w₄ _ (h₄ : w₄.turn = w₃.turn) => ?_)
    refine .ite (fun hrc => .pure fun h => absurd h hrc) fun _ => ?_
    refine .bind ((archiveRename_turn _ start).mono fun r w₅ hr₅ => ?_)
    cases r with
    | error rc => exact .pure fun h => absurd h (hr₅.1 rc rfl).ne
    | ok t =>
      obtain ⟨⟨k, hk, hlater⟩, -, hlength⟩ := hr₅.2 t rfl
      -- the time in the name is the reading or a later microsecond, and all of these are on `day`
      have hday := hclock a ha t ⟨start, k, hstart start rfl, hk, hlater⟩
      refine .bind (ends_modify ?_)
      refine (switchActive_turn t).mono fun rc w₆ h₆ hrc => ?_
      obtain ⟨harchives, hcurrent⟩ := h₆ hrc
      refine ⟨?_, hcurrent.trans hday⟩
      rw [harchives]
      exact hlength.trans (congrArg (fun turn => turn.1.length + 1) h₄)

theorem rotate_turn {day : ℤ}
    (hclock : ∀ a, A a → ∀ t, w.file.MayArchiveAt a.time t → libc.localDay t.sec = day) :
    Ends A (rotate libc) (fun rc w' => rc = 0 →
      w'.history.archives.length = w.history.archives.length + 1 ∧ w'.file.currentDay = day) w := by
  refine .bind ((countMetrics_keeps (π := FileWorld.frame) _).ends fun _ w₁ _ h₁ => .bind ?_)
  have hfile : w₁.file = w.file := show w₁.frame.file = w.frame.file by rw [h₁]
  have harchives : w₁.history = w.history := show w₁.frame.history = w.frame.history by rw [h₁]
  rw [← hfile] at hclock
  rw [← harchives]
  refine (rotateImpl_turn hclock).mono fun rc w₂ h₂ => ?_
  refine .ite (fun hrc => .bind (ends_modify (.pure fun h => absurd h hrc))) fun hrc => ?_
  exact .bind (ends_modify (.pure h₂))

/-- What a call of a run of writes of one day does to the archives and the day noted: it rotates
for the change of the day and notes the new one, or it does not rotate and the day is as before, or
the new one. -/
structure DayTurned (day : ℤ) (before after : List CString × ℤ) : Prop where
  rotated : after.1 = before.1 ∨ before.2 ≠ day ∧
    after.1.length = before.1.length + 1 ∧ after.2 = day
  day : after.2 = before.2 ∨ after.2 = day

theorem DayTurned.refl (day : ℤ) (turn : List CString × ℤ) : DayTurned day turn turn :=
  ⟨.inl rfl, .inl rfl⟩

/-- A write of the day that does not exceed the size is let through after at most one rotation. -/
theorem prepareWrite_turn {n : ℕ} {t : Timespec} {day : ℤ} (hday : libc.localDay t.sec = day)
    (hsize : w.file.sizeExceeded n = false) :
    Ends (w.file.WriteOnDay libc day) (prepareWrite libc n (some t))
      (fun rc w' => rc = 0 → DayTurned day w.turn w'.turn) w := by
  have hfalse : ¬ w.file.sizeExceeded n := by
    rw [hsize]
    decide
  refine ends_getFile (.ite (fun _ => .pure nofun) fun _ => ?_)
  refine .ite (fun _ => .pure nofun) fun _ => .ite (fun _ => .pure fun h => ?_) fun _ => ?_
  · exact absurd h w.file.detachedError_ne_zero
  refine .ite (fun _ => .pure fun _ => .refl _ _) fun _ => .ite (fun _ => ?_) fun _ => ?_
  · refine .bind ((wallDay_day (π := id) t.sec).ends fun r w₁ hr hw₁ => ?_)
    obtain rfl : w₁ = w := hw₁
    cases r with
    | error rc => exact .pure fun h => absurd h (hr.1 rc rfl).ne
    | ok d =>
      obtain rfl : d = day := (hr.2 d rfl).trans hday
      refine .ite (fun htrigger => ?_) fun _ => .pure fun _ => .refl _ _
      obtain ⟨hne, hsome⟩ := htrigger.resolve_left hfalse
      refine (rotate_turn fun a ha => ha hne.symm hsome).mono fun rc w' h' hrc => ?_
      obtain ⟨hlength, hcurrent⟩ := h' hrc
      exact ⟨.inr ⟨hne.symm, hlength, hcurrent⟩, .inr hcurrent⟩
  · exact .ite (fun htrigger => absurd htrigger hfalse) fun _ => .pure fun _ => .refl _ _

/-- A write of the day that succeeds has rotated at most for the change of the day. -/
theorem finishWrite_dayTurned (libc : Libc) (w : FileWorld) (n : ℕ) (t : Option Timespec) (day : ℤ)
    (sync : Bool) (output : LoggerFile → FileProg (ℤ × ℕ))
    (houtput : ∀ f, Keeps FileWorld.turn (fun _ => True) (output f)) :
    Ends (w.file.WriteOnDay libc day)
      (do
        countMetrics fun m => { m with writeOperations := m.writeOperations + 1 }
        let rc ← prepareWrite libc n t
        let f ← getFile
        finishWrite rc (output f) sync)
      (fun rc w' => rc = 0 → w.file.sizeExceeded n = false →
        (∃ time, t = some time ∧ libc.localDay time.sec = day) →
          DayTurned day w.turn w'.turn) w := by
  by_cases hday : ∃ time, t = some time ∧ libc.localDay time.sec = day
  · by_cases hsize : w.file.sizeExceeded n = false
    · obtain ⟨time, rfl, hday⟩ := hday
      refine .bind ((countMetrics_keeps (π := FileWorld.frame) _).ends fun _ w₁ _ h₁ => .bind ?_)
      have hfile : w₁.file = w.file := show w₁.frame.file = w.frame.file by rw [h₁]
      have hturn : w₁.turn = w.turn := show w₁.frame.turn = w.frame.turn by rw [h₁]
      rw [← hfile]
      refine (prepareWrite_turn hday (hfile ▸ hsize)).mono fun rc w₂ h₂ => ends_getFile ?_
      refine (finishWrite_keeps sync (houtput _)).ends fun rc' w' hrc h' hzero _ _ => ?_
      rw [h', ← hturn]
      exact h₂ (hrc hzero)
    · exact fun _ _ _ _ _ _ _ h => absurd h hsize
  · exact fun _ _ _ _ _ _ _ _ h => absurd h hday

theorem fileReopenImpl_turn {day : ℤ} (hclock : ∀ a, A a → libc.localDay a.time.sec = day) :
    Ends A (fileReopenImpl libc) (fun _ w' => DayTurned day w.turn w'.turn) w := by
  refine .bind (.ask fun now hnow => .bind ?_)
  refine (wallDay_day (π := id) now.time.sec).ends fun r w₁ hr hw₁ => ?_
  obtain rfl : w₁ = w := hw₁
  cases r with
  | error rc => exact .pure (.refl _ _)
  | ok d =>
    -- the day of the new file is the day of the reading
    obtain rfl : d = day := (hr.2 d rfl).trans (hclock now hnow)
    refine .bind ((openCandidate_turn false).ends fun r w₂ _ h₂ => ?_)
    rw [← h₂]
    cases r with
    -- both synchronisations may be skipped, and neither touches the turn
    | error rc => exact .pure (.refl d _)
    | ok candidate =>
      have hsync : Keeps FileWorld.turn (fun _ => True)
          (if w₂.file.binding.managed then syncData w₂.file.fd else pure 0) :=
        .ite (fun _ => (syncData_keeps _).mono fun _ _ => trivial) fun _ => .pure trivial
      refine ends_getFile (.bind (hsync.ends fun rc w₃ _ h₃ => ?_))
      rw [← h₃]
      have hsyncDir : Keeps FileWorld.turn (fun _ => True)
          (if rc = 0 then syncDirectoryIfDirty else pure rc) :=
        .ite (fun _ => syncDirectoryIfDirty_keeps.mono fun _ _ => trivial) fun _ => .pure trivial
      refine .bind (hsyncDir.ends fun rc w₄ _ h₄ => ?_)
      rw [← h₄]
      refine .ite (fun _ => .bind ?_) fun _ => .bind (ends_modify ?_)
      -- a candidate that could not be synchronised is closed, and the old day stays
      · refine (loggerFdCloseStatus_keeps (π := FileWorld.turn) _).ends fun _ w₅ _ h₅ => ?_
        rw [← h₅]
        exact .pure (.refl d _)
      -- otherwise the old descriptor is closed and the day of the reading installed
      · refine (loggerFdCloseStatus_keeps (π := FileWorld.turn) _).ends fun _ w₅ _ h₅ => ?_
        rw [h₅]
        exact ⟨.inl rfl, .inr rfl⟩

theorem loggerFileReopen_turn {day : ℤ} (hclock : ∀ a, A a → libc.localDay a.time.sec = day) :
    Ends A (loggerFileReopen libc) (fun _ w' => DayTurned day w.turn w'.turn) w := by
  refine ends_getFile (.ite (fun _ => .pure (.refl _ _)) fun _ => ?_)
  refine .bind ((countMetrics_keeps (π := FileWorld.turn) _).ends fun _ w₁ _ h₁ => .bind ?_)
  rw [← h₁]
  refine (fileReopenImpl_turn hclock).mono fun rc w₂ h₂ => ?_
  exact .ite (fun _ => .bind (ends_modify (.pure h₂))) fun _ => .bind (ends_modify (.pure h₂))

/-- One call of a run of writes of one day. -/
theorem fileOp_exec_dayTurned {op : FileOp} {day : ℤ} :
    Ends (ClockOnDay libc day w op) (op.exec libc)
      (fun rc w' => op.OfDay libc day w rc → DayTurned day w.turn w'.turn) w := by
  refine .bind (ends_modify ?_)
  cases op with
  | write p t sync =>
    change Ends (w.file.WriteOnDay libc day) (loggerFileWrite libc p t sync) _ _
    refine .ite (fun _ => .pure fun h => absurd (h _ _ rfl).1 (by decide)) fun _ => ?_
    have hwrite := finishWrite_dayTurned libc { w with history := w.history.begin p.bytes } p.len t
      day sync (fun f => all f.fd p.bytes) fun f => all_keeps _ _
    refine hwrite.mono fun rc w' h' h => ?_
    obtain ⟨hrc, -, hsize, hday⟩ := h _ _ rfl
    exact h' hrc hsize hday
  | writev v n t sync =>
    change Ends (w.file.WriteOnDay libc day) (loggerFileWritev libc v n t sync) _ _
    refine .ite (fun _ => .pure fun h => absurd (h _ _ rfl).1 (by decide)) fun _ => ?_
    have hwrite := finishWrite_dayTurned libc
      { w with history := w.history.begin (v.map Iovec.bytes).flatten } n t day sync
      (fun f => vall f.fd f.binding.iovMax (v.map Iovec.bytes)) fun f => vall_keeps _ _ _
    refine hwrite.mono fun rc w' h' h => ?_
    obtain ⟨hrc, -, hsize, hday⟩ := h _ _ rfl
    exact h' hrc hsize hday
  | sync =>
    refine loggerFileSync_keeps.ends fun rc w' _ (h' : w'.turn = _) _ => ?_
    rw [h']
    exact .refl _ _
  | reopen => exact (loggerFileReopen_turn fun _ h => h).mono fun rc w' h' _ => h'

/-- What holds of the archives and the day noted once a run of writes of one day has started with
`count` archives. -/
structure DaySettled (day : ℤ) (count : ℕ) (turn : List CString × ℤ) : Prop where
  atMost : turn.1.length ≤ count + 1
  day : turn.1.length ≠ count → turn.2 = day

theorem DaySettled.step {day : ℤ} {count : ℕ} {before after : List CString × ℤ}
    (h : DaySettled day count before) (hturned : DayTurned day before after)
    (hle : count ≤ before.1.length) : DaySettled day count after ∧ count ≤ after.1.length := by
  obtain ⟨hrotated, hday⟩ := hturned
  rcases hrotated with hsame | ⟨hne, hmore, hnew⟩
  · rw [← hsame] at hle
    refine ⟨⟨hsame ▸ h.atMost, fun hcount => ?_⟩, hle⟩
    rcases hday with hday | hday
    · rw [hday]
      exact h.day (hsame ▸ hcount)
    · exact hday
  · -- the day noted was another one, so this is the first rotation
    have hfirst : before.1.length = count := by
      by_contra hcount
      exact hne (h.day hcount)
    rw [hfirst] at hmore
    exact ⟨⟨hmore.le, fun _ => hnew⟩, by omega⟩

end

/-- Daily rotation settles when the clocks agree with the records: in every run of successful
writes of one local day, with reopens and synchronisations between them, at most one archive is
made for the change of the day, if the times that a rotation may name its archive after and the
clock of a reopen are on that day. -/
theorem daily_rotation_settles (libc : Libc) (day : ℤ) (w₀ w : FileWorld)
    (hrun : Relation.ReflTransGen (DayStep libc day (ClockOnDay libc day)) w₀ w) :
    w.history.archives.length ≤ w₀.history.archives.length + 1 := by
  have hsettled : DaySettled day w₀.history.archives.length w.turn ∧
      w₀.history.archives.length ≤ w.turn.1.length := by
    induction hrun with
    | refl => exact ⟨⟨Nat.le_succ _, fun h => absurd rfl h⟩, le_rfl⟩
    | tail _ hstep ih =>
      obtain ⟨op, tape, rc, rest, hcall, hday, hclock⟩ := hstep
      exact ih.1.step (fileOp_exec_dayTurned tape hclock rc _ rest hcall hday) ih.2
  exact hsettled.1.atMost

/-- Within a second the microseconds go on in the same second. -/
theorem Timespec.later_sec {k : ℕ} {t t' : Timespec} (h : t.later k = some t')
    (hnsec : t.nsec + 1000 * k < 1000000000) : t'.sec = t.sec := by
  induction k generalizing t with
  | zero => rw [Option.some.inj h]
  | succ k ih =>
    push_cast at hnsec
    have hnext : t.nextMicrosecond = some { t with nsec := t.nsec + 1000 } := if_pos (by omega)
    rw [Timespec.later, hnext, Option.bind_some] at h
    have hsec := ih h (show t.nsec + 1000 + 1000 * (k : ℤ) < 1000000000 by omega)
    exact hsec

/-- A file in daily mode with one byte of the first of January 1970. -/
def dailyFile : FileWorld :=
  { openedFile with
    file := { openedFile.file with
      binding := { openedFile.file.binding with mode := .daily }
      currentDay := 19700101 } }

/-- A write of one byte with the time of the second of January. -/
def nextDayWrite : FileOp := .write ⟨some [66], 1, by simp⟩ (some ⟨86400, 0⟩) false

/-- The answers to the write with the clock at the given second. -/
def clockTape (sec : ℤ) : List Answer := List.replicate 30 { count := 1, time := ⟨sec, 0⟩ }

/-- The state after the write with the clock at the given second. -/
def nextDayFile (sec : ℤ) (w : FileWorld) : FileWorld :=
  ((nextDayWrite.exec ⟨1, gmtime⟩).run w (clockTape sec)).state

theorem nextDayWrite_ofDay {w : FileWorld} (hmode : w.file.binding.mode = .daily) :
    nextDayWrite.OfDay ⟨1, gmtime⟩ 19700102 w 0 := by
  intro n t hrecord
  obtain ⟨rfl, rfl⟩ := Prod.mk.inj (Option.some.inj hrecord)
  refine ⟨rfl, by decide, ?_, ⟨86400, 0⟩, rfl, by decide⟩
  rw [LoggerFile.sizeExceeded, hmode]
  rfl

/-- Two writes of the second of January while the clock is still on the first: each of them rotates,
and notes the first again. -/
theorem daily_rotation_unsettled : ¬ ∀ (libc : Libc) (day : ℤ) (w₀ w : FileWorld),
    w₀.file.binding.mode = .daily ∨ w₀.file.binding.mode = .sizeDaily →
    Relation.ReflTransGen (DayStep libc day fun _ _ _ => True) w₀ w →
    w.history.archives.length ≤ w₀.history.archives.length + 1 := by
  intro hsettles
  have hfirst : DayStep ⟨1, gmtime⟩ 19700102 (fun _ _ _ => True) dailyFile
      (nextDayFile 0 dailyFile) :=
    ⟨nextDayWrite, clockTape 0, 0, _, rfl, nextDayWrite_ofDay rfl, fun _ _ => trivial⟩
  have hsecond : DayStep ⟨1, gmtime⟩ 19700102 (fun _ _ _ => True) (nextDayFile 0 dailyFile)
      (nextDayFile 0 (nextDayFile 0 dailyFile)) :=
    ⟨nextDayWrite, clockTape 0, 0, _, rfl, nextDayWrite_ofDay rfl, fun _ _ => trivial⟩
  have hle := hsettles _ _ _ _ (.inl rfl) ((Relation.ReflTransGen.single hfirst).tail hsecond)
  exact absurd hle (by decide +kernel)

/-- The same writes with the clock on the second of January: the first one rotates. -/
theorem daily_rotation_settles_nextDay :
    (nextDayFile 86400 dailyFile).history.archives.length = 1 ∧
    (nextDayFile 86400 (nextDayFile 86400 dailyFile)).history.archives.length ≤ 1 := by
  have hfirst : DayStep ⟨1, gmtime⟩ 19700102 (ClockOnDay ⟨1, gmtime⟩ 19700102) dailyFile
      (nextDayFile 86400 dailyFile) := by
    refine ⟨nextDayWrite, clockTape 86400, 0, _, rfl, nextDayWrite_ofDay rfl,
      fun a ha _ _ t ht => ?_⟩
    obtain ⟨start, k, hstart, hk, hlater⟩ := ht
    rw [(List.mem_replicate.mp ha).2] at hstart
    obtain rfl := Option.some.inj hstart
    rw [Timespec.later_sec hlater]
    · decide
    · have : k < 1024 := hk
      show (0 : ℤ) + 1000 * k < 1000000000
      omega
  have hsecond : DayStep ⟨1, gmtime⟩ 19700102 (ClockOnDay ⟨1, gmtime⟩ 19700102)
      (nextDayFile 86400 dailyFile) (nextDayFile 86400 (nextDayFile 86400 dailyFile)) :=
    ⟨nextDayWrite, clockTape 86400, 0, _, rfl, nextDayWrite_ofDay rfl,
      fun a _ hne => absurd (show (nextDayFile 86400 dailyFile).file.currentDay = 19700102 by
        decide +kernel) hne⟩
  refine ⟨by decide +kernel, ?_⟩
  exact daily_rotation_settles ⟨1, gmtime⟩ 19700102 dailyFile _
    ((Relation.ReflTransGen.single hfirst).tail hsecond)

end CLogger
