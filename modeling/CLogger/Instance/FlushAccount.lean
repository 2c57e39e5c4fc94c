import CLogger.Instance.CallerAccount

/-!
# The accounts of a flush

`logger_flush` waits until the worker has passed the position it has read, looks at `first_error`,
and synchronises the outputs under `emit_mu`. What it has seen at each of these moments is put
together into `FlushBacked`.

* `FlushSeen`, `LookOk`.
* `loggerFlush_accounts`, `loggerReopen_accounts`, `disposeBody_accounts`.
-/

namespace CLogger.Instance

open Concurrent TapeProgram WrapCounter

variable {recent : Prop} {cfg : InstConfig} {start : Sinks} {s s' : Inst} {t : InstThread}
  {E : List Emission} {before : Sinks} {F : Inst → Prop}

section Wait

/-- What a flush has found counted when it saw its position completed. -/
structure FlushSeen (recent : Prop) (target : ℕ) (waited : List Emission) (s : Inst) : Prop where
  counted : waited <+: s.history.counted
  clean : ∀ e ∈ waited, e.Clean
  popped : recent → recordsOf (ofThread .worker waited) <+: s.ring.popped
  reached : recent → target ≤ (recordsOf (ofThread .worker waited)).length

variable {target : ℕ} {waited : List Emission}

theorem FlushSeen.mono (h : FlushSeen recent target waited s) (hguar : AccountGuar recent s s') :
    FlushSeen recent target waited s' :=
  { h with
    counted := h.counted.trans hguar.counted
    popped := fun hr => (h.popped hr).trans hguar.popped }

/-- What every step keeps can be framed. -/
theorem framed_of_guar {P : Inst → Prop} (h : ∀ s s', AccountGuar recent s s' → P s → P s') :
    Framed recent cfg start t P :=
  ⟨fun s s' hsees => h s s' hsees.1, fun s s' haside => h s s' haside.guar⟩

/-- It holds as long as no error has been noted. -/
theorem framed_seen (p : Prop) :
    Framed recent cfg start t fun s => p → s.firstError = 0 → FlushSeen recent target waited s :=
  framed_of_guar fun _ _ hguar hs hp hz => (hs hp (hguar.noError hz)).mono hguar

/-- The position has been reserved. -/
theorem framed_target :
    Framed recent cfg start t fun s => recent → target ≤ s.ring.reserved.length :=
  framed_of_guar fun _ _ hguar hs hr => (hs hr).trans hguar.reserved

/-- The position is not more than a queue and a batch ahead. -/
theorem framed_near (p : Prop) (k : ℕ) :
    Framed recent cfg start t fun s => p → recent → target ≤ s.completedPos + k :=
  framed_of_guar fun _ _ hguar hs hp hr =>
    (hs hp hr).trans (Nat.add_le_add_right (hguar.completedPos hr) k)

/-- How far a reserved position can be ahead of the published one. -/
def InstConfig.room (cfg : InstConfig) : ℕ := cfg.geometry.cap + cfg.workspaceCapacity + 1

/-- While the instance has not been stopped, a reserved position is near. -/
theorem AccountInv.near (hs : AccountInv recent cfg start s) (hr : recent)
    (hz : s.lifecycleError = 0) (htarget : target ≤ s.ring.reserved.length) :
    target ≤ s.completedPos + cfg.room := by
  have hpos := (hs.ring hr).inv.pos
  have hlag := hs.lag hr hz
  have htail := hpos.tail_le
  have hfreed : s.ring.pop.freed ≤ 1 := by cases s.ring.pop <;> simp [PopPc.freed]
  rw [hpos.reserved_length] at htarget
  rw [QueueSys.head] at htail
  rw [InstConfig.room]
  omega

/-- What the wait has found when it returns. -/
def WaitEnds (recent : Prop) (target : ℕ) (r : ℤ × List Emission) (s : Inst) : Prop :=
  r.1 = 0 → s.firstError = 0 → FlushSeen recent target r.2 s

theorem waitCompleted_accounts (hroom : recent → cfg.geometry.width.Fits cfg.room)
    (hF : Framed recent cfg start t F) :
    (accountLogic recent cfg start).Triple t
      (AtRest t fun s => F s ∧ (recent → target ≤ s.ring.reserved.length))
      (waitCompleted cfg t target)
      fun r => AtRest t fun s => F s ∧ WaitEnds recent target r s := by
  have hF₁ : Framed recent cfg start t fun s => F s ∧ (recent → target ≤ s.ring.reserved.length) :=
    hF.and framed_target
  refine Logic.triple_iterate (fun _ => AtRest t fun s => F s ∧
    (recent → target ≤ s.ring.reserved.length)) (fun _ s _ hs _ => hs.zero) fun _ => ?_
  -- the position is near when the word is read, and stays near
  refine Logic.Triple.bind (Q := fun error => AtRest t fun s => (F s ∧
    (recent → target ≤ s.ring.reserved.length)) ∧
      (error = 0 → recent → target ≤ s.completedPos + cfg.room)) ?_ fun error => ?_
  · refine account_act (fun _ s _ hs => hs.zero)
      (fun error => atRest_stable (hF₁.and (framed_near _ _))) ?_
    intro s a b s' hs hP hact _
    obtain ⟨rfl, rfl⟩ := Prod.mk.inj (Option.some.inj hact)
    exact ⟨(Mild.refl s).accounts hs, hP.1, hP.2, fun hz hr => hs.near hr hz (hP.2.2 hr)⟩
  -- an error that has been noted ends the wait with it
  refine Logic.triple_ite (fun hne => Logic.triple_pure fun s _ hs => ?_) fun hzero => ?_
  · exact ⟨hs.1, hs.2.1.1, fun hrc => absurd hrc (neg_ne_zero.mpr hne)⟩
  refine Logic.Triple.bind (Q := fun r => AtRest t fun s => (F s ∧
    (recent → target ≤ s.ring.reserved.length)) ∧
      (r.1 = true → s.firstError = 0 → FlushSeen recent target r.2 s)) ?_ ?_
  · refine account_act (fun _ s _ hs => hs.zero)
      (fun r => atRest_stable (hF₁.and (framed_seen _))) ?_
    -- the clear error and the word of the progress are read under the lock
    intro s a b s' hs hP hact _
    obtain ⟨rfl, rfl⟩ := Prod.mk.inj (Option.some.inj hact)
    refine ⟨(Mild.refl s).accounts hs, hP.1, hP.2.1, fun hreached hz => ?_⟩
    refine ⟨List.prefix_rfl, hs.clean hz, fun hr => (hs.worker hr hz).popped, fun hr => ?_⟩
    -- the word is compared modulo its width, which is right because the position is near
    have hnear := hP.2.2 (not_not.mp hzero) hr
    exact (le_of_notBehind_wrap (fun hlt => close_of_fits (hroom hr) hlt hnear) hreached).trans
      (hs.worker hr hz).completed
  rintro ⟨reached, counted⟩
  -- the wait ends when the progress has reached the position
  refine Logic.triple_ite (fun hreached => Logic.triple_pure fun s _ hs => ?_) fun _ => ?_
  · exact ⟨hs.1, hs.2.1.1, fun _ => hs.2.2 hreached⟩
  -- otherwise the caller sleeps, and looks again
  refine Logic.Triple.bind (passes_condWaitProgress _ (atRest_stable (hF₁.and (framed_seen _)))
    fun _ hs => hs.zero) fun rc => Logic.triple_pure fun s _ hs => ?_
  split
  · rename_i hrc
    exact ⟨hs.1, hs.2.1.1, fun hzero =>
      absurd (Int.natCast_eq_zero.mp (neg_eq_zero.mp hzero)) hrc⟩
  · exact ⟨hs.1, hs.2.1⟩

theorem framed_flushSeen (p : Prop) :
    Framed recent cfg start t fun s => p → FlushSeen recent target waited s :=
  framed_of_guar fun _ _ hguar hs hp => (hs hp).mono hguar

/-- A wait of an asynchronous instance that returns 0 has found everything before its position
counted, and no error. -/
theorem loggerWaitForOutput_accounts (hroom : recent → cfg.geometry.width.Fits cfg.room)
    (hF : Framed recent cfg start t F) :
    (accountLogic recent cfg start).Triple t (AtRest t F) (loggerWaitForOutput cfg t)
      fun r => AtRest t fun s =>
        F s ∧ (r.1 = 0 → cfg.asyncMode → FlushSeen recent r.2.1 r.2.2 s) := by
  -- an instance that has lost a lock is not waited for
  refine Logic.Triple.bind ((passes_load _).atRest hF) fun syncError => ?_
  refine Logic.triple_ite (fun hne => Logic.triple_pure fun s _ hs => ?_) fun _ => ?_
  · exact ⟨hs.1, hs.2, fun hrc => absurd hrc (neg_ne_zero.mpr hne)⟩
  refine Logic.Triple.bind (Q := fun r => AtRest t fun s => F s ∧
    (r.1 = 0 ∧ cfg.asyncMode → s.firstError = 0 → FlushSeen recent r.2.1 r.2.2 s)) ?_ ?_
  -- only an asynchronous instance has something to wait for
  · refine Logic.triple_ite (fun hasync => ?_) fun hasync => Logic.triple_pure fun s _ hs => ?_
    · refine Logic.Triple.bind (Q := fun target => AtRest t fun s => F s ∧
        (recent → target ≤ s.ring.reserved.length)) ?_ fun target => ?_
      · refine account_act (fun _ s _ hs => hs.zero)
          (fun target => atRest_stable (hF.and framed_target)) ?_
        intro s a b s' hs hP hact _
        -- the position is read once, and no later record counts
        obtain ⟨rfl, rfl⟩ := Prod.mk.inj (Option.some.inj hact)
        exact ⟨(Mild.refl s).accounts hs, hP.1, hP.2,
          fun hr => (hs.ring hr).inv.pos.reserved_length.ge⟩
      refine Logic.Triple.bind ((passes_lock (by rintro ⟨⟩)).atRest (hF.and framed_target))
        fun rc => ?_
      refine Logic.triple_ite (fun hne => Logic.triple_pure fun s _ hs => ?_) fun _ => ?_
      · exact ⟨hs.1, hs.2.1, fun hrc => absurd hrc.1 hne⟩
      refine Logic.Triple.bind (waitCompleted_accounts hroom hF) ?_
      rintro ⟨result, counted⟩
      have hF₁ : Framed recent cfg start t fun s =>
          F s ∧ WaitEnds recent target (result, counted) s := hF.and (framed_seen (result = 0))
      refine Logic.Triple.bind ((passes_unlock (by rintro ⟨⟩)).atRest hF₁) fun unlockRc => ?_
      refine Logic.Triple.bind ((passes_noteSynchronizationError unlockRc).atRest hF₁) fun _ => ?_
      -- an unlock that has failed makes the wait fail
      refine Logic.triple_pure fun s _ hs => ⟨hs.1, hs.2.1, fun hrc => hs.2.2 ?_⟩
      by_contra hne
      have hresult := hrc.1
      simp only [if_neg hne] at hresult
      exact hne hresult
    · exact ⟨hs.1, hs.2, fun h => absurd h.2 hasync⟩
  rintro ⟨rc, target, counted⟩
  refine Logic.triple_ite (fun hne => Logic.triple_pure fun s _ hs => ?_) fun hrc => ?_
  · exact ⟨hs.1, hs.2.1, fun hzero => absurd hzero hne⟩
  -- the last error is read after the wait, and a flush that saw none has found a clear one
  refine Logic.Triple.bind (Q := fun error => AtRest t fun s => F s ∧
    (error = 0 ∧ cfg.asyncMode → FlushSeen recent target counted s)) ?_ fun error =>
      Logic.triple_pure fun s _ hs => ⟨hs.1, hs.2.1, fun hz ha => hs.2.2 ⟨neg_eq_zero.mp hz, ha⟩⟩
  refine account_act (fun _ s _ hs => hs.zero)
    (fun error => atRest_stable (hF.and (framed_flushSeen _))) ?_
  intro s a b s' hs hP hact _
  obtain ⟨rfl, rfl⟩ := Prod.mk.inj (Option.some.inj hact)
  exact ⟨(Mild.refl s).accounts hs, hP.1, hP.2.1, fun h => hP.2.2 ⟨not_not.mp hrc, h.2⟩ h.1⟩

end Wait

section Sync

/-- The file is called in a section of its own. -/
def FileCalled (cfg : InstConfig) (op : FileOp) (before : Sinks) (rc : ℤ) (w : Sinks) : Prop :=
  if cfg.outFile then
    Returns (op.exec cfg.libc) before.file rc w.file ∧ w = { before with file := w.file }
  else rc = 0 ∧ w = before

theorem FileCalled.reached {op : FileOp} {rc : ℤ} {w : Sinks} {es : List Emission}
    (h : FileCalled cfg op before rc w) (hop : op = .sync ∨ op = .reopen)
    (hreached : SinksReached cfg start es before) : SinksReached cfg start es w := by
  unfold FileCalled at h
  split at h
  · rw [h.2]
    exact .file hreached hop h.1
  · rw [h.2]
    exact hreached

theorem onFile_called_accounts (hF : Framed recent cfg start t F) (hout : cfg.outFile)
    (op : FileOp) : (accountLogic recent cfg start).Triple t
      (fun s => Held cfg start t E before s ∧ F s ∧ s.sinks = before) (onFile (op.exec cfg.libc))
      fun rc s => Held cfg start t E before s ∧ F s ∧ FileCalled cfg op before rc s.sinks := by
  refine onFile_accounts (R := (· = before)) (Q := FileCalled cfg op before) hF _ before.file
    (fun w hw => congrArg Sinks.file hw) fun w rc f hw hreturns => ?_
  rw [FileCalled, if_pos hout, hw]
  exact ⟨hreturns, rfl⟩

/-- What an acknowledged look at the outputs rests on. -/
def LookOk (cfg : InstConfig) (start : Sinks) (waited : List Emission) (look : SyncLook) : Prop :=
  look.failedRecords = 0 ∧ (cfg.outFile → look.fileRc = 0 ∧
    (∃ es w, SinksReached cfg start es w ∧ w.file = look.before ∧ ∀ e ∈ waited, e ∈ es) ∧
    Returns (FileOp.sync.exec cfg.libc) look.before 0 look.after)

theorem loggerSyncOutputsLocked_accounts (hstart : SinksOk start) (hF : Framed recent cfg start t F)
    {waited : List Emission} (hwaited : ∀ s, F s → waited <+: s.history.counted) :
    (accountLogic recent cfg start).Triple t
      (fun s => Held cfg start t E before s ∧ F s ∧ s.sinks = before)
      (loggerSyncOutputsLocked cfg before.file)
      fun r s => Held cfg start t E before s ∧ (F s ∧ (r.1 = 0 → LookOk cfg start waited r.2)) ∧
        ∃ rc, FileCalled cfg .sync before rc s.sinks := by
  refine Logic.Triple.bind (Q := fun rc s => Held cfg start t E before s ∧ F s ∧
    FileCalled cfg .sync before rc s.sinks) ?_ fun rc => ?_
  -- a synchronous output needs no call of the file
  · refine Logic.triple_ite (fun hout => onFile_called_accounts hF hout .sync) fun hout =>
      Logic.triple_pure fun s _ hs => ⟨hs.1, hs.2.1, ?_⟩
    rw [FileCalled, if_neg hout]
    exact ⟨rfl, hs.2.2⟩
  refine Logic.Triple.bind (noteFailure_accounts (R := FileCalled cfg .sync before rc) hF rc)
    fun _ => ?_
  refine account_act (fun _ s _ hs => hs.1.settled.accounted) (fun r s s' hsees hs => ?_) ?_
  · exact (hF.and (framed_const _)).held (fun w => ∃ rc, FileCalled cfg .sync before rc w)
      s s' hsees hs
  intro s a r s' hs hP hact _
  obtain ⟨rfl, rfl⟩ := Prod.mk.inj (Option.some.inj hact)
  obtain ⟨hheld, ⟨hFs, herror⟩, hcalled⟩ := hP
  -- the look is at the moment the first error is read
  refine ⟨(Mild.refl s).accounts hs, hheld, ⟨hFs, fun hzero => ⟨?_, fun hout => ?_⟩⟩, rc, hcalled⟩
  · have hfirst : s.firstError = 0 := neg_eq_zero.mp hzero
    exact Nat.eq_zero_of_not_pos fun hpos => (hs.failed hpos).ne' hfirst
  -- without an error the synchronisation has returned 0
  · have hfirst : s.firstError = 0 := neg_eq_zero.mp hzero
    rw [FileCalled, if_pos hout] at hcalled
    have hok := hheld.reached.ok hstart
    have hnonpos := (fileOp_exec_wrote (by rintro ⟨⟩) hok.file hcalled.1).nonpos
    have hrc : rc = 0 := le_antisymm hnonpos (not_lt.mp fun hneg => (herror hneg).ne' hfirst)
    subst hrc
    refine ⟨rfl, ⟨s.history.emissions, before, hheld.reached, rfl, fun e he => ?_⟩, hcalled.1⟩
    exact hs.counted e ((hwaited s hFs).mem he)

/-- A thread that has left `emit_mu` is at rest. -/
theorem AtRest.of_settled (h : Settled t 0 E s ∧ F s) : AtRest t F s := ⟨⟨E, h.1⟩, h.2⟩

/-- A thread at rest, with its emissions. -/
theorem triple_atRest {α : Type} {c : InstCode α} {Q : α → Inst → Prop}
    (hF : Framed recent cfg start t F)
    (h : ∀ E, (accountLogic recent cfg start).Triple t (fun s => Settled t 0 E s ∧ F s) c Q) :
    (accountLogic recent cfg start).Triple t (AtRest t F) c Q :=
  (triple_exists (fun _ => hF.standing) h).pre fun _ _ hs => ⟨hs.1.choose, hs.1.choose_spec, hs.2⟩

theorem leaveEmit_accounts (hF : Framed recent cfg start t F) {R : Sinks → Prop}
    (hreach : ∀ es w, SinksReached cfg start es before → R w → SinksReached cfg start es w)
    (rc : ℤ) :
    (accountLogic recent cfg start).Triple t
      (fun s => Held cfg start t E before s ∧ F s ∧ R s.sinks) (leaveEmit rc)
      fun r s => AtRest t F s ∧ (r = 0 → rc = 0) := by
  refine Logic.Triple.bind (unlock_emit_accounts hF hreach) fun unlockRc => ?_
  refine Logic.Triple.bind ((passes_noteSynchronizationError unlockRc).standing hF) fun _ => ?_
  refine Logic.triple_pure fun s _ hs => ⟨.of_settled hs, fun hr => ?_⟩
  by_contra hne
  rw [if_neg hne] at hr
  exact hne hr

theorem flushOutputs_accounts (hstart : SinksOk start) (hF : Framed recent cfg start t F)
    {waited : List Emission} (hwaited : ∀ s, F s → waited <+: s.history.counted) :
    (accountLogic recent cfg start).Triple t (AtRest t F) (flushOutputs cfg t)
      fun r => AtRest t fun s =>
        F s ∧ (r.1 = 0 → ∃ look, r.2 = some look ∧ LookOk cfg start waited look) := by
  refine Logic.Triple.bind ((passes_load _).atRest hF) fun syncError => ?_
  refine Logic.triple_ite (fun hne => Logic.triple_pure fun s _ hs => ?_) fun _ => ?_
  · exact ⟨hs.1, hs.2, fun hrc => absurd hrc (neg_ne_zero.mpr hne)⟩
  refine triple_atRest hF fun E => ?_
  refine Logic.Triple.bind (lockEmit_accounts hF) ?_
  rintro ⟨lockRc, before⟩
  refine Logic.triple_ite (fun hne => Logic.triple_pure fun s _ hs => ?_) fun hlocked => ?_
  · exact ⟨⟨E, hs.1.1⟩, hs.1.2, fun hrc => absurd hrc hne⟩
  refine Logic.Triple.pre ?_ fun s _ hs => hs.2.2 (not_not.mp hlocked)
  refine Logic.Triple.bind (loggerSyncOutputsLocked_accounts hstart hF hwaited) ?_
  rintro ⟨rc, look⟩
  refine Logic.Triple.bind (leaveEmit_accounts
    (R := fun w => ∃ rc, FileCalled cfg .sync before rc w)
    (hF.and (framed_const (rc = 0 → LookOk cfg start waited look)))
    (fun es w hreached hw => hw.choose_spec.reached (.inl rfl) hreached) rc) fun r => ?_
  exact Logic.triple_pure fun s _ hs =>
    ⟨hs.1.1, hs.1.2.1, fun hr => ⟨look, rfl, hs.1.2.2 (hs.2 hr)⟩⟩

theorem loggerFlush_accounts (hroom : recent → cfg.geometry.width.Fits cfg.room)
    (hstart : SinksOk start) (hF : Framed recent cfg start t F)
    (hkeep : ∀ s f, (f s.history).calls = s.history.calls → (f s.history).counted =
      s.history.counted → F s → F (s.record f)) :
    (accountLogic recent cfg start).Triple t (AtRest t F) (loggerFlush cfg t)
      fun _ => AtRest t F := by
  refine Logic.Triple.bind ((passes_load _).atRest hF) fun accepting => ?_
  -- an instance that does not accept calls is not flushed
  refine Logic.triple_ite (fun _ => Logic.triple_pure fun s _ hs => hs) fun _ => ?_
  refine Logic.Triple.bind (loggerWaitForOutput_accounts hroom hF) ?_
  rintro ⟨rc, target, waited⟩
  have hF₁ : Framed recent cfg start t fun s =>
      F s ∧ (rc = 0 ∧ cfg.asyncMode → FlushSeen recent target waited s) :=
    hF.and (framed_flushSeen _)
  -- the look is only of interest when the wait has succeeded
  refine Logic.Triple.bind (Q := fun r => AtRest t fun s =>
    (F s ∧ (rc = 0 ∧ cfg.asyncMode → FlushSeen recent target waited s)) ∧
      (r.1 = 0 → rc = 0 ∧ cfg.asyncMode →
        ∃ look, r.2 = some look ∧ LookOk cfg start waited look)) ?_ ?_
  · by_cases hwait : rc = 0 ∧ cfg.asyncMode
    · refine ((flushOutputs_accounts hstart hF₁ fun s hs => (hs.2 hwait).counted).pre
        fun s _ hs => ⟨hs.1, hs.2.1, fun h => hs.2.2 h.1 h.2⟩).post fun r s _ hs => ?_
      exact ⟨hs.1, hs.2.1, fun hr _ => hs.2.2 hr⟩
    · have hnone : ∀ s : Inst, [] <+: s.history.counted := fun s => List.nil_prefix
      refine ((flushOutputs_accounts hstart hF₁ fun s _ => hnone s).pre
        fun s _ hs => ⟨hs.1, hs.2.1, fun h => hs.2.2 h.1 h.2⟩).post fun r s _ hs => ?_
      exact ⟨hs.1, hs.2.1, fun _ h => absurd h hwait⟩
  rintro ⟨syncRc, look⟩
  -- the flush is entered in the history with what it has seen
  refine account_act (fun _ s _ hs => hs.zero) (fun _ => atRest_stable hF) ?_
  intro s a b s' hs hP hact _
  obtain ⟨-, rfl⟩ := Prod.mk.inj (Option.some.inj hact)
  obtain ⟨⟨E, hE⟩, ⟨hFs, hseen⟩, hlook⟩ := hP
  refine ⟨accounts_flushed hs fun hr hasync hzero => ?_, ⟨E, hE.accounted, hE.emitted, hE.counted⟩,
    hkeep s _ rfl rfl hFs⟩
  -- the result of the flush is that of the wait, when that has failed
  have hrc : rc = 0 := by
    by_contra hne
    simp only [if_neg hne] at hzero
    exact hne hzero
  simp only [if_pos hrc] at hzero
  have hflush := hseen ⟨hrc, hasync⟩
  obtain ⟨l, hl, hfailed, hfile⟩ := hlook hzero ⟨hrc, hasync⟩
  exact ⟨hflush.counted, hflush.clean, hflush.popped hr, hflush.reached hr, l, hl, hfailed, hfile⟩

/-- The file is opened again. -/
theorem loggerReopen_accounts (hF : Framed recent cfg start t F) :
    (accountLogic recent cfg start).Triple t (AtRest t F) (loggerReopen cfg t)
      fun _ => AtRest t F := by
  refine Logic.Triple.bind ((passes_load _).atRest hF) fun accepting => ?_
  refine Logic.triple_ite (fun _ => Logic.triple_pure fun s _ hs => hs) fun hopen => ?_
  have hout : cfg.outFile := not_not.mp (not_or.mp hopen).1
  refine triple_atRest hF fun E => ?_
  refine Logic.Triple.bind (lockEmit_accounts hF) ?_
  rintro ⟨lockRc, before⟩
  refine Logic.triple_ite (fun _ => Logic.triple_pure fun s _ hs => .of_settled hs.1)
    fun hlocked => ?_
  refine Logic.Triple.pre ?_ fun s _ hs => hs.2.2 (not_not.mp hlocked)
  refine Logic.Triple.bind (onFile_called_accounts hF hout .reopen) fun rc => ?_
  refine Logic.Triple.bind (noteFailure_accounts (R := FileCalled cfg .reopen before rc) hF rc)
    fun _ => ?_
  refine Logic.Triple.bind (leaveEmit_accounts (R := FileCalled cfg .reopen before rc)
    (hF.and (framed_error _)) (fun es w hreached hw => hw.reached (.inr rfl) hreached) rc)
    fun _ => ?_
  exact Logic.triple_pure fun s _ hs => ⟨hs.1.1, hs.1.2.1⟩

/-- `dispose_body` synchronises the outputs unless it has found an error. -/
theorem disposeBody_accounts (hstart : SinksOk start) (hF : Framed recent cfg start t F) :
    (accountLogic recent cfg start).Triple t (AtRest t F) (disposeBody cfg t)
      fun _ => AtRest t F := by
  refine Logic.Triple.bind (Q := fun _ => AtRest t F) ?_ fun _ => ?_
  -- the admission is closed first
  · refine Passes.atRest (passes_store fun _ => ?_) hF
    exact ⟨.of_ledger rfl rfl rfl rfl id, rfl⟩
  refine Logic.Triple.bind ((passes_load _).atRest hF) fun syncError => ?_
  refine Logic.Triple.bind ((Passes.ite (fun _ => passes_load _)
    fun _ => passes_pure _).atRest hF) fun syncError => ?_
  -- an error found before the join ends the function with a note of it
  refine Logic.triple_ite (fun _ => (passes_noteLifecycleError syncError).atRest hF) fun _ => ?_
  refine Logic.Triple.bind ((Passes.ite (fun _ => passes_stopWorker)
    fun _ => passes_pure _).atRest hF) fun joined => ?_
  refine Logic.Triple.bind ((passes_load _).atRest hF) fun syncError => ?_
  refine Logic.triple_ite (fun _ => Logic.triple_pure fun s _ hs => hs) fun _ => ?_
  refine Logic.Triple.bind ((passes_load _).atRest hF) fun lifecycleError => ?_
  refine triple_atRest hF fun E => ?_
  refine Logic.Triple.bind (lockEmit_accounts hF) ?_
  rintro ⟨lockRc, before⟩
  -- without the lock the outputs are left alone
  refine Logic.triple_ite (fun hne => ?_) fun hlocked => ?_
  · have hfailed :
      Passes recent cfg start t (store fun s => { s with lifecycleError := -lockRc }) :=
      passes_store fun s => ⟨⟨rfl, fun _ => rfl, id, fun _ => neg_ne_zero.mpr hne, id, id⟩, rfl⟩
    exact (hfailed.atRest hF).pre fun s _ hs => .of_settled hs.1
  refine Logic.Triple.pre ?_ fun s _ hs => hs.2.2 (not_not.mp hlocked)
  refine Logic.Triple.bind (Q := fun _ s => Held cfg start t E before s ∧ F s ∧
    (s.sinks = before ∨ ∃ rc, FileCalled cfg .sync before rc s.sinks)) ?_ fun _ => ?_
  · refine Logic.triple_ite (fun _ => Logic.triple_pure fun s _ hs => ⟨hs.1, hs.2.1, .inl hs.2.2⟩)
      fun _ => ?_
    -- nothing was waited for, so nothing has to be covered
    have hnone : ∀ s : Inst, [] <+: s.history.counted := fun s => List.nil_prefix
    refine Logic.Triple.bind (loggerSyncOutputsLocked_accounts hstart hF fun s _ => hnone s)
      fun r => Logic.triple_pure fun s _ hs => ?_
    exact ⟨hs.1, hs.2.1.1, .inr hs.2.2⟩
  refine Logic.Triple.bind (unlock_emit_accounts
    (R := fun w => w = before ∨ ∃ rc, FileCalled cfg .sync before rc w) hF ?_) fun unlockRc => ?_
  -- the section may have synchronised the file
  · rintro es w hreached (rfl | ⟨rc, hcalled⟩)
    · exact hreached
    · exact hcalled.reached (.inl rfl) hreached
  exact ((passes_noteSynchronizationError unlockRc).atRest hF).pre fun s _ hs => .of_settled hs

end Sync

end CLogger.Instance
