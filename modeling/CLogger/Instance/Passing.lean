import CLogger.Instance.Account

/-!
# Code beside the accounts

The locks of the queue and of the progress, the wake-up protocol, the notes of errors and the
formatting: a thread that has nothing accounted passes this code with everything it knows.
-/

namespace CLogger.Instance

open Concurrent

variable {recent : Prop} {cfg : InstConfig} {start : Sinks} {t : InstThread} {s : Inst}

section Errors

/-- The note of an error may set the first error, and changes nothing else. -/
theorem noteIoError_mild {error : ℤ} (h : 0 < error) (s : Inst) :
    Mild s { s with firstError := if s.firstError = 0 then error else s.firstError } := by
  refine ⟨⟨rfl, fun hne => if_neg hne, fun hn => ?_, id, id, id⟩, rfl⟩
  show 0 ≤ if s.firstError = 0 then error else s.firstError
  split
  · exact h.le
  · exact hn

/-- The note of an error is passed, whether it is kept or not. -/
theorem passes_noteIoError (error : ℤ) : Passes recent cfg start t (loggerNoteIoError error) :=
  .ite (fun _ => passes_pure ()) fun h => passes_store fun s => noteIoError_mild (not_le.mp h) s

/-- A positive error is there afterwards, unless an earlier one is. -/
theorem noteIoError_accounts {P : Inst → Prop} (error : ℤ)
    (hstable : (accountLogic recent cfg start).Stable t P)
    (hP : ∀ s, P s → s.history.accounted t = 0) :
    (accountLogic recent cfg start).Triple t P (loggerNoteIoError error) fun _ s =>
      P s ∧ (0 < error → 0 < s.firstError) := by
  refine Logic.triple_ite (fun h => Logic.triple_pure fun _ _ hs => ?_) fun h => ?_
  · exact ⟨hs, fun hpos => absurd hpos h.not_gt⟩
  have hpos := not_le.mp h
  refine account_act (fun _ s _ hs => hP s hs)
    (fun _ s s' hsees hs => ⟨hstable s s' hsees hs.1, fun he => hsees.1.error (hs.2 he)⟩) ?_
  intro s a b s' hs hPs hact _
  obtain ⟨-, rfl⟩ := Prod.mk.inj (Option.some.inj hact)
  have hmild := noteIoError_mild hpos s
  refine ⟨hmild.accounts hs, hstable s _ hmild.sees hPs, fun _ => ?_⟩
  show 0 < if s.firstError = 0 then error else s.firstError
  split
  · exact hpos
  · exact lt_of_le_of_ne hs.firstError (Ne.symm ‹_›)

/-- The first error of the lifecycle is no part of the accounts. -/
theorem passes_noteFirst (error : ℤ) : Passes recent cfg start t (noteFirst error) := by
  refine passes_store fun s => ⟨⟨rfl, fun _ => rfl, id, fun hne => ?_, id, id⟩, rfl⟩
  show (if s.lifecycleError = 0 then error else s.lifecycleError) ≠ 0
  rw [if_neg hne]
  exact hne

/-- Nor are the words that stop an instance. -/
theorem passes_stopInstance (error : ℤ) : Passes recent cfg start t (stopInstance error) :=
  (passes_noteFirst error).bind fun _ =>
    Passes.bind (passes_store fun _ => ⟨.of_ledger rfl rfl rfl rfl id, rfl⟩) fun _ =>
      passes_store fun _ => ⟨.of_ledger rfl rfl rfl rfl id, rfl⟩

/-- The note of a lifecycle error stops the instance and counts nothing. -/
theorem passes_noteLifecycleError (error : ℤ) :
    Passes recent cfg start t (loggerNoteLifecycleError error) :=
  .ite (fun _ => passes_pure ()) fun _ => passes_stopInstance _

/-- The note of a synchronization error sets a word that only grows away from zero. -/
theorem passes_noteSynchronizationError (error : ℤ) :
    Passes recent cfg start t (loggerNoteSynchronizationError error) := by
  refine .ite (fun _ => passes_pure ()) fun _ => ?_
  refine Passes.bind (passes_store fun s => ⟨⟨rfl, fun _ => rfl, id, id, fun hn => ?_, id⟩, rfl⟩)
    fun _ => passes_noteLifecycleError _
  show 0 ≤ if s.synchronizationError = 0 then (error.natAbs : ℤ) else s.synchronizationError
  split
  · exact Int.natCast_nonneg _
  · exact hn

end Errors

section Locks

variable {mutex : InstMutex} {label : InstLabel}

/-- Another mutex than `emit_mu` may change its owner. -/
theorem own_mild (h : mutex ≠ .emit) (u : Option InstThread) : Mild s (s.own mutex u) := by
  refine ⟨.of_ledger ?_ rfl rfl rfl id, rfl⟩
  rw [Inst.ledger, Inst.ledger, Inst.own]
  simp only [Function.update_of_ne h.symm]

/-- So may it be unlocked, with or without an error. -/
theorem unlocked_mild (h : mutex ≠ .emit) (a : InstReply) : Mild s (s.unlocked mutex a) := by
  unfold Inst.unlocked
  split
  · exact own_mild h none
  · exact .refl s

/-- The place of a thread in the wake-up protocol is no part of the accounts. -/
theorem goes_mild (s : Inst) (u : InstThread) (place : WakePlace) : Mild s (s.goes u place) :=
  ⟨.of_ledger rfl rfl rfl rfl id, rfl⟩

/-- Mild changes compose. -/
theorem Mild.trans {s' s'' : Inst} (h : Mild s s') (h' : Mild s' s'') : Mild s s'' where
  ledger := h'.ledger.trans h.ledger
  firstError hne := by
    have hsame := h.firstError hne
    rw [← hsame] at hne
    exact (h'.firstError hne).trans hsame
  firstError_nonneg hn := h'.firstError_nonneg (h.firstError_nonneg hn)
  lifecycleError hne := h'.lifecycleError (h.lifecycleError hne)
  synchronizationError hn := h'.synchronizationError (h.synchronizationError hn)
  tally ht := h'.tally (h.tally ht)
  calls := h'.calls.trans h.calls

/-- A lock of another mutex than `emit_mu` is passed, whatever it answers. -/
theorem passes_lock (h : mutex ≠ .emit) : Passes recent cfg start t (lock label mutex t) := by
  refine passes_atomic fun s a b s' hact => ?_
  split_ifs at hact
  · obtain ⟨-, rfl⟩ := Prod.mk.inj (Option.some.inj hact)
    exact .refl s
  · obtain ⟨-, rfl⟩ := Prod.mk.inj (Option.some.inj hact)
    exact own_mild h _

/-- So is its unlock. -/
theorem passes_unlock (h : mutex ≠ .emit) : Passes recent cfg start t (unlock mutex) := by
  refine passes_atomic fun s a b s' hact => ?_
  obtain ⟨-, rfl⟩ := Prod.mk.inj (Option.some.inj hact)
  exact unlocked_mild h a

/-- The exchange of `consumer_waiting` is passed. -/
theorem passes_clearWaiting (forced : Bool) :
    Passes recent cfg start t (clearWaiting label t forced) := by
  refine passes_atomic fun s a b s' hact => ?_
  obtain ⟨-, rfl⟩ := Prod.mk.inj (Option.some.inj hact)
  exact ⟨.of_ledger rfl rfl rfl rfl id, rfl⟩

/-- The signal to the worker is passed. -/
theorem passes_signalWorker (place : WakePlace) :
    Passes recent cfg start t (signalWorker label t place) := by
  refine passes_atomic fun s a b s' hact => ?_
  split_ifs at hact
  · obtain ⟨-, rfl⟩ := Prod.mk.inj (Option.some.inj hact)
    exact goes_mild s t place
  · obtain ⟨-, rfl⟩ := Prod.mk.inj (Option.some.inj hact)
    exact ⟨.of_ledger rfl rfl rfl rfl id, rfl⟩

/-- The end of a section under `wait_mu` is passed, and so is the error of its unlock. -/
theorem passes_releaseWaitMu : Passes recent cfg start t (releaseWaitMu label t) := by
  refine (passes_atomic fun s a b s' hact => ?_).bind fun rc => .ite (fun _ => ?_) fun _ =>
    passes_pure rc
  · obtain ⟨-, rfl⟩ := Prod.mk.inj (Option.some.inj hact)
    exact (unlocked_mild (by rintro ⟨⟩) a).trans (goes_mild _ t .away)
  · exact Passes.bind (passes_store fun _ => ⟨.of_ledger rfl rfl rfl rfl id, rfl⟩)
      fun _ => passes_pure rc

/-- A producer that wakes the worker has nothing accounted yet and passes the whole protocol. -/
theorem passes_notify : Passes recent cfg start t (loggerQueueNotifyIfWaiting t) := by
  refine (passes_atomic fun s a b s' hact => ?_).bind fun waiting => .ite
    (fun _ => passes_pure 0) fun _ => ?_
  · obtain ⟨-, rfl⟩ := Prod.mk.inj (Option.some.inj hact)
    split
    · exact .refl s
    · exact goes_mild s t .away
  refine (passes_atomic fun s a b s' hact => ?_).bind fun rc => .ite
    (fun _ => passes_pure rc) fun _ => ?_
  · split_ifs at hact
    · obtain ⟨-, rfl⟩ := Prod.mk.inj (Option.some.inj hact)
      exact goes_mild s t .away
    · obtain ⟨-, rfl⟩ := Prod.mk.inj (Option.some.inj hact)
      exact own_mild (by rintro ⟨⟩) _
  refine (passes_clearWaiting false).bind fun claimed => .ite (fun _ => passes_releaseWaitMu)
    fun _ => ?_
  exact (passes_signalWorker .bound).bind fun _ => passes_releaseWaitMu.bind fun _ => passes_pure _

/-- The wake-up of a stopper is passed. -/
theorem passes_wakeForce : Passes recent cfg start t (loggerQueueWakeForce t) := by
  refine (passes_lock (by rintro ⟨⟩)).bind fun rc => .ite (fun _ => passes_pure rc) fun _ => ?_
  exact (passes_clearWaiting true).bind fun _ => (passes_signalWorker .away).bind fun _ =>
    passes_releaseWaitMu.bind fun _ => passes_pure _

/-- A flush may sleep on `progress_cv`. -/
theorem passes_condWaitProgress : Passes recent cfg start t (condWaitProgress t) := by
  refine (passes_atomic fun s a b s' hact => ?_).bind fun error => .ite
    (fun _ => passes_pure error) fun _ => passes_atomic fun s a b s' hact => ?_
  · split_ifs at hact
    · obtain ⟨-, rfl⟩ := Prod.mk.inj (Option.some.inj hact)
      exact .refl s
    · obtain ⟨-, rfl⟩ := Prod.mk.inj (Option.some.inj hact)
      exact own_mild (by rintro ⟨⟩) none
  · split_ifs at hact
    obtain ⟨-, rfl⟩ := Prod.mk.inj (Option.some.inj hact)
    exact own_mild (by rintro ⟨⟩) _

end Locks

section Worker

/-- A look at the ring changes nothing. -/
theorem passes_queueEmpty (g : QueueGeometry) :
    Passes recent cfg start t (loggerQueueEmpty g) := by
  refine (passes_load _).bind fun pos => passes_atomic fun s a b s' hact => ?_
  obtain ⟨-, rfl⟩ := Prod.mk.inj (Option.some.inj hact)
  exact ⟨.of_ledger rfl rfl rfl rfl id, rfl⟩

/-- Nor does a look at `running`. -/
theorem passes_loadRunning : Passes recent cfg start t loadRunning := by
  refine passes_atomic fun s a b s' hact => ?_
  obtain ⟨-, rfl⟩ := Prod.mk.inj (Option.some.inj hact)
  exact ⟨.of_ledger rfl rfl rfl rfl id, rfl⟩

/-- The worker may look whether there is anything to do. -/
theorem passes_nothingToDo : Passes recent cfg start t (nothingToDo cfg) :=
  (passes_queueEmpty _).bind fun _ => .ite (fun _ => passes_loadRunning) fun _ => passes_pure _

/-- The worker may sleep on `wait_cv`. -/
theorem passes_condWaitQueue : Passes recent cfg start t condWaitQueue := by
  refine (passes_atomic fun s a b s' hact => ?_).bind fun error => .ite
    (fun _ => passes_pure error) fun _ => ?_
  · split_ifs at hact
    · obtain ⟨-, rfl⟩ := Prod.mk.inj (Option.some.inj hact)
      exact .refl s
    · obtain ⟨-, rfl⟩ := Prod.mk.inj (Option.some.inj hact)
      have howner : Mild s (s.own .wait none) := own_mild (by rintro ⟨⟩) none
      exact howner.trans ⟨.of_ledger rfl rfl rfl rfl id, rfl⟩
  refine (passes_atomic fun s a b s' hact => ?_).bind fun _ =>
    passes_atomic fun s a b s' hact => ?_
  · split_ifs at hact
    obtain ⟨-, rfl⟩ := Prod.mk.inj (Option.some.inj hact)
    exact ⟨.of_ledger rfl rfl rfl rfl id, rfl⟩
  · split_ifs at hact
    obtain ⟨-, rfl⟩ := Prod.mk.inj (Option.some.inj hact)
    exact own_mild (by rintro ⟨⟩) _

/-- One round of waiting is passed: the announcement, the second look and the sleep. -/
theorem passes_waitOnce : Passes recent cfg start t (waitOnce cfg) := by
  refine passes_nothingToDo.bind fun _ => .ite (fun _ => passes_pure _) fun _ => ?_
  refine Passes.bind (passes_store fun _ => ⟨.of_ledger rfl rfl rfl rfl id, rfl⟩) fun _ => ?_
  refine passes_nothingToDo.bind fun _ => .ite (fun _ => passes_pure _) fun _ => ?_
  refine passes_condWaitQueue.bind fun _ => .ite (fun _ => ?_) fun _ => passes_pure _
  exact (passes_stopInstance _).bind fun _ => passes_pure _

/-- The worker passes the whole wait with nothing accounted. -/
theorem passes_workerWait : Passes recent cfg start .worker (workerWait cfg) := by
  refine (passes_lock (by rintro ⟨⟩)).bind fun _ => .ite (fun _ => ?_) fun _ => ?_
  · exact (passes_noteLifecycleError _).bind fun _ => passes_pure _
  refine (passes_iterate fun _ => passes_waitOnce.bind fun _ => passes_pure _).bind fun _ => ?_
  refine Passes.bind (passes_store fun _ => ⟨.of_ledger rfl rfl rfl rfl id, rfl⟩) fun _ => ?_
  refine passes_loadRunning.bind fun _ => (Passes.ite (fun _ => passes_pure _) fun _ =>
    passes_queueEmpty _).bind fun _ => ?_
  refine (passes_unlock (by rintro ⟨⟩)).bind fun _ => .ite (fun _ => ?_) fun _ => passes_pure _
  exact (passes_noteSynchronizationError _).bind fun _ => passes_pure _

/-- The last broadcast of the worker is passed. -/
theorem passes_finalBroadcast : Passes recent cfg start .worker finalBroadcast := by
  refine (passes_load _).bind fun _ => .ite (fun _ => passes_pure _) fun _ => ?_
  refine (passes_lock (by rintro ⟨⟩)).bind fun _ => .ite
    (fun _ => passes_noteLifecycleError _) fun _ => ?_
  exact (passes_unlock (by rintro ⟨⟩)).bind fun _ => passes_noteSynchronizationError _

end Worker

section Callers

/-- A failed notification stops the instance; the record stays counted as enqueued. -/
theorem passes_vlogNotifyFailed (error : ℤ) :
    Passes recent cfg start t (vlogNotifyFailed t error) := by
  refine (passes_noteIoError _).bind fun _ => (passes_noteLifecycleError _).bind fun _ => ?_
  refine (passes_load _).bind fun _ => .ite (fun _ => passes_noteSynchronizationError _) fun _ => ?_
  refine passes_wakeForce.bind fun _ => .ite (fun _ => ?_) fun _ => passes_pure _
  exact (passes_noteLifecycleError _).bind fun _ => (passes_load _).bind fun _ =>
    passes_noteSynchronizationError _

/-- The join of the worker is passed. -/
theorem passes_joinWorker : Passes recent cfg start t joinWorker := by
  refine passes_atomic fun s a b s' hact => ?_
  split_ifs at hact
  all_goals
    obtain ⟨-, rfl⟩ := Prod.mk.inj (Option.some.inj hact)
    exact .refl s

/-- Stopping the worker is passed. -/
theorem passes_stopWorker : Passes recent cfg start t (stopWorker t) := by
  refine Passes.bind (passes_store fun _ => ⟨.of_ledger rfl rfl rfl rfl id, rfl⟩) fun _ => ?_
  refine passes_wakeForce.bind fun _ => .ite (fun _ => ?_) fun _ => ?_
  · exact (passes_noteLifecycleError _).bind fun _ => (passes_load _).bind fun _ =>
      (passes_noteSynchronizationError _).bind fun _ => passes_pure _
  refine passes_joinWorker.bind fun _ => .ite (fun _ => ?_) fun _ => passes_pure _
  exact (passes_noteFirst _).bind fun _ => passes_pure _

end Callers

end CLogger.Instance
