import CLogger.Instance.Model

/-!
# Code that does not steer the worker

Most code of an instance leaves alone what decides when the worker sleeps and stops: formatting and
emission, the wait for progress, the synchronisation of the outputs. That holds as long as no lock
operation fails, since a failure stops the instance.

* `Inst.control`: the part that steers the worker; `Inst.progress`: the part of it that does not
  concern its sleep.
* `Calm`: code that does not change it; `loggerEmitStatus_calm`, `emitBatch_calm`,
  `loggerFlush_calm` and the others.
-/

namespace CLogger.Instance

open Concurrent

/-- The part of an instance that decides what the worker takes and when it stops. -/
structure Progress where
  ring : QueueSys ℕ
  waitMuError : ℤ
  accepting : Bool
  running : Bool
  workerDone : Bool
  synchronizationError : ℤ
  enqueued : ℕ
  asyncCompleted : ℕ
  published : ℕ → Bool
  counted : ℕ → List CallCounter
  logging : Finset ℕ
  reads : List WorkerRead
  cleanStop : Bool

/-- With it, the part that decides when the worker sleeps. -/
structure Control where
  progress : Progress
  consumerWaiting : Bool
  waiter : Option Bool
  waitOwner : Option InstThread
  place : InstThread → WakePlace

/-- The words of the progress, as far as the drain is concerned with them. -/
def Inst.progress (s : Inst) : Progress where
  ring := s.ring
  waitMuError := s.waitMuError
  accepting := s.accepting
  running := s.running
  workerDone := s.workerDone
  synchronizationError := s.synchronizationError
  enqueued := s.enqueued
  asyncCompleted := s.asyncCompleted
  published n := (s.history.calls n).published
  counted n := (s.history.calls n).counted
  logging := s.history.logging
  reads := s.history.reads
  cleanStop := s.history.cleanStop

/-- The words that decide when the worker stops and what it has taken. -/
def Inst.control (s : Inst) : Control where
  progress := s.progress
  consumerWaiting := s.consumerWaiting
  waiter := s.waiter
  waitOwner := s.owner .wait
  place := s.history.place

/-- The labels of code outside the wake-up protocol. -/
def InstLabel.Outside (label : InstLabel) : Prop := label = .other ∨ label = .count

/-- A step without a special label is outside the counting. -/
theorem outside_other : InstLabel.Outside .other := .inl rfl

/-- Code that does not steer the worker when the answers are `ok`, and returns values in `P`. -/
abbrev Calm (ok : InstReply → Prop) {α : Type} (P : α → Prop) (c : InstCode α) : Prop :=
  Quiet InstLabel.Outside ok Inst.control P c

section Operations

variable {ok : InstReply → Prop} {s : Inst} {t : InstThread}

/-- A look at a field keeps the control words. -/
theorem load_calm {α : Type} (field : Inst → α) : Calm ok (fun _ => True) (load field) := by
  refine Quiet.atomic (.inl rfl) fun s a b s' hact _ => ?_
  obtain ⟨rfl, rfl⟩ := Prod.mk.inj (Option.some.inj hact)
  exact ⟨rfl, trivial⟩

/-- So does a store to any other word. -/
theorem store_calm {set : Inst → Inst} (h : ∀ s, (set s).control = s.control) :
    Calm ok (fun _ => True) (store set) := by
  refine Quiet.atomic (.inl rfl) fun s a b s' hact _ => ?_
  obtain ⟨rfl, rfl⟩ := Prod.mk.inj (Option.some.inj hact)
  exact ⟨h s, trivial⟩

/-- So does a call of the environment. -/
theorem call_calm : Calm ok (fun _ => True) call := by
  refine Quiet.atomic (.inl rfl) fun s a b s' hact _ => ?_
  obtain ⟨rfl, rfl⟩ := Prod.mk.inj (Option.some.inj hact)
  exact ⟨rfl, trivial⟩

/-- A lock other than `wait_mu` does not steer the worker. -/
theorem own_control {mutex : InstMutex} (h : mutex ≠ .wait) (u : Option InstThread) :
    (s.own mutex u).control = s.control := by
  simp only [Inst.control, Inst.progress, Inst.own, Function.update_of_ne h.symm]

/-- The unlock of another mutex than `wait_mu` concerns no control word. -/
theorem unlocked_control {mutex : InstMutex} (h : mutex ≠ .wait) (a : InstReply) :
    (s.unlocked mutex a).control = s.control := by
  rw [Inst.unlocked]
  split
  · exact own_control h none
  · rfl

/-- A call of the file backend is calm. -/
theorem onFile_calm {α : Type} (m : FileProg α) : Calm ok (fun _ => True) (onFile m) := by
  refine quiet_embed outside_other ?_ m
  exact fun _ _ => rfl

/-- A write to standard error is calm. -/
theorem onStderr_calm {α : Type} (m : TapeProgram.Prog StderrWorld Answer α) :
    Calm ok (fun _ => True) (onStderr m) := by
  refine quiet_embed outside_other ?_ m
  exact fun _ _ => rfl

/-- A call of the syslog sink is calm. -/
theorem onSyslog_calm {α : Type} (m : SyslogProg α) : Calm ok (fun _ => True) (onSyslog m) := by
  refine quiet_embed outside_other ?_ m
  exact fun _ _ => rfl

variable (hok : ∀ a, ok a → a.pthread = 0)

include hok

/-- Another mutex than `wait_mu` is locked calmly, and the lock succeeds. -/
theorem lock_calm {mutex : InstMutex} (h : mutex ≠ .wait) :
    Calm ok (fun rc => rc = 0) (lock .other mutex t) := by
  refine Quiet.atomic (.inl rfl) fun s a b s' hact ha => ?_
  rw [if_neg (not_not.mpr (hok a ha))] at hact
  split at hact
  · obtain ⟨rfl, rfl⟩ := Prod.mk.inj (Option.some.inj hact)
    exact ⟨own_control h _, rfl⟩
  · exact absurd hact (by rintro ⟨⟩)

/-- It is unlocked calmly, and the unlock succeeds. -/
theorem unlock_calm {mutex : InstMutex} (h : mutex ≠ .wait) :
    Calm ok (fun rc => rc = 0) (unlock mutex) := by
  refine Quiet.atomic (.inl rfl) fun s a b s' hact ha => ?_
  obtain ⟨rfl, rfl⟩ := Prod.mk.inj (Option.some.inj hact)
  exact ⟨unlocked_control h a, by rw [hok a ha]; rfl⟩

/-- `emit_mu` is locked calmly. -/
theorem lockEmit_calm : Calm ok (fun r => r.1 = 0) (lockEmit t) := by
  refine Quiet.atomic (.inl rfl) fun s a b s' hact ha => ?_
  rw [if_neg (not_not.mpr (hok a ha))] at hact
  split at hact
  · obtain ⟨rfl, rfl⟩ := Prod.mk.inj (Option.some.inj hact)
    exact ⟨own_control (by rintro ⟨⟩) _, rfl⟩
  · exact absurd hact (by rintro ⟨⟩)

/-- It is unlocked calmly, and the section recorded. -/
theorem unlockEmit_calm (emission : ℤ → Sinks → Emission) :
    Calm ok (fun r => r.1 = 0) (unlockEmit emission) := by
  refine Quiet.atomic (.inl rfl) fun s a b s' hact ha => ?_
  obtain ⟨rfl, rfl⟩ := Prod.mk.inj (Option.some.inj hact)
  refine ⟨?_, by rw [hok a ha]; rfl⟩
  exact unlocked_control (by rintro ⟨⟩) a

end Operations

section Errors

variable {ok : InstReply → Prop}

/-- The note of an output error is calm. -/
theorem loggerNoteIoError_calm (error : ℤ) : Calm ok (fun _ => True) (loggerNoteIoError error) :=
  Quiet.ite (fun _ => Quiet.pure trivial) fun _ => store_calm fun _ => rfl

/-- So is the note of a result, which is kept only if it is a failure. -/
theorem noteFailure_calm (rc : ℤ) : Calm ok (fun _ => True) (noteFailure rc) :=
  Quiet.ite (fun _ => loggerNoteIoError_calm _) fun _ => Quiet.pure trivial

/-- Success is not noted. -/
theorem loggerNoteSynchronizationError_calm {error : ℤ} (h : error = 0) :
    Calm ok (fun _ => True) (loggerNoteSynchronizationError error) := by
  rw [loggerNoteSynchronizationError, if_pos h]
  exact Quiet.pure trivial

end Errors

section Emission

variable {ok : InstReply → Prop} {cfg : InstConfig} {t : InstThread}

/-- Formatting a record is calm, whether it succeeds or not. -/
theorem formatRecord_calm (m : LoggerMessage) (strict : Bool) :
    Calm ok (fun _ => True) (formatRecord cfg t m strict) := by
  refine Quiet.atomic (.inl rfl) fun s a b s' hact _ => ?_
  obtain ⟨rfl, rfl⟩ := Prod.mk.inj (Option.some.inj hact)
  exact ⟨rfl, trivial⟩

/-- The count of failed records is no control word. -/
theorem countFailed_calm (bad : ℕ) : Calm ok (fun _ => True) (countFailed t bad) :=
  store_calm fun _ => rfl

/-- Nor is the count of emitted records. -/
theorem countEmitted_calm {label : InstLabel} (h : label.Outside) (good : ℕ)
    (e : Option Emission) : Calm ok (fun _ => True) (countEmitted label t good e) := by
  refine Quiet.atomic h fun s a b s' hact _ => ?_
  obtain ⟨rfl, rfl⟩ := Prod.mk.inj (Option.some.inj hact)
  exact ⟨rfl, trivial⟩

/-- Nor is the count of completed synchronous records. -/
theorem completeSync_calm : Calm ok (fun _ => True) (completeSync t) := by
  refine Quiet.atomic (.inr rfl) fun s a b s' hact _ => ?_
  obtain ⟨rfl, rfl⟩ := Prod.mk.inj (Option.some.inj hact)
  exact ⟨rfl, trivial⟩

/-- A record that cannot be formatted is counted calmly. -/
theorem refuseRecord_calm (error : ℤ) : Calm ok (fun _ => True) (refuseRecord t error) := by
  refine Quiet.bind (loggerNoteIoError_calm error) fun _ _ => ?_
  refine Quiet.bind (countFailed_calm 1) fun _ _ => ?_
  exact Quiet.bind completeSync_calm fun _ _ => Quiet.pure trivial

/-- The outputs of a single line are written calmly. -/
theorem emitLine_calm (m : LoggerMessage) (line : List UInt8) (forceSync : Bool) :
    Calm ok (fun _ => True) (emitLine cfg m line forceSync) := by
  refine Quiet.bind (P := fun _ => True) ?_ fun _ _ => Quiet.bind (P := fun _ => True) ?_
    fun _ _ => ?_
  · exact Quiet.ite (fun _ => onStderr_calm _) fun _ => Quiet.pure trivial
  · refine Quiet.ite (fun _ => ?_) fun _ => Quiet.pure trivial
    exact Quiet.bind (onFile_calm _) fun _ _ => Quiet.pure trivial
  · refine Quiet.ite (fun _ => ?_) fun _ => Quiet.pure trivial
    exact Quiet.bind (onSyslog_calm _) fun _ _ => Quiet.pure trivial

/-- A single line is accounted calmly. -/
theorem accountLine_calm (rc : ℤ) (e : Emission) :
    Calm ok (fun _ => True) (accountLine t rc e) := by
  refine Quiet.ite (fun _ => ?_) fun _ => countEmitted_calm (.inl rfl) 1 _
  exact Quiet.bind (loggerNoteIoError_calm _) fun _ _ => countFailed_calm 1

/-- The lines of a batch are formatted calmly, one after the other. -/
theorem formatBatch_calm (batch : List LoggerMessage) :
    Calm ok (fun _ => True) (formatBatch cfg batch) := by
  induction batch with
  | nil => exact Quiet.pure trivial
  | cons m ms ih =>
    refine Quiet.bind (formatRecord_calm m false) fun r _ => ?_
    exact Quiet.bind ih fun rs _ => Quiet.pure trivial

/-- The lines of a batch are sent calmly, one after the other. -/
theorem emitSyslog_calm (lines : List (LoggerMessage × List UInt8)) :
    Calm ok (fun _ => True) (emitSyslog lines) := by
  induction lines with
  | nil => exact Quiet.pure trivial
  | cons line rest ih =>
    obtain ⟨m, line⟩ := line
    refine Quiet.bind (onSyslog_calm _) fun rc _ => ?_
    refine Quiet.bind (noteFailure_calm rc) fun _ _ => ?_
    exact Quiet.bind ih fun failed _ => Quiet.pure trivial

/-- The outputs of a batch are written calmly. -/
theorem emitLines_calm (batch : List LoggerMessage) (lines : List (List UInt8)) :
    Calm ok (fun _ => True) (emitLines cfg batch lines) := by
  refine Quiet.bind (P := fun _ => True) ?_ fun stderrRc _ => ?_
  · exact Quiet.ite (fun _ => onStderr_calm _) fun _ => Quiet.pure trivial
  refine Quiet.bind (noteFailure_calm stderrRc) fun _ _ => ?_
  refine Quiet.bind (P := fun _ => True) ?_ fun fileRc _ => ?_
  · exact Quiet.ite (fun _ => onFile_calm _) fun _ => Quiet.pure trivial
  refine Quiet.bind (noteFailure_calm fileRc) fun _ _ => ?_
  refine Quiet.bind (P := fun _ => True) ?_ fun failed _ => Quiet.pure trivial
  exact Quiet.ite (fun _ => emitSyslog_calm _) fun _ => Quiet.pure trivial

/-- A batch is accounted calmly. -/
theorem accountBatch_calm (failed : List Bool) (e : Option Emission) :
    Calm ok (fun _ => True) (accountBatch failed e) :=
  Quiet.bind (countFailed_calm _) fun _ _ => countEmitted_calm (.inr rfl) _ e

variable (hok : ∀ a, ok a → a.pthread = 0)

include hok

/-- `logger_emit_status` keeps the control words: its sections are under `emit_mu`. -/
theorem loggerEmitStatus_calm (m : LoggerMessage) (forceSync : Bool) :
    Calm ok (fun _ => True) (loggerEmitStatus cfg t m forceSync) := by
  refine Quiet.bind (formatRecord_calm m forceSync) fun r _ => ?_
  refine Quiet.ite (fun _ => Quiet.pure trivial) fun _ => ?_
  refine Quiet.ite (fun _ => refuseRecord_calm _) fun _ => ?_
  refine Quiet.bind (load_calm _) fun syncError _ => ?_
  refine Quiet.ite (fun _ => refuseRecord_calm _) fun _ => ?_
  refine Quiet.bind (lockEmit_calm hok) ?_
  rintro ⟨lockRc, before⟩ -
  refine Quiet.ite (fun _ => refuseRecord_calm _) fun _ => ?_
  refine Quiet.bind (emitLine_calm m _ forceSync) fun rc _ => ?_
  refine Quiet.bind (unlockEmit_calm hok _) ?_
  rintro ⟨unlockRc, emission⟩ hunlock
  refine Quiet.bind (loggerNoteSynchronizationError_calm hunlock) fun _ _ => ?_
  refine Quiet.bind (accountLine_calm _ emission) fun _ _ => ?_
  exact Quiet.bind completeSync_calm fun _ _ => Quiet.pure trivial

/-- `emit_batch` keeps the control words. -/
theorem emitBatch_calm (batch : List LoggerMessage) :
    Calm ok (fun _ => True) (emitBatch cfg batch) := by
  refine Quiet.bind (formatBatch_calm batch) fun results _ => ?_
  split
  · exact Quiet.bind (loggerNoteIoError_calm _) fun _ _ => accountBatch_calm _ _
  refine Quiet.bind (lockEmit_calm hok) ?_
  rintro ⟨lockRc, before⟩ hlock
  refine Quiet.ite (fun hfailed => absurd hlock hfailed) fun _ => ?_
  refine Quiet.bind (emitLines_calm batch _) ?_
  rintro ⟨all, failed⟩ -
  refine Quiet.bind (unlockEmit_calm hok _) ?_
  rintro ⟨unlockRc, emission⟩ hunlock
  refine Quiet.bind (P := fun _ => True) ?_ fun _ _ => accountBatch_calm _ _
  exact Quiet.ite (fun hfailed => absurd hunlock hfailed) fun _ => Quiet.pure trivial

end Emission

section Worker

variable {ok : InstReply → Prop} (hok : ∀ a, ok a → a.pthread = 0)

include hok

/-- The publication of the progress keeps them and lets the worker go on. -/
theorem publishProgress_calm : Calm ok (fun again => again = true) publishProgress := by
  refine Quiet.bind (lock_calm hok (by rintro ⟨⟩)) fun lockRc hlock => ?_
  refine Quiet.ite (fun hfailed => absurd hlock hfailed) fun _ => ?_
  refine Quiet.bind (load_calm _) fun pos _ => ?_
  refine Quiet.bind (store_calm fun _ => rfl) fun _ _ => ?_
  refine Quiet.bind (unlock_calm hok (by rintro ⟨⟩)) fun unlockRc hunlock => ?_
  exact Quiet.ite (fun hfailed => absurd hunlock hfailed) fun _ => Quiet.pure rfl

/-- So does the last broadcast of the worker. -/
theorem finalBroadcast_calm : Calm ok (fun _ => True) finalBroadcast := by
  refine Quiet.bind (load_calm _) fun error _ => ?_
  refine Quiet.ite (fun _ => Quiet.pure trivial) fun _ => ?_
  refine Quiet.bind (lock_calm hok (by rintro ⟨⟩)) fun rc hlock => ?_
  refine Quiet.ite (fun hfailed => absurd hlock hfailed) fun _ => ?_
  refine Quiet.bind (unlock_calm hok (by rintro ⟨⟩)) fun unlockRc hunlock => ?_
  exact loggerNoteSynchronizationError_calm hunlock

end Worker

section Calls

variable {ok : InstReply → Prop} {cfg : InstConfig} {t : InstThread}

/-- That a record has been formatted does not steer the worker. -/
theorem formatted_control {s : Inst} (n : ℕ) (level : LoggerLevel) :
    (s.record fun h => { h with
      calls := Function.update h.calls n { h.calls n with formatted := some level } }).control =
      s.control := by
  have hcalls : ∀ {α : Type} (f : CallLog → α) (m : ℕ),
      f { s.history.calls n with formatted := some level } = f (s.history.calls n) →
      f (Function.update s.history.calls n
        { s.history.calls n with formatted := some level } m) = f (s.history.calls m) := by
    intro α f m hf
    by_cases hm : m = n
    · subst hm
      rwa [Function.update_self]
    · rw [Function.update_of_ne hm]
  have hpublished := fun m => hcalls CallLog.published m rfl
  have hcounted := fun m => hcalls CallLog.counted m rfl
  simp only [Inst.control, Inst.progress, Inst.record, hpublished, hcounted]

/-- The formatting of the text of a record is calm. -/
theorem formatText_calm (n : ℕ) (c : VlogCall) : Calm ok (fun _ => True) (formatText n c) := by
  refine Quiet.bind call_calm fun clock _ => Quiet.ite (fun _ => Quiet.pure trivial) fun _ => ?_
  refine Quiet.atomic (.inl rfl) fun s a b s' hact _ => ?_
  split at hact
  · obtain ⟨rfl, rfl⟩ := Prod.mk.inj (Option.some.inj hact)
    exact ⟨formatted_control n c.level, trivial⟩
  · obtain ⟨rfl, rfl⟩ := Prod.mk.inj (Option.some.inj hact)
    exact ⟨rfl, trivial⟩

/-- The sleep of a flush is calm. -/
theorem condWaitProgress_calm : Calm ok (fun _ => True) (condWaitProgress t) := by
  refine Quiet.bind (P := fun _ => True) ?_ fun error _ =>
    Quiet.ite (fun _ => Quiet.pure trivial) fun _ => ?_
  · refine Quiet.atomic (.inl rfl) fun s a b s' hact _ => ?_
    split at hact
    · obtain ⟨rfl, rfl⟩ := Prod.mk.inj (Option.some.inj hact)
      exact ⟨rfl, trivial⟩
    · obtain ⟨rfl, rfl⟩ := Prod.mk.inj (Option.some.inj hact)
      exact ⟨own_control (by rintro ⟨⟩) none, trivial⟩
  · refine Quiet.atomic (.inl rfl) fun s a b s' hact _ => ?_
    split at hact
    · obtain ⟨rfl, rfl⟩ := Prod.mk.inj (Option.some.inj hact)
      exact ⟨own_control (by rintro ⟨⟩) _, trivial⟩
    · exact absurd hact (by rintro ⟨⟩)

/-- A flush waits for its target calmly, for any number of rounds. -/
theorem waitCompleted_calm (target : ℕ) : Calm ok (fun _ => True) (waitCompleted cfg t target) := by
  refine Quiet.iterate (.inl rfl) fun _ => ?_
  refine Quiet.bind (load_calm _) fun error _ => ?_
  refine Quiet.ite (fun _ => Quiet.pure trivial) fun _ => ?_
  refine Quiet.bind (load_calm _) ?_
  rintro ⟨reached, counted⟩ -
  refine Quiet.ite (fun _ => Quiet.pure trivial) fun _ => ?_
  refine Quiet.bind condWaitProgress_calm fun rc _ => ?_
  split
  · exact Quiet.pure trivial
  · exact Quiet.pure trivial

/-- The synchronisation of the file under `emit_mu` is calm. -/
theorem loggerSyncOutputsLocked_calm (before : FileWorld) :
    Calm ok (fun _ => True) (loggerSyncOutputsLocked cfg before) := by
  refine Quiet.bind (P := fun _ => True) ?_ fun fileRc _ => ?_
  · exact Quiet.ite (fun _ => onFile_calm _) fun _ => Quiet.pure trivial
  exact Quiet.bind (noteFailure_calm fileRc) fun _ _ => load_calm _

/-- Setting the level does not steer the worker. -/
theorem loggerSetInstanceLevel_calm (level : LoggerLevel) :
    Calm ok (fun _ => True) (loggerSetInstanceLevel level) :=
  Quiet.ite (fun _ => Quiet.pure trivial) fun _ => store_calm fun _ => rfl

variable (hok : ∀ a, ok a → a.pthread = 0)

include hok

/-- A synchronous record is logged calmly. -/
theorem loggerLogSyncStatus_calm (n : ℕ) (c : VlogCall) :
    Calm ok (fun _ => True) (loggerLogSyncStatus cfg n c) := by
  refine Quiet.bind (load_calm _) fun accepting _ => ?_
  refine Quiet.ite (fun _ => Quiet.pure trivial) fun _ => ?_
  refine Quiet.bind (load_calm _) fun level _ => ?_
  refine Quiet.ite (fun _ => Quiet.pure trivial) fun _ => ?_
  refine Quiet.bind call_calm fun clock _ => Quiet.bind call_calm fun text _ => ?_
  refine Quiet.ite (fun _ => Quiet.pure trivial) fun _ => ?_
  refine Quiet.bind (load_calm _) fun since _ => ?_
  exact Quiet.bind (loggerEmitStatus_calm hok _ true) fun rc _ => store_calm fun _ => rfl

/-- A flush waits for the output calmly. -/
theorem loggerWaitForOutput_calm : Calm ok (fun _ => True) (loggerWaitForOutput cfg t) := by
  refine Quiet.bind (load_calm _) fun syncError _ => ?_
  refine Quiet.ite (fun _ => Quiet.pure trivial) fun _ => ?_
  refine Quiet.bind (P := fun _ => True) (Quiet.ite (fun _ => ?_) fun _ => Quiet.pure trivial) ?_
  · refine Quiet.bind (load_calm _) fun target _ => ?_
    refine Quiet.bind (lock_calm hok (by rintro ⟨⟩)) fun rc _ => ?_
    refine Quiet.ite (fun _ => Quiet.pure trivial) fun _ => ?_
    refine Quiet.bind (waitCompleted_calm target) ?_
    rintro ⟨result, counted⟩ -
    refine Quiet.bind (unlock_calm hok (by rintro ⟨⟩)) fun unlockRc hunlock => ?_
    exact Quiet.bind (loggerNoteSynchronizationError_calm hunlock) fun _ _ => Quiet.pure trivial
  · rintro ⟨rc, target, counted⟩ -
    refine Quiet.ite (fun _ => Quiet.pure trivial) fun _ => ?_
    exact Quiet.bind (load_calm _) fun error _ => Quiet.pure trivial

/-- The end of a section of a flush is calm. -/
theorem leaveEmit_calm (rc : ℤ) : Calm ok (fun _ => True) (leaveEmit rc) := by
  refine Quiet.bind (unlock_calm hok (by rintro ⟨⟩)) fun unlockRc hunlock => ?_
  exact Quiet.bind (loggerNoteSynchronizationError_calm hunlock) fun _ _ => Quiet.pure trivial

/-- A flush looks at the errors and synchronises calmly. -/
theorem flushOutputs_calm : Calm ok (fun _ => True) (flushOutputs cfg t) := by
  refine Quiet.bind (load_calm _) fun syncError _ => ?_
  refine Quiet.ite (fun _ => Quiet.pure trivial) fun _ => ?_
  refine Quiet.bind (lockEmit_calm hok) ?_
  rintro ⟨lockRc, before⟩ -
  refine Quiet.ite (fun _ => Quiet.pure trivial) fun _ => ?_
  refine Quiet.bind (loggerSyncOutputsLocked_calm _) ?_
  rintro ⟨rc, look⟩ -
  exact Quiet.bind (leaveEmit_calm hok rc) fun _ _ => Quiet.pure trivial

/-- `logger_flush` keeps the control words. -/
theorem loggerFlush_calm : Calm ok (fun _ => True) (loggerFlush cfg t) := by
  refine Quiet.bind (load_calm _) fun accepting _ => ?_
  refine Quiet.ite (fun _ => Quiet.pure trivial) fun _ => ?_
  refine Quiet.bind (loggerWaitForOutput_calm hok) ?_
  rintro ⟨rc, target, waited⟩ -
  refine Quiet.bind (flushOutputs_calm hok) ?_
  rintro ⟨syncRc, look⟩ -
  exact store_calm fun _ => rfl

/-- `logger_reopen` keeps them too. -/
theorem loggerReopen_calm : Calm ok (fun _ => True) (loggerReopen cfg t) := by
  refine Quiet.bind (load_calm _) fun accepting _ => ?_
  refine Quiet.ite (fun _ => Quiet.pure trivial) fun _ => ?_
  refine Quiet.bind (lockEmit_calm hok) ?_
  rintro ⟨lockRc, before⟩ -
  refine Quiet.ite (fun _ => Quiet.pure trivial) fun _ => ?_
  refine Quiet.bind (onFile_calm _) fun rc _ => ?_
  refine Quiet.bind (noteFailure_calm rc) fun _ _ => ?_
  exact Quiet.bind (leaveEmit_calm hok rc) fun _ _ => Quiet.pure trivial

end Calls

end CLogger.Instance
