import CLogger.Instance.Ring
import Mathlib.Algebra.BigOperators.Group.Finset.Basic

/-!
# Shutdown drains the queue

The worker returns only after it has read `running` as zero and, after that, the slot of
`dequeue_pos` as unpublished. What it has taken until then is accounted. When `dispose_body` has
stopped an instance in which no logging call was in progress, that is every record.

The proof is by rely and guarantee, for the runs in which no lock operation fails. Positions that
have been reserved are either counted in `enqueued` or owed by a logging call in progress.

* `DrainInv`, `drainLogic`.
* `CallerActs`, `WorkerActs`: what callers and the worker may do.
* `worker_drains`.
-/

namespace CLogger.Instance

open Concurrent TransitionSystem

variable {g : QueueGeometry} {cfg : InstConfig} {s s' s'' : Inst} {t u : InstThread} {n : ℕ}

section Invariant

/-- The records of a logging call that have a position and are not counted as enqueued yet. -/
def owed (s : Inst) (n : ℕ) : ℕ :=
  packed (s.ring.push n) +
    if (s.history.calls n).published = true ∧ .enqueued ∉ (s.history.calls n).counted then 1 else 0

/-- The instance has been stopped, and nothing is on its way into the queue. -/
structure Quiesced (s : Inst) : Prop where
  running : s.running = false
  accepting : s.accepting = false
  idle : ∀ n, s.ring.push n = .idle
  enqueued : s.ring.reserved.length = s.enqueued

/-- What the worker has found and done when it returns. -/
structure Finished (s : Inst) : Prop where
  idle : s.ring.pop = .idle
  accounted : s.asyncCompleted = s.ring.popped.length
  running : s.running = false
  reads : ∃ earlier, s.history.reads =
    earlier ++ [.running false, .head s.ring.q.dequeuePos false]
  clean : s.history.cleanStop = true → s.ring.popped.length = s.ring.reserved.length

/-- What holds in every state while no lock operation fails. -/
structure DrainInv (g : QueueGeometry) (s : Inst) : Prop where
  ring : QueueReachable g s.ring
  waitMuError : s.waitMuError = 0
  synchronizationError : s.synchronizationError = 0
  /-- Pushes belong to logging calls. -/
  outside : ∀ n, n ∉ s.history.logging → s.ring.push n = .idle
  owed : s.ring.reserved.length = s.enqueued + ∑ n ∈ s.history.logging, owed s n
  clean : s.history.cleanStop = true → Quiesced s
  done : s.workerDone = true → Finished s

/-- What the callers do while the worker runs. -/
structure WorkerRely (s s' : Inst) : Prop where
  pop : s'.ring.pop = s.ring.pop
  popped : s'.ring.popped = s.ring.popped
  dequeuePos : s'.ring.q.dequeuePos = s.ring.q.dequeuePos
  asyncCompleted : s'.asyncCompleted = s.asyncCompleted
  reads : s'.history.reads = s.history.reads
  workerDone : s'.workerDone = s.workerDone
  running : s.running = false → s'.running = false
  /-- A stop is clean only if it is the first one. -/
  cleanStop : s.running = false → s'.history.cleanStop = s.history.cleanStop
  reserved : s.history.cleanStop = true →
    s'.history.cleanStop = true ∧ s'.ring.reserved = s.ring.reserved

/-- What the other threads do while caller `n` runs. -/
structure CallerRely (n : ℕ) (s s' : Inst) : Prop where
  push : s'.ring.push n = s.ring.push n
  logging : n ∈ s'.history.logging ↔ n ∈ s.history.logging
  published : (s'.history.calls n).published = (s.history.calls n).published
  counted : (s'.history.calls n).counted = (s.history.calls n).counted
  accepting : s.accepting = false → s'.accepting = false
  /-- A stop is not clean while a logging call is in progress. -/
  cleanStop : n ∈ s.history.logging → s'.history.cleanStop = s.history.cleanStop

/-- A step that does nothing is one the worker can rely on. -/
theorem WorkerRely.refl : WorkerRely s s :=
  ⟨rfl, rfl, rfl, rfl, rfl, rfl, id, fun _ => rfl, fun hc => ⟨hc, rfl⟩⟩

/-- And a caller can. -/
theorem CallerRely.refl : CallerRely n s s := ⟨rfl, Iff.rfl, rfl, rfl, id, fun _ => rfl⟩

/-- Other threads do not change what a caller owes. -/
theorem CallerRely.owed (h : CallerRely n s s') : owed s' n = owed s n := by
  rw [Instance.owed, Instance.owed, h.push, h.published, h.counted]

/-- What the other threads do while thread `t` runs. -/
def DrainRely : InstThread → Inst → Inst → Prop
  | .worker => WorkerRely
  | .caller n => CallerRely n

/-- What a thread relies on holds of a step that does nothing. -/
theorem DrainRely.refl : DrainRely t s s := by
  cases t with
  | worker => exact WorkerRely.refl
  | caller n => exact CallerRely.refl

/-- It holds over two steps when it holds over each. -/
theorem DrainRely.trans (h : DrainRely t s s') (h' : DrainRely t s' s'') : DrainRely t s s'' := by
  cases t with
  | worker =>
    refine ⟨h'.pop.trans h.pop, h'.popped.trans h.popped, h'.dequeuePos.trans h.dequeuePos,
      h'.asyncCompleted.trans h.asyncCompleted, h'.reads.trans h.reads,
      h'.workerDone.trans h.workerDone, fun hr => h'.running (h.running hr),
      fun hr => (h'.cleanStop (h.running hr)).trans (h.cleanStop hr), fun hc => ?_⟩
    obtain ⟨hc', hreserved⟩ := h.reserved hc
    obtain ⟨hc'', hreserved'⟩ := h'.reserved hc'
    exact ⟨hc'', hreserved'.trans hreserved⟩
  | caller n =>
    exact ⟨h'.push.trans h.push, h'.logging.trans h.logging, h'.published.trans h.published,
      h'.counted.trans h.counted, fun ha => h'.accepting (h.accepting ha),
      fun hn => (h'.cleanStop (h.logging.mpr hn)).trans (h.cleanStop hn)⟩

/-- The rely-guarantee setting of the shutdown. -/
def drainLogic (g : QueueGeometry) : Logic Inst InstReply InstLabel InstThread where
  Inv := DrainInv g
  Guar _ _ := True
  guar_refl _ := trivial
  guar_trans _ _ := trivial
  Rely := DrainRely
  rely_refl _ _ := .refl
  rely_trans := .trans
  At _ _ _ := True
  ok s _ a _ := a.pthread = 0 ∧ Fresh g s.ring

/-- A step of thread `t` keeps the invariant, and does what the others rely on. -/
def Drains (g : QueueGeometry) (t : InstThread) (s s' : Inst) : Prop :=
  DrainInv g s' ∧ ∀ u, u ≠ t → DrainRely u s s'

/-- What a returned worker has found stays true. -/
theorem Finished.rely (h : Finished s) (hrely : WorkerRely s s') : Finished s' := by
  refine ⟨hrely.pop.trans h.idle, ?_, hrely.running h.running, ?_, fun hc => ?_⟩
  · rw [hrely.asyncCompleted, hrely.popped]
    exact h.accounted
  · rw [hrely.reads, hrely.dequeuePos]
    exact h.reads
  · rw [hrely.cleanStop h.running] at hc
    rw [hrely.popped, (hrely.reserved hc).2]
    exact h.clean hc

end Invariant

section Steps

/-- The reserved and uncounted records of caller `n`, if it is in a logging call. -/
def owedBy (s : Inst) (n : ℕ) : ℕ := if n ∈ s.history.logging then owed s n else 0

/-- A call that is logging owes what it has packed and not counted. -/
theorem owedBy_of_mem (h : n ∈ s.history.logging) : owedBy s n = owed s n := if_pos h

/-- The debt of all calls, with that of one of them set apart. -/
theorem sum_owed (s : Inst) (n : ℕ) : ∑ m ∈ s.history.logging, owed s m =
    owedBy s n + ∑ m ∈ s.history.logging.erase n, owed s m := by
  rw [owedBy]
  split
  · rename_i hn
    exact (Finset.add_sum_erase _ _ hn).symm
  · rename_i hn
    rw [Finset.erase_eq_of_notMem hn, Nat.zero_add]

/-- What a caller may do. -/
structure CallerActs (g : QueueGeometry) (n : ℕ) (s s' : Inst) : Prop where
  ring : QueueReachable g s'.ring
  waitMuError : s'.waitMuError = s.waitMuError
  synchronizationError : s'.synchronizationError = s.synchronizationError
  worker : WorkerRely s s'
  others : ∀ m, m ≠ n → CallerRely m s s'
  outside : n ∉ s'.history.logging → s'.ring.push n = .idle
  clean : s'.history.cleanStop = true → Quiesced s'
  /-- A reservation is owed until it is counted. -/
  owed : s'.ring.reserved.length + s.enqueued + owedBy s n =
    s.ring.reserved.length + s'.enqueued + owedBy s' n

/-- A step of a caller keeps the balance when it changes what the caller owes as it changes the
counters. -/
theorem CallerActs.drains (h : CallerActs g n s s') (hs : DrainInv g s) :
    Drains g (.caller n) s s' := by
  refine ⟨⟨h.ring, h.waitMuError.trans hs.waitMuError,
    h.synchronizationError.trans hs.synchronizationError, fun m hm => ?_, ?_, h.clean,
    fun hd => ?_⟩, fun u hu => ?_⟩
  · by_cases hmn : m = n
    · rw [hmn] at hm ⊢
      exact h.outside hm
    · rw [(h.others m hmn).logging] at hm
      exact (h.others m hmn).push.trans (hs.outside m hm)
  · -- only the debt of the caller itself may have changed
    have herase : s'.history.logging.erase n = s.history.logging.erase n := by
      ext m
      rw [Finset.mem_erase, Finset.mem_erase]
      exact and_congr_right fun hmn => (h.others m hmn).logging
    have hsum : ∑ m ∈ s'.history.logging.erase n, Instance.owed s' m =
        ∑ m ∈ s.history.logging.erase n, Instance.owed s m := by
      rw [herase]
      exact Finset.sum_congr rfl fun m hm => (h.others m (Finset.ne_of_mem_erase hm)).owed
    have howed := hs.owed
    have hthis := h.owed
    rw [sum_owed s n] at howed
    rw [sum_owed s' n, hsum]
    omega
  · rw [h.worker.workerDone] at hd
    exact (hs.done hd).rely h.worker
  · cases u with
    | worker => exact h.worker
    | caller m => exact h.others m fun hmn => hu (congrArg _ hmn)

/-- What the worker may do. -/
structure WorkerActs (g : QueueGeometry) (s s' : Inst) : Prop where
  ring : QueueReachable g s'.ring
  waitMuError : s'.waitMuError = s.waitMuError
  synchronizationError : s'.synchronizationError = s.synchronizationError
  push : s'.ring.push = s.ring.push
  reserved : s'.ring.reserved = s.ring.reserved
  calls : s'.history.calls = s.history.calls
  logging : s'.history.logging = s.history.logging
  cleanStop : s'.history.cleanStop = s.history.cleanStop
  enqueued : s'.enqueued = s.enqueued
  accepting : s.accepting = false → s'.accepting = false
  running : s.running = false → s'.running = false
  done : s'.workerDone = true → Finished s'

/-- A step of the worker keeps it when what it takes is accounted or still in its batch. -/
theorem WorkerActs.drains (h : WorkerActs g s s') (hs : DrainInv g s) : Drains g .worker s s' := by
  refine ⟨⟨h.ring, h.waitMuError.trans hs.waitMuError,
    h.synchronizationError.trans hs.synchronizationError, fun n hn => ?_, ?_, fun hc => ?_,
    h.done⟩, fun u hu => ?_⟩
  · rw [h.push]
    exact hs.outside n (h.logging ▸ hn)
  · have howed : ∀ n, Instance.owed s' n = Instance.owed s n := by
      intro n
      rw [Instance.owed, Instance.owed, h.push, h.calls]
    rw [h.reserved, h.enqueued, h.logging, Finset.sum_congr rfl fun n _ => howed n]
    exact hs.owed
  · have hquiet := hs.clean (h.cleanStop ▸ hc)
    refine ⟨h.running hquiet.running, h.accepting hquiet.accepting, fun n => ?_, ?_⟩
    · rw [h.push]
      exact hquiet.idle n
    · rw [h.reserved, h.enqueued]
      exact hquiet.enqueued
  · cases u with
    | worker => exact absurd rfl hu
    | caller n =>
      refine ⟨congrFun h.push n, by rw [h.logging], ?_, ?_, h.accepting, fun _ => h.cleanStop⟩
      · rw [h.calls]
      · rw [h.calls]

/-- A step that at most stops the instance, and does not count that as a clean stop. -/
structure Harmless (s s' : Inst) : Prop where
  ring : s'.ring = s.ring
  waitMuError : s'.waitMuError = s.waitMuError
  synchronizationError : s'.synchronizationError = s.synchronizationError
  workerDone : s'.workerDone = s.workerDone
  enqueued : s'.enqueued = s.enqueued
  asyncCompleted : s'.asyncCompleted = s.asyncCompleted
  published : ∀ n, (s'.history.calls n).published = (s.history.calls n).published
  counted : ∀ n, (s'.history.calls n).counted = (s.history.calls n).counted
  logging : s'.history.logging = s.history.logging
  reads : s'.history.reads = s.history.reads
  cleanStop : s'.history.cleanStop = s.history.cleanStop
  accepting : s.accepting = false → s'.accepting = false
  running : s.running = false → s'.running = false

/-- A step outside the words of the progress is harmless. -/
theorem Harmless.of_progress (h : s'.progress = s.progress) : Harmless s s' where
  ring := congrArg Progress.ring h
  waitMuError := congrArg Progress.waitMuError h
  synchronizationError := congrArg Progress.synchronizationError h
  workerDone := congrArg Progress.workerDone h
  enqueued := congrArg Progress.enqueued h
  asyncCompleted := congrArg Progress.asyncCompleted h
  published := congrFun (congrArg Progress.published h)
  counted := congrFun (congrArg Progress.counted h)
  logging := congrArg Progress.logging h
  reads := congrArg Progress.reads h
  cleanStop := congrArg Progress.cleanStop h
  accepting ha := (congrArg Progress.accepting h).trans ha
  running hr := (congrArg Progress.running h).trans hr

/-- Doing nothing is harmless. -/
theorem Harmless.refl (s : Inst) : Harmless s s := .of_progress rfl

/-- The worker can rely on harmless steps. -/
theorem Harmless.worker (h : Harmless s s') : WorkerRely s s' where
  pop := by rw [h.ring]
  popped := by rw [h.ring]
  dequeuePos := by rw [h.ring]
  asyncCompleted := h.asyncCompleted
  reads := h.reads
  workerDone := h.workerDone
  running := h.running
  cleanStop _ := h.cleanStop
  reserved hc := ⟨h.cleanStop.trans hc, by rw [h.ring]⟩

/-- So can every caller. -/
theorem Harmless.caller (h : Harmless s s') (n : ℕ) : CallerRely n s s' where
  push := by rw [h.ring]
  logging := by rw [h.logging]
  published := h.published n
  counted := h.counted n
  accepting := h.accepting
  cleanStop _ := h.cleanStop

/-- So can every thread. -/
theorem Harmless.rely (h : Harmless s s') : DrainRely t s s' := by
  cases t with
  | worker => exact h.worker
  | caller n => exact h.caller n

/-- A harmless step changes no debt. -/
theorem Harmless.owed (h : Harmless s s') (n : ℕ) : owed s' n = owed s n := by
  rw [Instance.owed, Instance.owed, h.ring, h.published, h.counted]

/-- It keeps the balance. -/
theorem Harmless.inv (h : Harmless s s') (hs : DrainInv g s) : DrainInv g s' := by
  refine ⟨by rw [h.ring]; exact hs.ring, h.waitMuError.trans hs.waitMuError,
    h.synchronizationError.trans hs.synchronizationError, fun n hn => ?_, ?_, fun hc => ?_,
    fun hd => ?_⟩
  · rw [h.ring]
    exact hs.outside n (h.logging ▸ hn)
  · rw [h.ring, h.enqueued, h.logging, Finset.sum_congr rfl fun n _ => h.owed n]
    exact hs.owed
  · have hquiet := hs.clean (h.cleanStop ▸ hc)
    refine ⟨h.running hquiet.running, h.accepting hquiet.accepting, fun n => ?_, ?_⟩
    · rw [h.ring]
      exact hquiet.idle n
    · rw [h.ring, h.enqueued]
      exact hquiet.enqueued
  · rw [h.workerDone] at hd
    exact (hs.done hd).rely h.worker

/-- It is a step of the drain. -/
theorem Harmless.drains (h : Harmless s s') (hs : DrainInv g s) : Drains g t s s' :=
  ⟨h.inv hs, fun _ _ => h.rely⟩

end Steps

section Steady

variable {α : Type}

/-- Code that neither moves the queue nor stops the instance, while the lock operations succeed. -/
abbrev Steady (P : α → Prop) (c : InstCode α) : Prop :=
  Quiet (fun _ => True) (fun a => a.pthread = 0) Inst.progress P c

/-- Code that keeps the control words is steady. -/
theorem steady_of_calm {P : α → Prop} {c : InstCode α} (h : Calm (fun a => a.pthread = 0) P c) :
    Steady P c :=
  h.part (fun _ _ => trivial) fun _ _ => congrArg Control.progress

/-- Every lock is steady, and succeeds. -/
theorem lock_steady {label : InstLabel} (mutex : InstMutex) :
    Steady (fun rc => rc = 0) (lock label mutex t) := by
  refine Quiet.atomic trivial fun s a b s' hact ha => ?_
  rw [if_neg (not_not.mpr ha)] at hact
  split at hact
  · obtain ⟨rfl, rfl⟩ := Prod.mk.inj (Option.some.inj hact)
    exact ⟨rfl, rfl⟩
  · exact absurd hact (by rintro ⟨⟩)

/-- An unlock concerns none of the words of the progress. -/
theorem unlocked_progress {s : Inst} {mutex : InstMutex} (a : InstReply) :
    (s.unlocked mutex a).progress = s.progress := by
  rw [Inst.unlocked]
  split
  · rfl
  · rfl

/-- Every unlock is steady, and succeeds. -/
theorem unlock_steady (mutex : InstMutex) : Steady (fun rc => rc = 0) (unlock mutex) := by
  refine Quiet.atomic trivial fun s a b s' hact ha => ?_
  obtain ⟨rfl, rfl⟩ := Prod.mk.inj (Option.some.inj hact)
  exact ⟨unlocked_progress a, by rw [ha]; rfl⟩

/-- The exchange of `consumer_waiting` is steady. -/
theorem clearWaiting_steady {label : InstLabel} (forced : Bool) :
    Steady (fun _ => True) (clearWaiting label t forced) := by
  refine Quiet.atomic trivial fun s a b s' hact _ => ?_
  obtain ⟨-, rfl⟩ := Prod.mk.inj (Option.some.inj hact)
  exact ⟨rfl, trivial⟩

/-- The signal to the worker is steady. -/
theorem signalWorker_steady {label : InstLabel} (place : WakePlace) :
    Steady (fun _ => True) (signalWorker label t place) := by
  refine Quiet.atomic trivial fun s a b s' hact _ => ?_
  split at hact
  · obtain ⟨-, rfl⟩ := Prod.mk.inj (Option.some.inj hact)
    exact ⟨rfl, trivial⟩
  · obtain ⟨-, rfl⟩ := Prod.mk.inj (Option.some.inj hact)
    exact ⟨rfl, trivial⟩

/-- The end of a section under `wait_mu` is steady. -/
theorem releaseWaitMu_steady {label : InstLabel} :
    Steady (fun _ => True) (releaseWaitMu label t) := by
  refine Quiet.bind (P := fun rc => rc = 0) (Quiet.atomic trivial fun s a b s' hact ha => ?_)
    fun rc hrc => ?_
  · obtain ⟨rfl, rfl⟩ := Prod.mk.inj (Option.some.inj hact)
    exact ⟨unlocked_progress a, by rw [ha]; rfl⟩
  · exact Quiet.ite (fun hfailed => absurd hrc hfailed) fun _ => Quiet.pure trivial

/-- A producer wakes the worker steadily. -/
theorem loggerQueueNotifyIfWaiting_steady :
    Steady (fun _ => True) (loggerQueueNotifyIfWaiting t) := by
  refine Quiet.bind (P := fun _ => True) (Quiet.atomic trivial fun s a b s' hact _ => ?_)
    fun waiting _ => Quiet.ite (fun _ => Quiet.pure trivial) fun _ => ?_
  · obtain ⟨-, rfl⟩ := Prod.mk.inj (Option.some.inj hact)
    split
    · exact ⟨rfl, trivial⟩
    · exact ⟨rfl, trivial⟩
  refine Quiet.bind (P := fun rc => rc = 0) (Quiet.atomic trivial fun s a b s' hact ha => ?_)
    fun rc hrc => Quiet.ite (fun hfailed => absurd hrc hfailed) fun _ => ?_
  · rw [if_neg (not_not.mpr ha)] at hact
    split at hact
    · obtain ⟨rfl, rfl⟩ := Prod.mk.inj (Option.some.inj hact)
      exact ⟨rfl, rfl⟩
    · exact absurd hact (by rintro ⟨⟩)
  refine Quiet.bind (clearWaiting_steady false) fun claimed _ =>
    Quiet.ite (fun _ => releaseWaitMu_steady) fun _ => ?_
  refine Quiet.bind (signalWorker_steady _) fun signalRc _ => ?_
  exact Quiet.bind releaseWaitMu_steady fun unlockRc _ => Quiet.pure trivial

/-- A stopper does too. -/
theorem loggerQueueWakeForce_steady : Steady (fun _ => True) (loggerQueueWakeForce t) := by
  refine Quiet.bind (lock_steady .wait) fun rc hrc =>
    Quiet.ite (fun hfailed => absurd hrc hfailed) fun _ => ?_
  refine Quiet.bind (clearWaiting_steady true) fun _ _ => ?_
  refine Quiet.bind (signalWorker_steady _) fun signalRc _ => ?_
  exact Quiet.bind releaseWaitMu_steady fun unlockRc _ => Quiet.pure trivial

/-- The sleep of the worker is steady. -/
theorem condWaitQueue_steady : Steady (fun _ => True) condWaitQueue := by
  refine Quiet.bind (P := fun _ => True) (Quiet.atomic trivial fun s a b s' hact _ => ?_)
    fun error _ => Quiet.ite (fun _ => Quiet.pure trivial) fun _ => ?_
  · split at hact
    · obtain ⟨-, rfl⟩ := Prod.mk.inj (Option.some.inj hact)
      exact ⟨rfl, trivial⟩
    · obtain ⟨-, rfl⟩ := Prod.mk.inj (Option.some.inj hact)
      exact ⟨rfl, trivial⟩
  refine Quiet.bind (P := fun _ => True) (Quiet.atomic trivial fun s a b s' hact _ => ?_)
    fun _ _ => Quiet.atomic trivial fun s a b s' hact _ => ?_
  · split at hact
    · obtain ⟨-, rfl⟩ := Prod.mk.inj (Option.some.inj hact)
      exact ⟨rfl, trivial⟩
    · exact absurd hact (by rintro ⟨⟩)
  · split at hact
    · obtain ⟨-, rfl⟩ := Prod.mk.inj (Option.some.inj hact)
      exact ⟨rfl, trivial⟩
    · exact absurd hact (by rintro ⟨⟩)

/-- A store to another word is steady. -/
theorem store_steady {set : Inst → Inst} (h : ∀ s, (set s).progress = s.progress) :
    Steady (fun _ => True) (store set) := by
  refine Quiet.atomic trivial fun s a b s' hact _ => ?_
  obtain ⟨-, rfl⟩ := Prod.mk.inj (Option.some.inj hact)
  exact ⟨h s, trivial⟩

/-- The join of the worker is steady. -/
theorem joinWorker_steady : Steady (fun _ => True) joinWorker := by
  refine Quiet.atomic trivial fun s a b s' hact _ => ?_
  have hsame : s' = s := by
    split at hact
    · exact (Prod.mk.inj (Option.some.inj hact)).2.symm
    split at hact
    · exact (Prod.mk.inj (Option.some.inj hact)).2.symm
    · exact absurd hact (by rintro ⟨⟩)
  rw [hsame]
  exact ⟨rfl, trivial⟩

end Steady

section Rules

variable {α : Type} {P : Inst → Prop}

/-- One operation. -/
theorem drain_act {label : InstLabel} {act : Inst → InstReply → Option (α × Inst)}
    {Q : α → Inst → Prop} (hstable : ∀ b, (drainLogic g).Stable t (Q b))
    (h : ∀ s a b s', DrainInv g s → P s → act s a = some (b, s') → a.pthread = 0 →
      Fresh g s.ring → Drains g t s s' ∧ Q b s') :
    (drainLogic g).Triple t P (Code.atomic label act) Q := by
  refine Logic.triple_atomic (fun _ _ _ => trivial) hstable fun s a b s' hs hP hact hok => ?_
  obtain ⟨⟨hinv, hrely⟩, hQ⟩ := h s a b s' hs hP hact hok.1 hok.2
  exact ⟨hinv, trivial, hrely, hQ⟩

/-- Code that neither moves the queue nor stops the instance can be passed by every assertion. -/
theorem drain_steady {c : InstCode α} {R : α → Prop} (h : Steady R c) :
    (drainLogic g).Triple t P c fun a s => R a ∧ P s := by
  refine Logic.triple_of_quiet h (fun _ _ _ hok => hok.1) ?_ ?_ fun _ _ _ _ _ => trivial
  · exact fun s s' hprogress hs => (Harmless.of_progress hprogress).inv hs
  · intro v s s' hprogress
    cases v with
    | none => trivial
    | some t => exact ⟨trivial, (Harmless.of_progress hprogress).rely⟩

/-- Steady code keeps every stable assertion. -/
theorem keeps {c : InstCode α} {R : α → Prop} (h : Steady R c) :
    (drainLogic g).Triple t P c fun _ => P :=
  (drain_steady h).post fun _ _ _ hs => hs.2

/-- A store that at most stops the instance; the thread might have seen another one do it. -/
theorem harmless_store (hstable : (drainLogic g).Stable t P) {set : Inst → Inst}
    (hset : ∀ s, Harmless s (set s)) :
    (drainLogic g).Triple t P (store set) fun _ => P := by
  refine drain_act (fun _ => hstable) ?_
  intro s a b s' hs hP hact _ _
  obtain ⟨-, rfl⟩ := Prod.mk.inj (Option.some.inj hact)
  exact ⟨(hset s).drains hs, hstable s _ ⟨trivial, (hset s).rely⟩ hP⟩

/-- Closing the admission is harmless to the balance. -/
theorem stopAccepting_harmless (s : Inst) : Harmless s { s with accepting := false } :=
  { Harmless.refl s with accepting := fun _ => rfl }

/-- Clearing `running` is harmless to it. -/
theorem stopRunning_harmless (s : Inst) : Harmless s { s with running := false } :=
  { Harmless.refl s with running := fun _ => rfl }

/-- An instance is stopped with every stable assertion kept. -/
theorem stopInstance_triple (hstable : (drainLogic g).Stable t P) (error : ℤ) :
    (drainLogic g).Triple t P (stopInstance error) fun _ => P := by
  refine Logic.Triple.bind (harmless_store hstable fun _ => Harmless.of_progress rfl) fun _ => ?_
  refine Logic.Triple.bind (harmless_store hstable stopAccepting_harmless) fun _ => ?_
  exact harmless_store hstable stopRunning_harmless

/-- A lifecycle error is noted with every stable assertion kept. -/
theorem loggerNoteLifecycleError_triple (hstable : (drainLogic g).Stable t P) (error : ℤ) :
    (drainLogic g).Triple t P (loggerNoteLifecycleError error) fun _ => P :=
  Logic.triple_ite (fun _ => Logic.triple_pure fun _ _ hs => hs) fun _ =>
    stopInstance_triple hstable _

/-- A read of a word that holds no error. -/
theorem drain_noError (hstable : (drainLogic g).Stable t P) {field : Inst → ℤ}
    (h : ∀ s, DrainInv g s → field s = 0) :
    (drainLogic g).Triple t P (load field) fun error s => error = 0 ∧ P s := by
  refine drain_act (fun _ s s' hsees hs => ⟨hs.1, hstable s s' hsees hs.2⟩) ?_
  intro s a b s' hs hP hact _ _
  obtain ⟨rfl, rfl⟩ := Prod.mk.inj (Option.some.inj hact)
  exact ⟨⟨hs, fun _ _ => .refl⟩, h s hs, hP⟩

/-- The note of an error that there is not. -/
theorem noteNoError_triple {error : ℤ} :
    (drainLogic g).Triple t (fun s => error = 0 ∧ P s) (loggerNoteSynchronizationError error)
      fun _ => P := by
  refine Logic.triple_fact (p := error = 0) (fun _ _ hs => hs.1) fun herror => ?_
  exact (keeps (steady_of_calm (loggerNoteSynchronizationError_calm herror))).pre fun _ _ hs => hs.2

end Rules

section Callers

/-- Caller `n` is in no logging call. -/
def Outside (n : ℕ) (s : Inst) : Prop := n ∉ s.history.logging

/-- A logging call of caller `n` that found the instance accepting. -/
structure Logging (n : ℕ) (s : Inst) : Prop where
  logging : n ∈ s.history.logging
  unstopped : s.history.cleanStop = false

/-- It has published and counted nothing. -/
structure Entered (n : ℕ) (s : Inst) : Prop where
  inside : Logging n s
  published : (s.history.calls n).published = false
  counted : (s.history.calls n).counted = []

/-- It has not begun a push either. -/
structure Ready (n : ℕ) (s : Inst) : Prop where
  entered : Entered n s
  idle : s.ring.push n = .idle

/-- It is between its operations on the queue, and owes `k` records. -/
structure Owing (n k : ℕ) (s : Inst) : Prop where
  inside : Logging n s
  idle : s.ring.push n = .idle
  owed : owed s n = k

/-- A logging call that owes nothing, whether the instance accepted it or not. -/
structure Leaving (n : ℕ) (s : Inst) : Prop where
  logging : n ∈ s.history.logging
  idle : s.ring.push n = .idle
  owed : owed s n = 0

/-- A call that owes nothing may leave. -/
theorem Owing.leaving (h : Owing n 0 s) : Leaving n s := ⟨h.inside.logging, h.idle, h.owed⟩

/-- No other thread starts a call of this one. -/
theorem outside_stable : (drainLogic g).Stable (.caller n) (Outside n) :=
  fun _ _ hsees hs hn => hs ((CallerRely.logging hsees.2).mp hn)

/-- No other thread ends it. -/
theorem logging_stable : (drainLogic g).Stable (.caller n) (Logging n) :=
  fun _ _ hsees hs => ⟨(CallerRely.logging hsees.2).mpr hs.logging,
    (CallerRely.cleanStop hsees.2 hs.logging).trans hs.unstopped⟩

/-- No other thread publishes or counts for it. -/
theorem entered_stable : (drainLogic g).Stable (.caller n) (Entered n) :=
  fun s s' hsees hs => ⟨logging_stable s s' hsees hs.inside,
    (CallerRely.published hsees.2).trans hs.published,
    (CallerRely.counted hsees.2).trans hs.counted⟩

/-- No other thread moves its push. -/
theorem ready_stable : (drainLogic g).Stable (.caller n) (Ready n) :=
  fun s s' hsees hs => ⟨entered_stable s s' hsees hs.entered,
    (CallerRely.push hsees.2).trans hs.idle⟩

/-- No other thread pays what it owes. -/
theorem owing_stable {k : ℕ} : (drainLogic g).Stable (.caller n) (Owing n k) :=
  fun s s' hsees hs => ⟨logging_stable s s' hsees hs.inside,
    (CallerRely.push hsees.2).trans hs.idle, (CallerRely.owed hsees.2).trans hs.owed⟩

/-- No other thread lets it in again. -/
theorem leaving_stable : (drainLogic g).Stable (.caller n) (Leaving n) :=
  fun _ _ hsees hs => ⟨(CallerRely.logging hsees.2).mpr hs.logging,
    (CallerRely.push hsees.2).trans hs.idle, (CallerRely.owed hsees.2).trans hs.owed⟩

/-- While it pushes, a call owes what it has packed. -/
theorem Entered.owed (h : Entered n s) : owed s n = packed (s.ring.push n) := by
  rw [Instance.owed, if_neg fun hand => absurd (h.published.symm.trans hand.1) (by rintro ⟨⟩)]
  rfl

/-- Before its push a call owes nothing. -/
theorem Ready.owing (h : Ready n s) : Owing n 0 s := by
  refine ⟨h.entered.inside, h.idle, ?_⟩
  rw [h.entered.owed, h.idle]
  rfl

/-- A step of a push before it publishes. -/
theorem push_acts (hs : DrainInv g s) (hentered : Entered n s) {ring : QueueSys ℕ}
    {r : Unit ⊕ Bool} (hring : QueueReachable g ring) (heffects : PushEffects n s.ring r ring)
    (hr : r ≠ .inr true) :
    Drains g (.caller n) s { s with ring } ∧ Entered n { s with ring } ∧
      (r = .inr false → Owing n 0 { s with ring }) := by
  have hentered' : Entered n { s with ring } :=
    ⟨⟨hentered.inside.logging, hentered.inside.unstopped⟩, hentered.published, hentered.counted⟩
  -- a caller that is inside has not been stopped by `dispose`
  have hstopped : ∀ {p : Prop}, s.history.cleanStop = true → p := fun hc =>
    absurd (hentered.inside.unstopped.symm.trans hc) (by rintro ⟨⟩)
  refine ⟨CallerActs.drains ?_ hs, hentered', fun hfalse => ?_⟩
  -- only this caller's part of the ring moves
  · refine ⟨hring, rfl, rfl, ?_, fun m hm => ?_, fun hn => absurd hentered.inside.logging hn,
      hstopped, ?_⟩
    · exact ⟨heffects.pop, heffects.popped, heffects.dequeuePos, rfl, rfl, rfl, id, fun _ => rfl,
        hstopped⟩
    -- the others have their own push
    · exact ⟨heffects.others m hm, Iff.rfl, rfl, rfl, id, fun _ => rfl⟩
    -- what is reserved and what is owed move together
    · have hreserved := heffects.reserved
      rw [owedBy_of_mem hentered.inside.logging, hentered.owed,
        owedBy_of_mem hentered'.inside.logging, hentered'.owed]
      show ring.reserved.length + s.enqueued + _ =
        s.ring.reserved.length + s.enqueued + packed (ring.push n)
      rcases r with _ | published
      · rw [Sum.elim_inl] at hreserved
        omega
      · cases published with
        | true => exact absurd rfl hr
        | false =>
          have hidle : packed (ring.push n) = 0 := by
            rw [heffects.idle false rfl]
            rfl
          rw [Sum.elim_inr, Bool.toNat_false] at hreserved
          omega
  -- a push that ended without a record owes nothing
  · have hidle := heffects.idle false hfalse
    refine ⟨hentered'.inside, hidle, ?_⟩
    rw [hentered'.owed]
    show packed (ring.push n) = 0
    rw [hidle]
    rfl

/-- The publication. -/
theorem publish_acts (hs : DrainInv g s) (hentered : Entered n s) {ring : QueueSys ℕ}
    (hring : QueueReachable g ring) (heffects : PushEffects n s.ring (.inr true) ring) :
    Drains g (.caller n) s ({ s with ring }.published n) ∧
      Owing n 1 ({ s with ring }.published n) := by
  have hstopped : ∀ {p : Prop}, s.history.cleanStop = true → p := fun hc =>
    absurd (hentered.inside.unstopped.symm.trans hc) (by rintro ⟨⟩)
  have hidle := heffects.idle true rfl
  -- the ghost of the call notes the publication
  have hpublished : (({ s with ring }.published n).history.calls n).published = true := by
    simp only [Inst.published, Inst.record, Function.update_self]
  have hcounted : (({ s with ring }.published n).history.calls n).counted = [] := by
    simp only [Inst.published, Inst.record, Inst.goes, Function.update_self]
    exact hentered.counted
  -- the call owes the count of this record, and nothing else
  have howed' : owed ({ s with ring }.published n) n = 1 := by
    rw [owed, hpublished, hcounted, if_pos ⟨rfl, List.not_mem_nil⟩]
    show packed (ring.push n) + 1 = 1
    rw [hidle]
    rfl
  refine ⟨CallerActs.drains ?_ hs, ⟨hentered.inside.logging, hentered.inside.unstopped⟩, hidle,
    howed'⟩
  -- the ring is one record further
  refine ⟨hring, rfl, rfl, ?_, fun m hm => ?_, fun hn => absurd hentered.inside.logging hn,
    hstopped, ?_⟩
  · exact ⟨heffects.pop, heffects.popped, heffects.dequeuePos, rfl, rfl, rfl, id, fun _ => rfl,
      hstopped⟩
  · refine ⟨heffects.others m hm, Iff.rfl, ?_, ?_, id, fun _ => rfl⟩
    · simp only [Inst.published, Inst.record, Inst.goes, Function.update_of_ne hm]
    · simp only [Inst.published, Inst.record, Inst.goes, Function.update_of_ne hm]
  -- the reservation was counted as packed before, and is counted as published now
  · have hreserved := heffects.reserved
    have hmem : n ∈ ({ s with ring }.published n).history.logging := hentered.inside.logging
    rw [owedBy_of_mem hentered.inside.logging, hentered.owed, owedBy_of_mem hmem, howed']
    show ring.reserved.length + s.enqueued + _ = s.ring.reserved.length + s.enqueued + _
    rw [Sum.elim_inr, Bool.toNat_true] at hreserved
    omega

/-- A push that has published owes one count, another one nothing. -/
theorem queuePublish_drains (m : LoggerMessage) :
    (drainLogic g).Triple (.caller n) (Entered n) (queuePublish g n m)
      fun published => Owing n published.toNat := by
  -- the call announces itself, and then pushes until it has a slot or finds none
  refine Logic.Triple.bind (Q := fun _ => Entered n) (drain_act (fun _ => entered_stable) ?_)
    fun _ => Logic.triple_iterate (fun _ => Entered n) (fun _ _ _ _ => trivial) fun _ =>
      drain_act ?_ ?_
  · intro s a b s' hs hentered hact _ hfresh
    obtain ⟨ring, hcall, heq⟩ := Option.map_eq_some_iff.mp hact
    obtain ⟨-, rfl⟩ := Prod.mk.inj heq
    obtain ⟨hdrains, hentered', -⟩ := push_acts hs hentered (hs.ring.tail hcall hfresh)
      (callPush_effects hcall) (by rintro ⟨⟩)
    exact ⟨hdrains, hentered'⟩
  · rintro (_ | published)
    · exact entered_stable
    · exact owing_stable
  · intro s a b s' hs hentered hact _ hfresh
    obtain ⟨⟨r, ring⟩, hpush, heq⟩ := Option.map_eq_some_iff.mp hact
    have hring := pushRing_reachable hs.ring hfresh hpush
    have heffects := pushRing_effects hpush
    obtain ⟨rfl, rfl⟩ := Prod.mk.inj heq
    -- the last step publishes
    by_cases hr : r = .inr true
    · subst hr
      rw [if_pos rfl]
      exact publish_acts hs hentered hring heffects
    · rw [if_neg hr]
      obtain ⟨hdrains, hentered', howing⟩ := push_acts hs hentered hring heffects hr
      refine ⟨hdrains, ?_⟩
      -- the push goes on, or has ended without a record
      rcases r with _ | published
      · exact hentered'
      · cases published with
        | true => exact absurd rfl hr
        | false => exact howing rfl

/-- A push that returns 0 owes nothing. Another result is that of a published record and owes a
count, also if its notification has failed. -/
theorem loggerQueuePush_drains (m : LoggerMessage) :
    (drainLogic g).Triple (.caller n) (Entered n) (loggerQueuePush g n m)
      fun rc => Owing n (if rc = 0 then 0 else 1) := by
  refine Logic.Triple.bind (queuePublish_drains m) fun published => ?_
  cases published with
  | false => exact Logic.triple_pure fun _ _ hs => hs
  | true =>
    refine Logic.Triple.bind (keeps loggerQueueNotifyIfWaiting_steady) fun rc => ?_
    refine Logic.triple_pure fun s _ hs => ?_
    by_cases hrc : rc = 0
    · rw [if_neg (not_not.mpr hrc), if_neg one_ne_zero]
      exact hs
    · rw [if_pos hrc, if_neg hrc]
      exact hs

/-- The counter of a logging call: the reservation is counted when it is owed. -/
theorem counted_acts (hs : DrainInv g s) (counter : CallCounter)
    (hrest : Inst.progress { s' with enqueued := s.enqueued, history := s.history } = s.progress)
    (hhistory : s'.history = { s.history with
      counts := s.history.counts ++ [(n, counter)]
      calls := Function.update s.history.calls n
        { s.history.calls n with counted := (s.history.calls n).counted ++ [counter] } })
    (henqueued : s'.enqueued = s.enqueued + if counter = .enqueued then 1 else 0)
    (howing : Owing n (if counter = .enqueued then 1 else 0) s) :
    Drains g (.caller n) s s' ∧ Owing n 0 s' := by
  -- the queue is not touched by a counter
  have hsame : Harmless s { s' with enqueued := s.enqueued, history := s.history } :=
    .of_progress hrest
  have hring : s'.ring = s.ring := hsame.ring
  have hlogging : n ∈ s'.history.logging := by
    rw [hhistory]
    exact howing.inside.logging
  have hunstopped : s'.history.cleanStop = false := by
    rw [hhistory]
    exact howing.inside.unstopped
  have hidle : s'.ring.push n = .idle := by
    rw [hring]
    exact howing.idle
  -- what was owed is counted now
  have howed : owed s' n = 0 := by
    have howes := howing.owed
    rw [owed, howing.idle] at howes
    rw [owed, hidle, hhistory]
    simp only [Function.update_self, packed, List.mem_append, List.mem_singleton] at howes ⊢
    split_ifs at howes ⊢ with hcounter hpublished hafter <;> simp_all
  refine ⟨CallerActs.drains ?_ hs, ⟨hlogging, hunstopped⟩, hidle, howed⟩
  refine ⟨hring ▸ hs.ring, hsame.waitMuError, hsame.synchronizationError, ?_, fun m hm => ?_,
    fun hn => absurd hlogging hn, fun hc => absurd (hunstopped.symm.trans hc) (by rintro ⟨⟩), ?_⟩
  · refine ⟨by rw [hring], by rw [hring], by rw [hring], hsame.asyncCompleted, by rw [hhistory],
      hsame.workerDone, hsame.running, fun _ => by rw [hhistory], fun hc => ?_⟩
    exact absurd (howing.inside.unstopped.symm.trans hc) (by rintro ⟨⟩)
  -- the other calls are not touched
  · refine ⟨by rw [hring], by rw [hhistory], ?_, ?_, hsame.accepting, fun _ => by rw [hhistory]⟩
    · simp only [hhistory, Function.update_of_ne hm]
    · simp only [hhistory, Function.update_of_ne hm]
  -- one more counted, one less owed
  · rw [owedBy_of_mem howing.inside.logging, howing.owed, owedBy_of_mem hlogging, howed, hring,
      henqueued]
    omega

/-- The count of an enqueued record pays the debt; the other two counters are used without one. -/
theorem countCall_drains (counter : CallCounter) :
    (drainLogic g).Triple (.caller n) (Owing n (if counter = .enqueued then 1 else 0))
      (countCall n counter) fun _ => Owing n 0 := by
  refine drain_act (fun _ => owing_stable) ?_
  intro s a b s' hs howing hact _ _
  obtain ⟨-, rfl⟩ := Prod.mk.inj (Option.some.inj hact)
  refine counted_acts hs counter ?_ ?_ ?_ howing
  · cases counter <;> rfl
  · cases counter <;> rfl
  · cases counter <;> rfl

/-- A failed notification changes no debt. -/
theorem vlogNotifyFailed_drains {P : Inst → Prop} (hstable : (drainLogic g).Stable t P)
    (error : ℤ) : (drainLogic g).Triple t P (vlogNotifyFailed t error) fun _ => P := by
  refine Logic.Triple.bind (keeps (steady_of_calm (loggerNoteIoError_calm error))) fun _ => ?_
  refine Logic.Triple.bind (loggerNoteLifecycleError_triple hstable error) fun _ => ?_
  refine Logic.Triple.bind (drain_noError hstable fun _ hs => hs.waitMuError) fun waitError => ?_
  refine Logic.triple_ite (fun herror => Logic.triple_false fun s _ hs => herror hs.1) fun _ => ?_
  refine Logic.Triple.bind ((keeps loggerQueueWakeForce_steady).pre fun _ _ hs => hs.2)
    fun wakeRc => ?_
  refine Logic.triple_ite (fun _ => ?_) fun _ => Logic.triple_pure fun _ _ hs => hs
  refine Logic.Triple.bind (loggerNoteLifecycleError_triple hstable _) fun _ => ?_
  exact Logic.Triple.bind (drain_noError hstable fun _ hs => hs.waitMuError) fun _ =>
    noteNoError_triple

/-- Each route of a formatted record ends without a debt. -/
theorem vlogRoute_drains (m : LoggerMessage) :
    (drainLogic cfg.geometry).Triple (.caller n) (Entered n) (vlogRoute cfg n m)
      fun _ => Owing n 0 := by
  refine Logic.Triple.bind (loggerQueuePush_drains m) fun pushRc => ?_
  refine Logic.triple_ite (fun hpos => ?_) fun _ => Logic.triple_ite (fun hneg => ?_) fun hnot => ?_
  · rw [if_neg hpos.ne']
    refine Logic.Triple.bind (countCall_drains .enqueued) fun _ => ?_
    exact Logic.triple_pure fun _ _ hs => hs
  · rw [if_neg hneg.ne]
    refine Logic.Triple.bind (countCall_drains .enqueued) fun _ => ?_
    refine Logic.Triple.bind (vlogNotifyFailed_drains owing_stable _) fun _ => ?_
    exact Logic.triple_pure fun _ _ hs => hs
  · rw [if_pos (by omega)]
    refine Logic.triple_ite (fun _ => ?_) fun _ => ?_
    · refine Logic.Triple.bind (countCall_drains .syncFallbacks) fun _ => ?_
      exact keeps (steady_of_calm (loggerEmitStatus_calm (fun _ => id) m false))
    · refine Logic.Triple.bind (countCall_drains (.dropped m.level)) fun _ => ?_
      exact Logic.triple_pure fun _ _ hs => hs

/-- `vlog_body` ends without a debt. -/
theorem vlogBody_drains (c : VlogCall) :
    (drainLogic cfg.geometry).Triple (.caller n) (Ready n) (vlogBody cfg n c)
      fun _ => Owing n 0 := by
  refine Logic.Triple.bind (keeps (steady_of_calm (load_calm _))) fun level => ?_
  refine Logic.triple_ite (fun _ => Logic.triple_pure fun _ _ hs => hs.owing) fun _ => ?_
  refine Logic.Triple.bind (keeps (steady_of_calm (formatText_calm n c))) fun rc => ?_
  refine Logic.triple_ite (fun _ => Logic.triple_pure fun _ _ hs => hs.owing) fun _ => ?_
  refine Logic.triple_ite (fun _ => (vlogRoute_drains _).pre fun _ _ hs => hs.entered) fun _ => ?_
  exact (keeps (steady_of_calm (loggerEmitStatus_calm (fun _ => id) _ false))).post
    fun _ _ _ hs => hs.owing

/-- A logging call begins; whether it found the instance accepting. -/
theorem enter_acts (hs : DrainInv g s) (hout : Outside n s)
    (hs' : s' = s.record fun h => { h with
      logging := insert n h.logging
      calls := Function.update h.calls n { since := h.counts.length } }) :
    Drains g (.caller n) s s' ∧ (s.accepting = true → Ready n s') ∧ Leaving n s' := by
  -- the call is entered as one that is logging
  have hlogging : n ∈ s'.history.logging := by
    rw [hs']
    exact Finset.mem_insert_self n _
  -- nobody pushes before it is inside
  have hidle : s'.ring.push n = .idle := by
    rw [hs']
    exact hs.outside n hout
  have hcalls : s'.history.calls n = { since := s.history.counts.length } := by
    simp only [hs', Inst.record, Function.update_self]
  have howed : owed s' n = 0 := by
    rw [owed, hidle, hcalls]
    rfl
  -- the three conclusions follow from the entry alone
  refine ⟨CallerActs.drains ?_ hs, fun haccepting => ⟨⟨⟨hlogging, ?_⟩, ?_, ?_⟩, hidle⟩, hlogging,
    hidle, howed⟩
  · subst hs'
    refine ⟨hs.ring, rfl, rfl, ?_, fun m hm => ?_, fun hn => absurd hlogging hn, fun hc => ?_, ?_⟩
    · exact ⟨rfl, rfl, rfl, rfl, rfl, rfl, id, fun _ => rfl, fun hc => ⟨hc, rfl⟩⟩
    · refine ⟨rfl, Finset.mem_insert.trans (or_iff_right hm), ?_, ?_, id, fun _ => rfl⟩
      · simp only [Inst.record, Function.update_of_ne hm]
      · simp only [Inst.record, Function.update_of_ne hm]
    · have hquiet := hs.clean hc
      exact ⟨hquiet.running, hquiet.accepting, hquiet.idle, hquiet.enqueued⟩
    · rw [owedBy_of_mem hlogging, howed, owedBy, if_neg hout]
      rfl
  -- a stop has closed the admission, so a call that found it open is before the stop
  · rw [hs', ← Bool.not_eq_true]
    intro hc
    exact absurd (haccepting.symm.trans (hs.clean hc).accepting) (by rintro ⟨⟩)
  · rw [hcalls]
  · rw [hcalls]

/-- A logging call ends. -/
theorem leave_acts (hs : DrainInv g s) (hleaving : Leaving n s) :
    Drains g (.caller n) s (s.record fun h => { h with logging := h.logging.erase n }) := by
  have hout : n ∉ (s.record fun h => { h with logging := h.logging.erase n }).history.logging :=
    Finset.notMem_erase n _
  refine CallerActs.drains ?_ hs
  refine ⟨hs.ring, rfl, rfl, ?_, fun m hm => ?_, fun _ => hleaving.idle, fun hc => ?_, ?_⟩
  · exact ⟨rfl, rfl, rfl, rfl, rfl, rfl, id, fun _ => rfl, fun hc => ⟨hc, rfl⟩⟩
  · exact ⟨rfl, Finset.mem_erase.trans (and_iff_right hm), rfl, rfl, id, fun _ => rfl⟩
  · have hquiet := hs.clean hc
    exact ⟨hquiet.running, hquiet.accepting, hquiet.idle, hquiet.enqueued⟩
  · rw [owedBy_of_mem hleaving.logging, hleaving.owed, owedBy, if_neg hout]
    rfl

/-- A call enters, logs and leaves without a debt. -/
theorem loggerVlogInternal_drains (c : VlogCall) :
    (drainLogic cfg.geometry).Triple (.caller n) (Outside n) (loggerVlogInternal cfg n c)
      fun _ => Outside n := by
  refine Logic.Triple.bind (Q := fun accepting s => (accepting = true → Ready n s) ∧ Leaving n s)
    (drain_act ?_ ?_) fun accepting => ?_
  · exact fun accepting s s' hsees hs =>
      ⟨fun ha => ready_stable s s' hsees (hs.1 ha), leaving_stable s s' hsees hs.2⟩
  · intro s a b s' hs hout hact _ _
    obtain ⟨rfl, rfl⟩ := Prod.mk.inj (Option.some.inj hact)
    exact enter_acts hs hout rfl
  refine Logic.Triple.bind (Q := fun _ => Leaving n) (Logic.triple_ite (fun haccepting => ?_)
    fun _ => Logic.triple_pure fun _ _ hs => hs.2) fun _ => drain_act (fun _ => outside_stable) ?_
  · exact (vlogBody_drains c).conseq (fun _ _ hs => hs.1 haccepting.2) fun _ _ _ hs => hs.leaving
  · intro s a b s' hs hleaving hact _ _
    obtain ⟨-, rfl⟩ := Prod.mk.inj (Option.some.inj hact)
    exact ⟨leave_acts hs hleaving, Finset.notMem_erase n _⟩

/-- The stop of `dispose_body`: it is clean if it is the first one and no logging call is in
progress. -/
theorem stop_acts (hs : DrainInv g s) (haccepting : s.accepting = false)
    (hs' : s' = ({ s with running := false }.goes (.caller n) .bound).record fun h => { h with
      cleanStop := h.cleanStop || (s.running && decide (h.logging = ∅)) }) :
    Drains g (.caller n) s s' := by
  subst hs'
  refine CallerActs.drains ?_ hs
  refine ⟨hs.ring, rfl, rfl, ?_, fun m hm => ?_, hs.outside n, fun hc => ?_, rfl⟩
  · refine ⟨rfl, rfl, rfl, rfl, rfl, rfl, fun _ => rfl, fun hr => ?_, fun hc => ⟨?_, rfl⟩⟩
    · show (s.history.cleanStop || (s.running && _)) = _
      rw [hr, Bool.false_and, Bool.or_false]
    · show (s.history.cleanStop || _) = true
      rw [hc, Bool.true_or]
  · refine ⟨rfl, Iff.rfl, rfl, rfl, id, fun hmem => ?_⟩
    show (s.history.cleanStop || (s.running && decide (s.history.logging = ∅))) = _
    rw [decide_eq_false (Finset.ne_empty_of_mem hmem), Bool.and_false, Bool.or_false]
  · rcases Bool.or_eq_true_iff.mp hc with hbefore | hnow
    · have hquiet := hs.clean hbefore
      exact ⟨rfl, haccepting, hquiet.idle, hquiet.enqueued⟩
    · -- every caller is outside, so that nothing is owed
      have hempty : s.history.logging = ∅ :=
        of_decide_eq_true (Bool.and_eq_true_iff.mp hnow).2
      have howed := hs.owed
      rw [hempty, Finset.sum_empty, Nat.add_zero] at howed
      refine ⟨rfl, haccepting, fun m => hs.outside m ?_, howed⟩
      rw [hempty]
      exact Finset.notMem_empty m

/-- A disposer has closed the instance to new calls. -/
structure Closing (n : ℕ) (s : Inst) : Prop where
  outside : Outside n s
  accepting : s.accepting = false

/-- No other thread opens the admission again. -/
theorem closing_stable : (drainLogic g).Stable (.caller n) (Closing n) :=
  fun s s' hsees hs => ⟨outside_stable s s' hsees hs.outside,
    CallerRely.accepting hsees.2 hs.accepting⟩

/-- Stopping the worker keeps the admission closed. -/
theorem stopWorker_drains :
    (drainLogic g).Triple (.caller n) (Closing n) (stopWorker (.caller n)) fun _ => Closing n := by
  refine Logic.Triple.bind (Q := fun _ => Closing n) (drain_act (fun _ => closing_stable) ?_)
    fun _ => ?_
  · intro s a b s' hs hclosing hact _ _
    obtain ⟨-, rfl⟩ := Prod.mk.inj (Option.some.inj hact)
    exact ⟨stop_acts hs hclosing.accepting rfl, hclosing.outside, hclosing.accepting⟩
  refine Logic.Triple.bind (keeps loggerQueueWakeForce_steady) fun wakeRc => ?_
  refine Logic.triple_ite (fun _ => ?_) fun _ => ?_
  · refine Logic.Triple.bind (loggerNoteLifecycleError_triple closing_stable _) fun _ => ?_
    refine Logic.Triple.bind (drain_noError closing_stable fun _ hs => hs.waitMuError)
      fun error => Logic.Triple.bind noteNoError_triple fun _ => ?_
    exact Logic.triple_pure fun _ _ hs => hs
  · refine Logic.Triple.bind (keeps joinWorker_steady) fun joinRc => ?_
    refine Logic.triple_ite (fun _ => ?_) fun _ => Logic.triple_pure fun _ _ hs => hs
    refine Logic.Triple.bind (keeps (steady_of_calm (store_calm fun _ => rfl))) fun _ => ?_
    exact Logic.triple_pure fun _ _ hs => hs

/-- `dispose_body` closes the admission, stops the worker and counts nothing. -/
theorem disposeBody_drains :
    (drainLogic g).Triple (.caller n) (Outside n) (disposeBody cfg (.caller n))
      fun _ => Outside n := by
  refine Logic.Triple.bind (Q := fun _ => Closing n) (drain_act (fun _ => closing_stable) ?_)
    fun _ => Logic.Triple.post (Q := fun _ => Closing n) ?_ fun _ _ _ hs => hs.outside
  · intro s a b s' hs hout hact _ _
    obtain ⟨-, rfl⟩ := Prod.mk.inj (Option.some.inj hact)
    exact ⟨(stopAccepting_harmless s).drains hs, hout, rfl⟩
  -- neither error has been noted before the stop
  refine Logic.Triple.bind (drain_noError closing_stable fun _ hs => hs.synchronizationError)
    fun syncError => ?_
  refine Logic.Triple.bind (Q := fun error s => error = 0 ∧ Closing n s)
    (Logic.triple_ite (fun _ => ?_) fun _ => Logic.triple_pure fun _ _ hs => hs) fun syncError => ?_
  · exact (drain_noError closing_stable fun _ hs => hs.waitMuError).pre fun _ _ hs => hs.2
  refine Logic.triple_ite (fun herror => Logic.triple_false fun s _ hs => herror hs.1) fun _ => ?_
  -- the worker is joined when there is one
  refine Logic.Triple.bind (Q := fun _ => Closing n) (Logic.triple_ite (fun _ => ?_) fun _ =>
    Logic.triple_pure fun _ _ hs => hs.2) fun joined => ?_
  · exact stopWorker_drains.pre fun _ _ hs => hs.2
  -- the rest of the function does not touch the queue any more
  refine keeps (R := fun _ => True)
    (steady_of_calm (Quiet.bind (load_calm _) fun syncError _ => ?_))
  refine Quiet.ite (fun _ => Quiet.pure trivial) fun _ => ?_
  refine Quiet.bind (load_calm _) fun lifecycleError _ => Quiet.bind (lockEmit_calm fun _ => id) ?_
  rintro ⟨lockRc, before⟩ -
  refine Quiet.ite (fun _ => store_calm fun _ => rfl) fun _ => ?_
  refine Quiet.bind (P := fun _ => True) (Quiet.ite (fun _ => Quiet.pure trivial) fun _ => ?_)
    fun _ _ => ?_
  · refine Quiet.bind (loggerSyncOutputsLocked_calm _) ?_
    rintro ⟨rc, look⟩ -
    exact Quiet.pure trivial
  · refine Quiet.bind (unlock_calm (fun _ => id) (by rintro ⟨⟩)) fun unlockRc hunlock => ?_
    exact loggerNoteSynchronizationError_calm hunlock

end Callers

section Worker

/-- The worker has accounted what it has taken. -/
structure Working (s : Inst) : Prop where
  idle : s.ring.pop = .idle
  accounted : s.asyncCompleted = s.ring.popped.length
  undone : s.workerDone = false

/-- The worker is in a drain. -/
structure Draining (s : Inst) : Prop where
  accounted : s.asyncCompleted + s.ring.pop.out.length = s.ring.popped.length
  undone : s.workerDone = false

/-- The worker has `k` records to emit. -/
structure Emitting (k : ℕ) (s : Inst) : Prop where
  idle : s.ring.pop = .idle
  accounted : s.asyncCompleted + k = s.ring.popped.length
  undone : s.workerDone = false

/-- The worker has just read `running` as zero. -/
structure StopRead (s : Inst) : Prop where
  working : Working s
  running : s.running = false
  reads : ∃ earlier, s.history.reads = earlier ++ [.running false]

/-- The worker goes on to its return. -/
structure Finishing (s : Inst) : Prop where
  finished : Finished s
  undone : s.workerDone = false

/-- No other thread takes records or publishes the progress. -/
theorem working_stable : (drainLogic g).Stable .worker Working := by
  intro s s' hsees hs
  have hrely : WorkerRely s s' := hsees.2
  refine ⟨hrely.pop.trans hs.idle, ?_, hrely.workerDone.trans hs.undone⟩
  rw [hrely.asyncCompleted, hrely.popped]
  exact hs.accounted

/-- No other thread adds to the batch that is being drained. -/
theorem draining_stable : (drainLogic g).Stable .worker Draining := by
  intro s s' hsees hs
  have hrely : WorkerRely s s' := hsees.2
  refine ⟨?_, hrely.workerDone.trans hs.undone⟩
  rw [hrely.asyncCompleted, hrely.popped, hrely.pop]
  exact hs.accounted

/-- No other thread accounts the batch of the worker. -/
theorem emitting_stable {k : ℕ} : (drainLogic g).Stable .worker (Emitting k) := by
  intro s s' hsees hs
  have hrely : WorkerRely s s' := hsees.2
  refine ⟨hrely.pop.trans hs.idle, ?_, hrely.workerDone.trans hs.undone⟩
  rw [hrely.asyncCompleted, hrely.popped]
  exact hs.accounted

/-- Once it has read `running` as clear, the worker finds it so. -/
theorem stopRead_stable : (drainLogic g).Stable .worker StopRead := by
  intro s s' hsees hs
  have hrely : WorkerRely s s' := hsees.2
  refine ⟨working_stable s s' hsees hs.working, hrely.running hs.running, ?_⟩
  rw [hrely.reads]
  exact hs.reads

/-- What the worker has read last stays. -/
theorem finishing_stable : (drainLogic g).Stable .worker Finishing :=
  fun _ _ hsees hs => ⟨hs.finished.rely hsees.2, (WorkerRely.workerDone hsees.2).trans hs.undone⟩

/-- A step of the worker on the ring. -/
theorem ring_acts (hs : DrainInv g s) (hundone : s.workerDone = false) {ring : QueueSys ℕ}
    (hring : QueueReachable g ring) (hpush : ring.push = s.ring.push)
    (hreserved : ring.reserved = s.ring.reserved) : Drains g .worker s { s with ring } := by
  refine WorkerActs.drains ?_ hs
  exact ⟨hring, rfl, rfl, hpush, hreserved, rfl, rfl, rfl, rfl, id, id,
    fun hd => absurd (hundone.symm.trans hd) (by rintro ⟨⟩)⟩

/-- A read of the worker. -/
theorem read_acts (hs : DrainInv g s) (hundone : s.workerDone = false) (r : WorkerRead) :
    Drains g .worker s (s.record fun h => { h with reads := h.reads ++ [r] }) := by
  refine WorkerActs.drains ?_ hs
  exact ⟨hs.ring, rfl, rfl, rfl, rfl, rfl, rfl, rfl, rfl, id, id,
    fun hd => absurd (hundone.symm.trans hd) (by rintro ⟨⟩)⟩

/-- A look of the worker at the ring or at `running` is recorded. -/
theorem Working.read (h : Working s) (r : WorkerRead) :
    Working (s.record fun h => { h with reads := h.reads ++ [r] }) :=
  ⟨h.idle, h.accounted, h.undone⟩

/-- A drain takes records in the order of their positions. -/
theorem loggerQueueDrain_drains (max : ℕ) :
    (drainLogic g).Triple .worker Working (loggerQueueDrain g max)
      fun batch => Emitting batch.length := by
  refine Logic.Triple.bind (Q := fun _ => Draining) (drain_act (fun _ => draining_stable) ?_)
    fun _ => Logic.triple_iterate (fun _ => Draining) (fun _ _ _ _ => trivial) fun _ =>
      drain_act ?_ ?_
  -- the call of the drain takes nothing
  · intro s a b s' hs hworking hact _ hfresh
    obtain ⟨ring, hcall, heq⟩ := Option.map_eq_some_iff.mp hact
    obtain ⟨-, rfl⟩ := Prod.mk.inj heq
    have hring := hs.ring.tail hcall hfresh
    rw [queueNext, hworking.idle] at hcall
    obtain rfl := Option.some.inj hcall
    refine ⟨ring_acts hs hworking.undone hring ?_ ?_, hworking.accounted, hworking.undone⟩
    · rfl
    · rfl
  · rintro (_ | batch)
    · exact draining_stable
    · exact emitting_stable
  -- each step of the pop hands out at most what it takes
  · intro s a b s' hs hdraining hact _ hfresh
    obtain ⟨⟨r, ring⟩, hpop, heq⟩ := Option.map_eq_some_iff.mp hact
    obtain ⟨rfl, rfl⟩ := Prod.mk.inj heq
    have heffects := popRing_effects hpop
    refine ⟨ring_acts hs hdraining.undone (popRing_reachable hs.ring hfresh hpop) heffects.push
      heffects.reserved, ?_⟩
    obtain ⟨taken, hpopped, hout⟩ := heffects.popped
    have haccounted := hdraining.accounted
    have hlength := congrArg List.length hout
    rw [List.length_append] at hlength
    rcases r with _ | batch
    -- the drain goes on with what it holds
    · refine ⟨?_, hdraining.undone⟩
      show s.asyncCompleted + ring.pop.out.length = ring.popped.length
      rw [hpopped, List.length_append]
      rw [Sum.elim_inl] at hlength
      omega
    -- it is over, and the batch is what it holds
    · refine ⟨heffects.idle batch rfl, ?_, hdraining.undone⟩
      show s.asyncCompleted + batch.length = ring.popped.length
      rw [hpopped, List.length_append]
      rw [Sum.elim_inr, id] at hlength
      omega

/-- A batch that has been emitted is accounted, and the progress published. -/
theorem workerEmit_drains (batch : List LoggerMessage) :
    (drainLogic g).Triple .worker (Emitting batch.length) (workerEmit cfg batch)
      fun again s => again = true ∧ Working s := by
  refine Logic.Triple.bind (keeps (steady_of_calm (emitBatch_calm (fun _ => id) batch))) fun _ => ?_
  refine Logic.Triple.bind (Q := fun _ => Working) (drain_act (fun _ => working_stable) ?_)
    fun _ => ?_
  · intro s a b s' hs hemitting hact _ _
    obtain ⟨-, rfl⟩ := Prod.mk.inj (Option.some.inj hact)
    refine ⟨WorkerActs.drains ?_ hs, hemitting.idle, hemitting.accounted, hemitting.undone⟩
    exact ⟨hs.ring, rfl, rfl, rfl, rfl, rfl, rfl, rfl, rfl, id, id,
      fun hd => absurd (hemitting.undone.symm.trans hd) (by rintro ⟨⟩)⟩
  refine Logic.Triple.bind (drain_noError working_stable fun _ hs => hs.synchronizationError)
    fun syncError => ?_
  refine Logic.triple_ite (fun herror => Logic.triple_false fun s _ hs => herror hs.1) fun _ => ?_
  exact (drain_steady (steady_of_calm (publishProgress_calm fun _ => id))).pre fun _ _ hs => hs.2

/-- The head of the queue after `running` was read as zero. -/
theorem loggerQueueEmpty_stops :
    (drainLogic g).Triple .worker StopRead (loggerQueueEmpty g)
      fun stop s => Working s ∧ (stop = true → Finishing s) := by
  refine Logic.Triple.bind (Q := fun pos s => StopRead s ∧ pos = s.ring.q.dequeuePos)
    (drain_act ?_ ?_) fun pos => drain_act ?_ ?_
  · exact fun pos s s' hsees hs =>
      ⟨stopRead_stable s s' hsees hs.1, hs.2.trans (WorkerRely.dequeuePos hsees.2).symm⟩
  -- the position is read first
  · intro s a b s' hs hstop hact _ _
    obtain ⟨rfl, rfl⟩ := Prod.mk.inj (Option.some.inj hact)
    exact ⟨⟨hs, fun _ _ => .refl⟩, hstop, rfl⟩
  · exact fun stop s s' hsees hs =>
      ⟨working_stable s s' hsees hs.1, fun he => finishing_stable s s' hsees (hs.2 he)⟩
  -- then the word of its slot
  · intro s a b s' hs hstop hact _ _
    obtain ⟨⟨hworking, hrunning, earlier, hreads⟩, rfl⟩ := hstop
    obtain ⟨rfl, rfl⟩ := Prod.mk.inj (Option.some.inj hact)
    refine ⟨read_acts hs hworking.undone _, hworking.read _, fun hempty => ?_⟩
    have hhead : publishedAt g s.ring.q s.ring.q.dequeuePos = false := by
      rwa [Bool.not_eq_true'] at hempty
    refine ⟨⟨hworking.idle, hworking.accounted, hrunning, ⟨earlier, ?_⟩, fun hc => ?_⟩,
      hworking.undone⟩
    -- the two reads are the last ones, in this order
    · show s.history.reads ++ [.head _ _] = _
      rw [hreads, hhead, List.append_assoc]
      rfl
    · -- a clean stop has left every position below `enqueue_pos` published
      have hqueue := hs.ring.inv
      have hrest : s.ring.AtRest := ⟨(hs.clean hc).idle, hworking.idle⟩
      -- a position below `enqueue_pos` would be published
      have hle : s.ring.q.enqueuePos ≤ s.ring.q.dequeuePos := by
        by_contra hlt
        obtain ⟨hpub, -⟩ := hqueue.published_of_atRest hrest le_rfl (not_le.mp hlt)
        have hseq : (s.ring.q.slots (g.slotIndex s.ring.q.dequeuePos)).seq =
            s.ring.q.dequeuePos + 1 := by
          rw [g.slotIndex_eq]
          exact hpub.2.2
        rw [publishedAt, hseq, beq_self_eq_true] at hhead
        exact absurd hhead (by rintro ⟨⟩)
      have hge := hqueue.pos.head_le
      rw [QueueSys.head] at hge
      show s.ring.popped.length = s.ring.reserved.length
      rw [hqueue.pop.popped_length, hqueue.pos.reserved_length]
      omega

/-- The condition of the wait loop. -/
theorem nothingToDo_drains :
    (drainLogic g).Triple .worker Working (nothingToDo cfg) fun _ => Working := by
  have hread : ∀ {α : Type} {act : Inst → InstReply → Option (α × Inst)},
      (∀ s a b s', act s a = some (b, s') →
        ∃ r, s' = s.record fun h => { h with reads := h.reads ++ [r] }) →
      (drainLogic g).Triple .worker Working (Code.atomic .other act) fun _ => Working := by
    intro α act h
    refine drain_act (fun _ => working_stable) ?_
    intro s a b s' hs hworking hact _ _
    obtain ⟨r, rfl⟩ := h s a b s' hact
    exact ⟨read_acts hs hworking.undone r, hworking.read r⟩
  refine Logic.Triple.bind (Logic.Triple.bind (keeps (steady_of_calm (load_calm _))) fun pos =>
    hread ?_) fun empty => ?_
  · intro s a b s' hact
    exact ⟨_, (Prod.mk.inj (Option.some.inj hact)).2.symm⟩
  · refine Logic.triple_ite (fun _ => hread ?_) fun _ => Logic.triple_pure fun _ _ hs => hs
    intro s a b s' hact
    exact ⟨_, (Prod.mk.inj (Option.some.inj hact)).2.symm⟩

/-- One round of waiting keeps the work done. -/
theorem waitOnce_drains :
    (drainLogic g).Triple .worker Working (waitOnce cfg) fun _ => Working := by
  refine Logic.Triple.bind nothingToDo_drains fun idle => ?_
  refine Logic.triple_ite (fun _ => Logic.triple_pure fun _ _ hs => hs) fun _ => ?_
  refine Logic.Triple.bind (keeps (store_steady fun _ => rfl)) fun _ => ?_
  refine Logic.Triple.bind nothingToDo_drains fun idle => ?_
  refine Logic.triple_ite (fun _ => Logic.triple_pure fun _ _ hs => hs) fun _ => ?_
  refine Logic.Triple.bind (keeps condWaitQueue_steady) fun waitRc => ?_
  refine Logic.triple_ite (fun _ => ?_) fun _ => Logic.triple_pure fun _ _ hs => hs
  -- an error of the wait stops the instance; the worker looks at the queue again
  refine Logic.Triple.bind (stopInstance_triple working_stable _) fun _ => ?_
  exact Logic.triple_pure fun _ _ hs => hs

/-- The wait ends with work to do, or with an empty queue found after `running` was read as clear.
-/
theorem workerWait_drains :
    (drainLogic cfg.geometry).Triple .worker Working (workerWait cfg)
      fun again s => if again then Working s else Finishing s := by
  -- the worker takes its lock, and sleeps until something has happened
  refine Logic.Triple.bind (drain_steady (lock_steady .wait)) fun lockRc => ?_
  refine Logic.triple_ite (fun hrc => Logic.triple_false fun s _ hs => hrc hs.1) fun _ => ?_
  refine Logic.Triple.bind (Q := fun _ => Working) ((Logic.triple_iterate (fun _ => Working)
    (fun _ _ _ _ => trivial) fun _ => ?_).pre fun _ _ hs => hs.2) fun _ => ?_
  · refine Logic.Triple.bind waitOnce_drains fun again => ?_
    cases again with
    | false => exact Logic.triple_pure fun _ _ hs => hs
    | true => exact Logic.triple_pure fun _ _ hs => hs
  refine Logic.Triple.bind (keeps (store_steady fun _ => rfl)) fun _ => ?_
  refine Logic.Triple.bind (Q := fun running s => Working s ∧ (running = false → StopRead s))
    (drain_act ?_ ?_) fun running => ?_
  · exact fun running s s' hsees hs =>
      ⟨working_stable s s' hsees hs.1, fun hr => stopRead_stable s s' hsees (hs.2 hr)⟩
  -- `running` is read before the head, which the argument needs
  · intro s a b s' hs hworking hact _ _
    obtain ⟨rfl, rfl⟩ := Prod.mk.inj (Option.some.inj hact)
    refine ⟨read_acts hs hworking.undone _, hworking.read _, fun hr => ?_⟩
    refine ⟨hworking.read _, hr, ⟨s.history.reads, ?_⟩⟩
    rw [hr]
    rfl
  refine Logic.Triple.bind (Q := fun stop s => Working s ∧ (stop = true → Finishing s))
    (Logic.triple_ite (fun _ => Logic.triple_pure fun _ _ hs => ⟨hs.1, ?_⟩) fun hnot =>
      loggerQueueEmpty_stops.pre fun _ _ hs => hs.2 (by simpa using hnot)) fun stop => ?_
  · rintro ⟨⟩
  -- the lock is given back before the result is used
  refine Logic.Triple.bind (drain_steady (unlock_steady .wait)) fun unlockRc => ?_
  refine Logic.triple_ite (fun hrc => Logic.triple_false fun s _ hs => hrc hs.1) fun _ => ?_
  refine Logic.triple_pure fun s _ hs => ?_
  cases stop with
  | false => exact hs.2.1
  | true => exact hs.2.2 rfl

/-- The worker accounts for all it takes until it returns. -/
theorem loggerWorkerMain_drains :
    (drainLogic cfg.geometry).Triple .worker Working (loggerWorkerMain cfg) fun _ _ => True := by
  refine Logic.Triple.bind (Q := fun _ => Finishing) (Logic.triple_iterate (fun _ => Working)
    (fun _ _ _ _ => trivial) fun _ => ?_) fun _ => ?_
  · refine Logic.Triple.bind (loggerQueueDrain_drains _) fun batch => ?_
    refine Logic.Triple.bind (Q := fun again s => if again then Working s else Finishing s)
      (Logic.triple_ite (fun hempty => ?_) fun _ => ?_) fun again => ?_
    · refine workerWait_drains.pre fun s _ hs => ⟨hs.idle, ?_, hs.undone⟩
      have haccounted := hs.accounted
      rwa [List.isEmpty_iff.mp hempty] at haccounted
    · refine (workerEmit_drains batch).post fun again s _ hs => ?_
      rw [if_pos hs.1]
      exact hs.2
    · cases again with
      | false => exact Logic.triple_pure fun _ _ hs => hs
      | true => exact Logic.triple_pure fun _ _ hs => hs
  refine Logic.Triple.bind (keeps (steady_of_calm (finalBroadcast_calm fun _ => id))) fun _ => ?_
  refine drain_act (fun _ _ _ _ _ => trivial) ?_
  intro s a b s' hs hfinishing hact _ _
  obtain ⟨-, rfl⟩ := Prod.mk.inj (Option.some.inj hact)
  have hdone : Finished { s with workerDone := true } := { hfinishing.finished with }
  exact ⟨WorkerActs.drains ⟨hs.ring, rfl, rfl, rfl, rfl, rfl, rfl, rfl, rfl, id, id,
    fun _ => hdone⟩ hs, trivial⟩

end Worker

section Correctness

variable {level : LoggerLevel} {sinks : Sinks} {S : System Inst InstReply InstLabel InstThread}

/-- A thread without a program. -/
def Idle : InstThread → Inst → Prop
  | .worker => fun _ => True
  | .caller n => Outside n

/-- An instance starts with nothing taken and nothing owed. -/
theorem drain_starts :
    (drainLogic cfg.geometry).Starts Idle (instStart cfg level sinks) := by
  refine ⟨?_, fun t => ?_⟩
  · exact {
      ring := .refl
      waitMuError := rfl
      synchronizationError := rfl
      outside := fun _ _ => rfl
      owed := rfl
      clean := fun hc => absurd hc (by rintro ⟨⟩)
      done := fun hd => absurd hd (by rintro ⟨⟩) }
  · cases t with
    | caller n =>
      exact ⟨Outside n, outside_stable, Finset.notMem_empty n, Logic.triple_pure fun _ _ hs => hs⟩
    | worker =>
      refine ⟨Working, working_stable, ⟨rfl, rfl, rfl⟩, ?_⟩
      exact Logic.triple_ite (fun _ => loggerWorkerMain_drains) fun _ =>
        Logic.triple_pure fun _ _ _ => trivial

/-- Every call of a thread that is idle keeps the balance. -/
theorem drain_serves : (drainLogic cfg.geometry).Serves Idle (fun _ => True) (instApi cfg) := by
  intro t call _
  cases t with
  | worker => exact Logic.triple_pure fun _ _ hs => hs
  | caller n =>
    cases call with
    | vlog c => exact loggerVlogInternal_drains c
    | logSyncStatus c => exact keeps (steady_of_calm (loggerLogSyncStatus_calm (fun _ => id) n c))
    | flush => exact keeps (steady_of_calm (loggerFlush_calm fun _ => id))
    | reopen => exact keeps (steady_of_calm (loggerReopen_calm fun _ => id))
    | setLevel level => exact keeps (steady_of_calm (loggerSetInstanceLevel_calm level))
    | dispose => exact disposeBody_drains

/-- What holds when the worker has returned. -/
structure Drained (g : QueueGeometry) (s : Inst) : Prop where
  /-- Its last reads: `running` as zero, and after that the head of the queue as unpublished. -/
  reads : ∃ earlier, s.history.reads =
    earlier ++ [.running false, .head s.ring.q.dequeuePos false]
  /-- The records below that position have been taken, each once, and accounted. -/
  taken : s.ring.popped.length = s.ring.q.dequeuePos
  delivered : ∀ p m, s.ring.popped[p]? = some m → s.ring.Delivers p m
  accounted : s.asyncCompleted = s.ring.q.dequeuePos
  /-- After a clean stop these are all records. -/
  clean : s.history.cleanStop = true → s.asyncCompleted = s.enqueued ∧
    s.enqueued = s.ring.q.enqueuePos ∧ s.ring.q.enqueuePos = s.ring.q.dequeuePos ∧
      loggerQueueSpillInUse g s.ring.q = 0

/-- Shutdown drains the queue. In every run in which the locks work, whatever the waits, the signals
and the outputs do, the worker returns only when it has read `running` as zero and found the head
unpublished after that, with every record below it taken and accounted. If `dispose_body` has found
`running` set and no logging call in progress, nothing is left. Positions that wrap have to be
recent, as in `Fresh`. -/
theorem worker_drains (h : InstReachable cfg
      (fun s _ a _ => a.pthread = 0 ∧ Fresh cfg.geometry s.ring) level sinks S)
    (hdone : S.shared.workerDone = true) : Drained cfg.geometry S.shared := by
  have hinv : DrainInv cfg.geometry S.shared :=
    (Logic.sound (M := drainLogic cfg.geometry) drain_starts drain_serves h).1
  have hqueue := hinv.ring.inv
  have hfinished := hinv.done hdone
  have hpopped := hqueue.pop.popped_length
  refine ⟨hfinished.reads, hpopped, hqueue.pop.popped, hfinished.accounted.trans hpopped,
    fun hc => ?_⟩
  have hquiet := hinv.clean hc
  have hall := hfinished.clean hc
  have hreserved := hqueue.pos.reserved_length
  refine ⟨?_, hquiet.enqueued.symm.trans hreserved, ?_, ?_⟩
  · rw [hfinished.accounted, hall, hquiet.enqueued]
  · rw [← hreserved, ← hall, hpopped]
  · rw [hqueue.spillInUse_of_atRest ⟨hquiet.idle, hfinished.idle⟩, ← hpopped, hall,
      List.drop_length]
    rfl

/-- A record is logged, the instance is stopped, and the worker runs to its end. -/
def stopRun : List (Move InstReply InstThread InstCall) :=
  .call (.caller 0) (.vlog sampleCall) :: List.replicate 52 (.step (.caller 0) {}) ++
    .call (.caller 1) .dispose :: List.replicate 8 (.step (.caller 1) {}) ++
      List.replicate 150 (.step .worker { answer := { count := 100 } })

theorem worker_drains_stopRun : ∃ S : System Inst InstReply InstLabel InstThread,
    S.shared.workerDone = true ∧ S.shared.history.cleanStop = true ∧ S.shared.asyncCompleted = 1 ∧
      Drained sampleConfig.geometry S.shared := by
  have hrun : (exec (sysNext (instApi sampleConfig)) (instStart sampleConfig .info sampleSinks)
      stopRun).map (fun S => (S.shared.workerDone, S.shared.history.cleanStop,
        S.shared.asyncCompleted)) = some (true, true, 1) := by decide +kernel
  obtain ⟨S, hexec, heq⟩ := Option.map_eq_some_iff.mp hrun
  obtain ⟨hdone, hrest⟩ := Prod.mk.inj heq
  obtain ⟨hclean, hone⟩ := Prod.mk.inj hrest
  have hlocks : ∀ i a, Move.step i a ∈ stopRun → a.pthread = 0 := by
    intro i a hm
    simp only [stopRun, List.mem_append, List.mem_cons, List.mem_replicate, Move.step.injEq,
      reduceCtorEq, false_or] at hm
    rcases hm with (⟨-, -, rfl⟩ | ⟨-, -, rfl⟩) | ⟨-, -, rfl⟩
    · rfl
    · rfl
    · rfl
  have hreach : InstReachable sampleConfig
      (fun s _ a _ => a.pthread = 0 ∧ Fresh sampleConfig.geometry s.ring) .info sampleSinks S := by
    refine reachable_of_exec (fun m hm s s' => ?_) hexec
    cases m with
    | call i c => trivial
    | step i a => exact ⟨hlocks i a hm, fun _ _ _ => trivial⟩
  exact ⟨S, hdone, hclean, hone, worker_drains hreach hdone⟩

end Correctness

end CLogger.Instance
