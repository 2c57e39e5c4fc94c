import CLogger.Instance.Account
import Mathlib.Algebra.BigOperators.Group.Finset.Piecewise

/-!
# The steps that move the accounts

One lemma for each kind of step that is not slight: it keeps the invariant of the accounts and does
what the other threads rely on.

* `accounts_lock`, `accounts_sinks`, `accounts_emit`, `accounts_release`: the sections under
  `emit_mu`.
* `accounts_fail`, `accounts_count`, `accounts_complete`: the counters.
* `accounts_push`, `accounts_pop`, `accounts_progress`: the queue.
* `accounts_calls`, `accounts_flushed`, `accounts_synced`: the calls.
-/

namespace CLogger.Instance

open Concurrent

variable {recent : Prop} {cfg : InstConfig} {start : Sinks} {s s' s'' : Inst} {t : InstThread}

/-- Two steps of the accounts are one. -/
theorem Accounts.trans (h : Accounts recent cfg start t s s')
    (h' : Accounts recent cfg start t s' s'') : Accounts recent cfg start t s s'' :=
  ⟨h'.inv, h.guar.trans h'.guar, fun u hu => (h.rely u hu).trans (h'.rely u hu)⟩

/-- Nobody else owns `emit_mu`. -/
theorem no_other_owner {u : InstThread} {p : Prop} (ho : s.owner .emit = some t) (hu : u ≠ t)
    (hu' : s.owner .emit = some u) : p :=
  absurd (Option.some.inj (hu'.symm.trans ho)) hu

section Sections

/-- `emit_mu` is taken by one thread. -/
theorem accounts_lock (hs : AccountInv recent cfg start s) (hfree : s.owner .emit = none) :
    Accounts recent cfg start t s (s.own .emit (some t)) where
  inv := { hs with
    sinks := by
      obtain ⟨w, hw, -⟩ := hs.sinks
      refine ⟨w, hw, fun howner => ?_⟩
      rw [Inst.own_owner] at howner
      exact absurd howner (by rintro ⟨⟩) }
  guar := ⟨fun _ => rfl, id, fun _ => le_rfl, List.prefix_rfl, List.prefix_rfl, List.prefix_rfl,
    le_rfl⟩
  rely u _ := by
    refine ⟨fun ho => ?_, rfl, rfl, rfl, fun _ _ => rfl, fun _ => ⟨rfl, rfl, rfl, rfl⟩⟩
    rw [hfree] at ho
    exact absurd ho (by rintro ⟨⟩)

/-- The holder of `emit_mu` changes the outputs. -/
theorem accounts_sinks (hs : AccountInv recent cfg start s) (ho : s.owner .emit = some t)
    (w : Sinks) : Accounts recent cfg start t s { s with sinks := w } where
  inv := { hs with
    sinks := by
      obtain ⟨w', hw', -⟩ := hs.sinks
      exact ⟨w', hw', fun howner => absurd (ho.symm.trans howner) (by rintro ⟨⟩)⟩ }
  guar := ⟨fun _ => rfl, id, fun _ => le_rfl, List.prefix_rfl, List.prefix_rfl, List.prefix_rfl,
    le_rfl⟩
  rely _ hu := ⟨no_other_owner ho hu, rfl, rfl, rfl, fun _ _ => rfl,
    fun _ => ⟨rfl, rfl, rfl, rfl⟩⟩

/-- The words after an emission. -/
def Inst.emits (s : Inst) (e : Emission) : Inst :=
  s.record fun h => { h with emissions := h.emissions ++ [e] }

/-- A section is recorded, by a thread that has counted its earlier ones. -/
theorem accounts_emit (hs : AccountInv recent cfg start s) (ho : s.owner .emit = some t)
    {e : Emission} (ht : e.thread = t) {w : Sinks}
    (hreached : SinksReached cfg start (s.history.emissions ++ [e]) w)
    (hclear : s.countedBy t = (s.emittedBy t).filter Emission.counts)
    (horder : t = .worker → (recordsOf (s.emittedBy .worker) ++ e.records).Sublist s.ring.popped) :
    Accounts recent cfg start t s (s.emits e) where
  inv := { hs with
    sinks := ⟨w, hreached, fun howner => absurd (ho.symm.trans howner) (by rintro ⟨⟩)⟩
    counted := fun e' he' => List.mem_append_left _ (hs.counted e' he')
    -- only the sections of `t` get one more, and that one is not counted yet
    pending := fun u => by
      by_cases hu : u = t
      · subst hu
        refine ⟨[e].filter Emission.counts, ?_, List.length_filter_le _ _⟩
        show (ofThread u (s.history.emissions ++ [e])).filter _ = s.countedBy u ++ _
        rw [ofThread_append, ofThread_own ht, List.filter_append, hclear]
        rfl
      · obtain ⟨rest, hrest, hlength⟩ := hs.pending u
        refine ⟨rest, ?_, hlength⟩
        show (ofThread u (s.history.emissions ++ [e])).filter _ = _
        rw [ofThread_more (List.forall_mem_singleton.mpr ht) hu]
        exact hrest
    order := by
      -- the order is about the worker alone
      show (recordsOf (ofThread .worker (s.history.emissions ++ [e]))).Sublist s.ring.popped
      by_cases hworker : t = .worker
      · rw [ofThread_append, ofThread_own (ht.trans hworker), recordsOf_append, recordsOf_singleton]
        exact horder hworker
      · rw [ofThread_more (List.forall_mem_singleton.mpr ht) (Ne.symm hworker)]
        exact hs.order }
  guar := ⟨fun _ => rfl, id, fun _ => le_rfl, List.prefix_append _ _, List.prefix_rfl,
    List.prefix_rfl, le_rfl⟩
  -- the other threads own nothing, and their sections are the same
  rely u hu := by
    refine ⟨no_other_owner ho hu, rfl, ?_, rfl, fun _ _ => rfl, fun _ => ⟨rfl, rfl, rfl, rfl⟩⟩
    show ofThread u (s.history.emissions ++ [e]) = _
    rw [ofThread_more (List.forall_mem_singleton.mpr ht) hu]
    rfl

/-- The holder of `emit_mu` gives it up, or keeps it when the unlock has failed. -/
theorem accounts_release (hs : AccountInv recent cfg start s) (ho : s.owner .emit = some t)
    (hreached : SinksReached cfg start s.history.emissions s.sinks) (a : InstReply) :
    Accounts recent cfg start t s (s.unlocked .emit a) := by
  unfold Inst.unlocked
  split
  · refine ⟨{ hs with sinks := ⟨s.sinks, hreached, fun _ => rfl⟩ }, ?_, fun _ hu => ?_⟩
    · exact ⟨fun _ => rfl, id, fun _ => le_rfl, List.prefix_rfl, List.prefix_rfl, List.prefix_rfl,
        le_rfl⟩
    · exact ⟨no_other_owner ho hu, rfl, rfl, rfl, fun _ _ => rfl, fun _ => ⟨rfl, rfl, rfl, rfl⟩⟩
  · exact (Mild.refl s).accounts hs

end Sections

section Counters

/-- The sum with one thread apart. -/
theorem Balanced.apart {f : InstThread → ℕ} {total completed : ℕ} (h : Balanced f total completed)
    (t : InstThread) : ∃ T : Finset InstThread, t ∈ T ∧ (∀ u ∉ T, f u = 0) ∧
      total = completed + (f t + ∑ u ∈ T \ {t}, f u) := by
  obtain ⟨T, hout, rfl⟩ := h
  refine ⟨insert t T, Finset.mem_insert_self t T, fun u hu => ?_, ?_⟩
  · rw [Finset.mem_insert, not_or] at hu
    exact hout u hu.2
  · rw [← Finset.sum_eq_add_sum_sdiff_singleton_of_mem (Finset.mem_insert_self t T)]
    exact congrArg _ (Finset.sum_subset (Finset.subset_insert t T) fun u _ hu => hout u hu)

/-- What is counted by a thread is owed by it until it is completed. -/
theorem Balanced.add {f : InstThread → ℕ} {total completed : ℕ} (h : Balanced f total completed)
    (t : InstThread) (k : ℕ) : Balanced (Function.update f t (f t + k)) (total + k) completed := by
  obtain ⟨T, ht, hout, rfl⟩ := h.apart t
  refine ⟨T, fun u hu => ?_, ?_⟩
  · rw [Function.update_of_ne (ne_of_mem_of_not_mem ht hu).symm]
    exact hout u hu
  · rw [Finset.sum_update_of_mem ht]
    omega

/-- A thread counts as completed what it has accounted. -/
theorem Balanced.settle {f : InstThread → ℕ} {total completed : ℕ} (h : Balanced f total completed)
    (t : InstThread) : Balanced (Function.update f t 0) total (completed + f t) := by
  obtain ⟨T, ht, hout, rfl⟩ := h.apart t
  refine ⟨T, fun u hu => ?_, ?_⟩
  · rw [Function.update_of_ne (ne_of_mem_of_not_mem ht hu).symm]
    exact hout u hu
  · rw [Finset.sum_update_of_mem ht]
    omega

/-- The words after a thread has counted records as failed. -/
def Inst.fails (s : Inst) (t : InstThread) (bad : ℕ) : Inst :=
  { s with failedRecords := s.failedRecords + bad }.record fun h =>
    { h with accounted := Function.update h.accounted t (h.accounted t + bad) }

/-- Failed records are counted after an error has been noted. -/
theorem accounts_fail (hs : AccountInv recent cfg start s) {bad : ℕ}
    (herror : 0 < bad → 0 < s.firstError) : Accounts recent cfg start t s (s.fails t bad) where
  inv := { hs with
    balance := by
      have hsum := hs.balance.add t bad
      rw [Nat.add_assoc] at hsum
      exact hsum
    failed := fun hpos => by
      have hpos' : 0 < s.failedRecords + bad := hpos
      rcases Nat.eq_zero_or_pos bad with rfl | hbad
      · exact hs.failed hpos'
      · exact herror hbad }
  guar := ⟨fun _ => rfl, id, fun _ => le_rfl, List.prefix_rfl, List.prefix_rfl, List.prefix_rfl,
    le_rfl⟩
  rely _ hu := ⟨fun ho => ⟨ho, rfl, rfl⟩, Function.update_of_ne hu _ _, rfl, rfl, fun _ _ => rfl,
    fun _ => ⟨rfl, rfl, rfl, rfl⟩⟩

/-- The words after a thread has counted the records of an emission as emitted. -/
def Inst.counts (s : Inst) (t : InstThread) (good : ℕ) (es : List Emission) : Inst :=
  { s with emittedRecords := s.emittedRecords + good }.record fun h =>
    { h with
      accounted := Function.update h.accounted t (h.accounted t + good)
      counted := h.counted ++ es }

/-- Emitted records are counted with the section they were emitted in. -/
theorem accounts_count (hs : AccountInv recent cfg start s) {es : List Emission} {good : ℕ}
    (hgood : good = (es.map fun e => e.failed.count false).sum) (ht : ∀ e ∈ es, e.thread = t)
    (hemitted : (s.emittedBy t).filter Emission.counts = s.countedBy t ++ es)
    (hclean : s.firstError = 0 → ∀ e ∈ es, e.Clean)
    (hworker : t = .worker → recent → s.firstError = 0 →
      recordsOf (s.countedBy .worker ++ es) <+: s.ring.popped) :
    Accounts recent cfg start t s (s.counts t good es) where
  inv := { hs with
    -- a section that is counted has been emitted
    counted := fun e he => by
      rcases List.mem_append.mp he with he | he
      · exact hs.counted e he
      · have hmem : e ∈ (s.emittedBy t).filter Emission.counts :=
          hemitted ▸ List.mem_append_right _ he
        exact (mem_ofThread.mp (List.mem_filter.mp hmem).1).1
    -- the sections of `t` are all counted now
    pending := fun u => by
      by_cases hu : u = t
      · subst hu
        refine ⟨[], ?_, Nat.zero_le _⟩
        show _ = ofThread u (s.history.counted ++ es) ++ []
        rw [List.append_nil, ofThread_append, ofThread_self ht]
        exact hemitted
      · obtain ⟨rest, hrest, hlength⟩ := hs.pending u
        refine ⟨rest, ?_, hlength⟩
        show _ = ofThread u (s.history.counted ++ es) ++ rest
        rw [ofThread_more ht hu]
        exact hrest
    emitted := by
      show s.emittedRecords + good = ((s.history.counted ++ es).map _).sum
      rw [List.map_append, List.sum_append, ← hs.emitted, hgood]
    -- both sides of the balance grow by the records
    balance := by
      have hsum := hs.balance.add t good
      rw [Nat.add_right_comm] at hsum
      exact hsum
    clean := fun hz e he => by
      rcases List.mem_append.mp he with he | he
      · exact hs.clean hz e he
      · exact hclean hz e he
    -- the worker has counted the records it has popped
    worker := fun hr hz => by
      obtain ⟨hcompleted, hpopped⟩ := hs.worker hr hz
      show WorkerCounts (s.history.counted ++ es) s.ring.popped s.completedPos
      by_cases hworker' : t = .worker
      · subst hworker'
        refine ⟨?_, ?_⟩
        · rw [ofThread_append, recordsOf_append, List.length_append]
          omega
        · rw [ofThread_append, ofThread_self ht]
          exact hworker rfl hr hz
      · have hsame : ofThread .worker (s.history.counted ++ es) =
            ofThread .worker s.history.counted := ofThread_more ht (Ne.symm hworker')
        exact ⟨by rw [hsame]; exact hcompleted, by rw [hsame]; exact hpopped⟩
    flushes := fun r hr hrecent hasync hrc =>
      (hs.flushes r hr hrecent hasync hrc).mono (List.prefix_append _ _) List.prefix_rfl
    syncCalls := fun r hr hrc => (hs.syncCalls r hr hrc).mono (List.prefix_append _ _) }
  guar := ⟨fun _ => rfl, id, fun _ => le_rfl, List.prefix_rfl, List.prefix_append _ _,
    List.prefix_rfl, le_rfl⟩
  -- the counters of the other threads are not touched
  rely u hu := by
    refine ⟨fun ho => ⟨ho, rfl, rfl⟩, Function.update_of_ne hu _ _, rfl, ?_, fun _ _ => rfl,
      fun _ => ⟨rfl, rfl, rfl, rfl⟩⟩
    show ofThread u (s.history.counted ++ es) = _
    rw [ofThread_more ht hu]
    rfl

/-- A thread counts what it has accounted as completed, in one of the two counters. -/
theorem accounts_complete (hs : AccountInv recent cfg start s) (async sync : ℕ)
    (hsum : async + sync = s.history.accounted t) :
    Accounts recent cfg start t s ({ s with
      asyncCompleted := s.asyncCompleted + async
      syncCompleted := s.syncCompleted + sync }.record fun h =>
        { h with accounted := Function.update h.accounted t 0 }) where
  inv := { hs with
    balance := by
      have hsettled := hs.balance.settle t
      have hshift : s.asyncCompleted + s.syncCompleted + s.history.accounted t =
          s.asyncCompleted + async + (s.syncCompleted + sync) := by omega
      rw [hshift] at hsettled
      exact hsettled }
  guar := ⟨fun _ => rfl, id, fun _ => le_rfl, List.prefix_rfl, List.prefix_rfl, List.prefix_rfl,
    le_rfl⟩
  rely _ hu := ⟨fun ho => ⟨ho, rfl, rfl⟩, Function.update_of_ne hu _ _, rfl, rfl, fun _ _ => rfl,
    fun _ => ⟨rfl, rfl, rfl, rfl⟩⟩

end Counters

section Queue

variable {n : ℕ} {ring' : QueueSys ℕ}

/-- A step of a push concerns the ring and the log of its call. -/
theorem accounts_push (hs : AccountInv recent cfg start s) {r : Unit ⊕ Bool}
    (h : PushEffects n s.ring r ring') (hring : recent → QueueReachable cfg.geometry ring') :
    Accounts recent cfg start (.caller n) s { s with ring := ring' } where
  inv := { hs with
    ring := hring
    order := by
      show (recordsOf (s.emittedBy .worker)).Sublist ring'.popped
      rw [h.popped]
      exact hs.order
    worker := by
      show recent → s.firstError = 0 → WorkerCounts s.history.counted ring'.popped s.completedPos
      rw [h.popped]
      exact hs.worker
    lag := by
      show recent → s.lifecycleError = 0 → ring'.q.dequeuePos ≤ _
      rw [h.dequeuePos]
      exact hs.lag
    flushes := by
      show ∀ r ∈ s.history.flushes, recent → cfg.asyncMode → r.rc = 0 →
        FlushBacked cfg start s.history.counted ring'.popped r
      rw [h.popped]
      exact hs.flushes }
  guar := ⟨fun _ => rfl, id, fun _ => le_rfl, List.prefix_rfl, List.prefix_rfl, by rw [h.popped],
    h.grown⟩
  rely _ _ := ⟨fun ho => ⟨ho, rfl, rfl⟩, rfl, rfl, rfl, fun _ _ => rfl,
    fun _ => ⟨h.popped, h.pop, h.dequeuePos, rfl⟩⟩

/-- The worker is the only one that takes records. -/
theorem accounts_pop (hs : AccountInv recent cfg start s)
    (hring : recent → QueueReachable cfg.geometry ring') (hpopped : s.ring.popped <+: ring'.popped)
    (hreserved : ring'.reserved = s.ring.reserved)
    (hlag : recent → s.lifecycleError = 0 →
      ring'.q.dequeuePos ≤ s.completedPos + cfg.workspaceCapacity) :
    Accounts recent cfg start .worker s { s with ring := ring' } where
  inv := { hs with
    ring := hring
    order := hs.order.trans hpopped.sublist
    worker := fun hr hz =>
      ⟨(hs.worker hr hz).completed, (hs.worker hr hz).popped.trans hpopped⟩
    lag := hlag
    flushes := fun r hr hrecent hasync hrc =>
      (hs.flushes r hr hrecent hasync hrc).mono List.prefix_rfl hpopped }
  guar := ⟨fun _ => rfl, id, fun _ => le_rfl, List.prefix_rfl, List.prefix_rfl, hpopped,
    by rw [hreserved]⟩
  rely _ hu := ⟨fun ho => ⟨ho, rfl, rfl⟩, rfl, rfl, rfl, fun _ _ => rfl, fun hw => absurd hw hu⟩

/-- The progress moves on to what has been counted. -/
theorem accounts_progress (hs : AccountInv recent cfg start s) {pos : ℕ}
    (hmono : recent → s.completedPos ≤ pos)
    (hworker : recent → s.firstError = 0 → pos ≤ (recordsOf (s.countedBy .worker)).length)
    (hlag : recent → s.ring.q.dequeuePos ≤ pos) :
    Accounts recent cfg start .worker s { s with completedPos := pos } where
  inv := { hs with
    worker := fun hr hz => ⟨hworker hr hz, (hs.worker hr hz).popped⟩
    lag := fun hr _ => (hlag hr).trans (Nat.le_add_right _ _) }
  guar := ⟨fun _ => rfl, id, hmono, List.prefix_rfl, List.prefix_rfl, List.prefix_rfl, le_rfl⟩
  rely _ hu := ⟨fun ho => ⟨ho, rfl, rfl⟩, rfl, rfl, rfl, fun _ _ => rfl, fun hw => absurd hw hu⟩

end Queue

section Calls

/-- A change beside the ledger is a step of the accounts. -/
theorem accounts_slight (hs : AccountInv recent cfg start s) (h : Slight s s')
    (hcalls : ∀ n, t ≠ .caller n → s'.history.calls n = s.history.calls n) :
    Accounts recent cfg start t s s' :=
  ⟨h.inv hs, h.guar, fun _ hu => h.rely fun n hn => hcalls n fun ht => hu (hn.trans ht.symm)⟩

/-- The receipt of a flush is written when it is backed. -/
theorem accounts_flushed (hs : AccountInv recent cfg start s) {r : FlushReceipt}
    (hr : recent → cfg.asyncMode → r.rc = 0 →
      FlushBacked cfg start s.history.counted s.ring.popped r) :
    Accounts recent cfg start t s
      (s.record fun h => { h with flushes := h.flushes ++ [r] }) where
  inv := { hs with
    flushes := fun r' hr' => by
      rcases List.mem_append.mp hr' with hr' | hr'
      · exact hs.flushes r' hr'
      · obtain rfl := List.mem_singleton.mp hr'
        exact hr }
  guar := ⟨fun _ => rfl, id, fun _ => le_rfl, List.prefix_rfl, List.prefix_rfl, List.prefix_rfl,
    le_rfl⟩
  rely _ _ := ⟨fun ho => ⟨ho, rfl, rfl⟩, rfl, rfl, rfl, fun _ _ => rfl,
    fun _ => ⟨rfl, rfl, rfl, rfl⟩⟩

/-- So is that of a synchronous record. -/
theorem accounts_synced (hs : AccountInv recent cfg start s) {r : SyncReceipt}
    (hr : r.rc = 0 → SyncBacked cfg s.history.counted r) :
    Accounts recent cfg start t s
      (s.record fun h => { h with syncCalls := h.syncCalls ++ [r] }) where
  inv := { hs with
    syncCalls := fun r' hr' => by
      rcases List.mem_append.mp hr' with hr' | hr'
      · exact hs.syncCalls r' hr'
      · obtain rfl := List.mem_singleton.mp hr'
        exact hr }
  guar := ⟨fun _ => rfl, id, fun _ => le_rfl, List.prefix_rfl, List.prefix_rfl, List.prefix_rfl,
    le_rfl⟩
  rely _ _ := ⟨fun ho => ⟨ho, rfl, rfl⟩, rfl, rfl, rfl, fun _ _ => rfl,
    fun _ => ⟨rfl, rfl, rfl, rfl⟩⟩

end Calls

end CLogger.Instance
