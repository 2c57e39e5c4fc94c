import CLogger.Instance.Emission
import CLogger.Instance.Ring
import Mathlib.Algebra.BigOperators.Group.Finset.Basic

/-!
# The accounts of an instance

Every record that reaches an emission is counted as emitted or as failed, and then as completed;
what is counted as emitted has been written in a section of its own under `emit_mu`. This module
fixes the rely-guarantee setting in which that is proved for every outcome of every call, and the
rules by which code that has nothing to do with the accounts is passed.

* `AccountInv`: what holds in every state, and `accountLogic`.
* `Mild`: a step that leaves the accounts alone, and `Passes`: code of such steps.
-/

namespace CLogger.Instance

open Concurrent TransitionSystem

variable {recent : Prop} {cfg : InstConfig} {start : Sinks} {s s' s'' : Inst} {t u : InstThread}
  {n : ℕ}

section Emissions

/-- The emissions of a thread. -/
def ofThread (t : InstThread) (es : List Emission) : List Emission :=
  es.filter fun e => e.thread = t

/-- The sections that thread `t` has run. -/
def Inst.emittedBy (s : Inst) (t : InstThread) : List Emission := ofThread t s.history.emissions

/-- The sections of thread `t` whose records have been counted as emitted. -/
def Inst.countedBy (s : Inst) (t : InstThread) : List Emission := ofThread t s.history.counted

/-- The emission is counted: a batch in any case, a record of its own unless it has failed. -/
def Emission.counts (e : Emission) : Bool := e.thread = .worker || e.failed = [false]

/-- The records of emissions. -/
def recordsOf (es : List Emission) : List LoggerMessage := es.flatMap Emission.records

/-- No record of the emission has failed. -/
def Emission.Clean (e : Emission) : Prop := ∀ b ∈ e.failed, b = false

@[simp] theorem recordsOf_append (es es' : List Emission) :
    recordsOf (es ++ es') = recordsOf es ++ recordsOf es' := List.flatMap_append

@[simp] theorem recordsOf_singleton (e : Emission) : recordsOf [e] = e.records :=
  List.flatMap_singleton _ _

@[simp] theorem ofThread_append (es es' : List Emission) :
    ofThread t (es ++ es') = ofThread t es ++ ofThread t es' := List.filter_append _ _

/-- All sections of a thread are its own. -/
theorem ofThread_self {es : List Emission} (h : ∀ e ∈ es, e.thread = t) : ofThread t es = es :=
  List.filter_eq_self.mpr fun e he => decide_eq_true (h e he)

/-- More emissions of one thread are none of the others. -/
theorem ofThread_more {es es' : List Emission} (h : ∀ e ∈ es', e.thread = t) (hu : u ≠ t) :
    ofThread u (es ++ es') = ofThread u es := by
  have hnone : ofThread u es' = [] :=
    List.filter_eq_nil_iff.mpr fun e he => by simpa [h e he] using Ne.symm hu
  rw [ofThread_append, hnone, List.append_nil]

/-- A single section of a thread is its own. -/
theorem ofThread_own {e : Emission} (h : e.thread = t) : ofThread t [e] = [e] :=
  ofThread_self (List.forall_mem_singleton.mpr h)

/-- A section belongs to the thread that has run it. -/
theorem mem_ofThread {e : Emission} {es : List Emission} :
    e ∈ ofThread t es ↔ e ∈ es ∧ e.thread = t := by
  rw [ofThread, List.mem_filter, decide_eq_true_eq]

/-- Every batch is counted. -/
theorem filter_counts_worker {es : List Emission} (h : ∀ e ∈ es, e.thread = .worker) :
    es.filter Emission.counts = es := by
  refine List.filter_eq_self.mpr fun e he => ?_
  rw [Emission.counts, decide_eq_true (h e he), Bool.true_or]

end Emissions

section Tally

variable {value value' : CallCounter → ℕ} {counts : List (ℕ × CallCounter)}
  {calls : ℕ → CallLog}

/-- The value of a counter of the logging calls. -/
def Inst.counter (s : Inst) : CallCounter → ℕ
  | .enqueued => s.enqueued
  | .syncFallbacks => s.syncFallbacks
  | .dropped level => s.droppedByLevel level

/-- The counters of the logging calls are what the calls have counted. -/
structure Tallied (value : CallCounter → ℕ) (counts : List (ℕ × CallCounter))
    (calls : ℕ → CallLog) : Prop where
  counters : ∀ c, value c = (counts.map Prod.snd).count c
  since : ∀ n, (calls n).since ≤ counts.length
  /-- A call has counted what its caller has added since it began. -/
  counted : ∀ n, (calls n).counted =
    ((counts.drop (calls n).since).filter fun p => p.1 = n).map Prod.snd

/-- The log of a call may say more of it, as long as it counts the same. -/
theorem Tallied.log (h : Tallied value counts calls) {l : CallLog}
    (hsince : l.since = (calls n).since) (hcounted : l.counted = (calls n).counted) :
    Tallied value counts (Function.update calls n l) := by
  refine ⟨h.counters, fun m => ?_, fun m => ?_⟩
  · by_cases hm : m = n
    · subst hm
      rw [Function.update_self, hsince]
      exact h.since m
    · rw [Function.update_of_ne hm]
      exact h.since m
  · by_cases hm : m = n
    · subst hm
      rw [Function.update_self, hsince, hcounted]
      exact h.counted m
    · rw [Function.update_of_ne hm]
      exact h.counted m

/-- A call that begins has counted nothing. -/
theorem Tallied.begin (h : Tallied value counts calls) (n : ℕ) :
    Tallied value counts (Function.update calls n { since := counts.length }) := by
  refine ⟨h.counters, fun m => ?_, fun m => ?_⟩
  · by_cases hm : m = n
    · subst hm
      rw [Function.update_self]
    · rw [Function.update_of_ne hm]
      exact h.since m
  · by_cases hm : m = n
    · subst hm
      rw [Function.update_self, List.drop_length]
      rfl
    · rw [Function.update_of_ne hm]
      exact h.counted m

/-- A call increments one of the counters. -/
theorem Tallied.count (h : Tallied value counts calls) (n : ℕ) {c : CallCounter}
    (hvalue : ∀ c', value' c' = value c' + if c = c' then 1 else 0) :
    Tallied value' (counts ++ [(n, c)])
      (Function.update calls n { calls n with counted := (calls n).counted ++ [c] }) := by
  refine ⟨fun c' => ?_, fun m => ?_, fun m => ?_⟩
  · rw [hvalue, h.counters, List.map_append, List.count_append, List.map_singleton,
      List.count_singleton]
    simp only [beq_iff_eq]
  · have hmore : (calls m).since ≤ (counts ++ [(n, c)]).length := by
      rw [List.length_append]
      exact (h.since m).trans (Nat.le_add_right _ _)
    by_cases hm : m = n
    · subst hm
      rw [Function.update_self]
      exact hmore
    · rw [Function.update_of_ne hm]
      exact hmore
  · have hdrop : (counts ++ [(n, c)]).drop (calls m).since =
        counts.drop (calls m).since ++ [(n, c)] := List.drop_append_of_le_length (h.since m)
    by_cases hm : m = n
    · subst hm
      rw [Function.update_self]
      show (calls m).counted ++ [c] = _
      rw [hdrop, List.filter_append, List.map_append, ← h.counted]
      simp
    · rw [Function.update_of_ne hm, hdrop, List.filter_append, List.map_append, ← h.counted]
      simp [Ne.symm hm]

end Tally

section Accounts

/-- The balance of the counters: what threads have counted as emitted or failed and not yet as
completed makes the difference. -/
def Balanced (accounted : InstThread → ℕ) (total completed : ℕ) : Prop :=
  ∃ T : Finset InstThread, (∀ t ∉ T, accounted t = 0) ∧ total = completed + ∑ t ∈ T, accounted t

/-- What the worker has accounted as long as nothing has failed. -/
structure WorkerCounts (counted : List Emission) (popped : List LoggerMessage)
    (completedPos : ℕ) : Prop where
  completed : completedPos ≤ (recordsOf (ofThread .worker counted)).length
  popped : recordsOf (ofThread .worker counted) <+: popped

/-- What an acknowledged flush of an asynchronous instance rests on. -/
structure FlushBacked (cfg : InstConfig) (start : Sinks) (counted : List Emission)
    (popped : List LoggerMessage) (r : FlushReceipt) : Prop where
  counted : r.waited <+: counted
  clean : ∀ e ∈ r.waited, e.Clean
  popped : recordsOf (ofThread .worker r.waited) <+: popped
  reached : r.target ≤ (recordsOf (ofThread .worker r.waited)).length
  look : ∃ look, r.look = some look ∧ look.failedRecords = 0 ∧ (cfg.outFile → look.fileRc = 0 ∧
    (∃ es w, SinksReached cfg start es w ∧ w.file = look.before ∧ ∀ e ∈ r.waited, e ∈ es) ∧
    TapeProgram.Returns (FileOp.sync.exec cfg.libc) look.before 0 look.after)

/-- What an acknowledged synchronous record rests on. -/
def SyncBacked (cfg : InstConfig) (counted : List Emission) (r : SyncReceipt) : Prop :=
  ∃ e ∈ counted.drop r.since, e.records = [vlogRecord (captureMaskFromConfig cfg.line) r.call] ∧
    e.forced = true ∧ e.failed = [false]

/-- What holds in every state, whatever fails. -/
structure AccountInv (recent : Prop) (cfg : InstConfig) (start : Sinks) (s : Inst) : Prop where
  ring : recent → QueueReachable cfg.geometry s.ring
  firstError : 0 ≤ s.firstError
  synchronizationError : 0 ≤ s.synchronizationError
  /-- Outside the sections under `emit_mu` the outputs are as the last section has left them. -/
  sinks : ∃ w, SinksReached cfg start s.history.emissions w ∧ (s.owner .emit = none → s.sinks = w)
  counted : ∀ e ∈ s.history.counted, e ∈ s.history.emissions
  /-- A thread counts an emission before it makes the next one. -/
  pending : ∀ t, ∃ rest, (s.emittedBy t).filter Emission.counts = s.countedBy t ++ rest ∧
    rest.length ≤ 1
  emitted : s.emittedRecords = (s.history.counted.map fun e => e.failed.count false).sum
  balance : Balanced s.history.accounted (s.emittedRecords + s.failedRecords)
    (s.asyncCompleted + s.syncCompleted)
  tally : Tallied s.counter s.history.counts s.history.calls
  failed : 0 < s.failedRecords → 0 < s.firstError
  clean : s.firstError = 0 → ∀ e ∈ s.history.counted, e.Clean
  order : (recordsOf (s.emittedBy .worker)).Sublist s.ring.popped
  worker : recent → s.firstError = 0 →
    WorkerCounts s.history.counted s.ring.popped s.completedPos
  /-- The worker is not behind by more than a batch while the instance has not been stopped. -/
  lag : recent → s.lifecycleError = 0 →
    s.ring.q.dequeuePos ≤ s.completedPos + cfg.workspaceCapacity
  flushes : ∀ r ∈ s.history.flushes, recent → cfg.asyncMode → r.rc = 0 →
    FlushBacked cfg start s.history.counted s.ring.popped r
  syncCalls : ∀ r ∈ s.history.syncCalls, r.rc = 0 → SyncBacked cfg s.history.counted r

/-- What every step does. -/
structure AccountGuar (recent : Prop) (s s' : Inst) : Prop where
  firstError : s.firstError ≠ 0 → s'.firstError = s.firstError
  lifecycleError : s.lifecycleError ≠ 0 → s'.lifecycleError ≠ 0
  completedPos : recent → s.completedPos ≤ s'.completedPos
  emissions : s.history.emissions <+: s'.history.emissions
  counted : s.history.counted <+: s'.history.counted
  popped : s.ring.popped <+: s'.ring.popped
  reserved : s.ring.reserved.length ≤ s'.ring.reserved.length

/-- What the other threads do while thread `t` runs. -/
structure AccountRely (t : InstThread) (s s' : Inst) : Prop where
  /-- The holder of `emit_mu` has the outputs to itself. -/
  emit : s.owner .emit = some t → s'.owner .emit = some t ∧ s'.sinks = s.sinks ∧
    s'.history.emissions = s.history.emissions
  accounted : s'.history.accounted t = s.history.accounted t
  emitted : s'.emittedBy t = s.emittedBy t
  counted : s'.countedBy t = s.countedBy t
  calls : ∀ n, t = .caller n → s'.history.calls n = s.history.calls n
  worker : t = .worker → s'.ring.popped = s.ring.popped ∧ s'.ring.pop = s.ring.pop ∧
    s'.ring.q.dequeuePos = s.ring.q.dequeuePos ∧ s'.completedPos = s.completedPos

/-- A step that does nothing keeps what all threads guarantee. -/
theorem AccountGuar.refl : AccountGuar recent s s :=
  ⟨fun _ => rfl, id, fun _ => le_rfl, List.prefix_rfl, List.prefix_rfl, List.prefix_rfl, le_rfl⟩

/-- What all threads guarantee holds over two steps when it holds over each. -/
theorem AccountGuar.trans (h : AccountGuar recent s s') (h' : AccountGuar recent s' s'') :
    AccountGuar recent s s'' where
  firstError hne := by
    have hsame := h.firstError hne
    rw [← hsame] at hne
    exact (h'.firstError hne).trans hsame
  lifecycleError hne := h'.lifecycleError (h.lifecycleError hne)
  completedPos hr := (h.completedPos hr).trans (h'.completedPos hr)
  emissions := h.emissions.trans h'.emissions
  counted := h.counted.trans h'.counted
  popped := h.popped.trans h'.popped
  reserved := h.reserved.trans h'.reserved

/-- A first error that is missing afterwards was missing before. -/
theorem AccountGuar.noError (h : AccountGuar recent s s') (hzero : s'.firstError = 0) :
    s.firstError = 0 := by
  by_contra hne
  exact hne ((h.firstError hne).symm.trans hzero)

/-- A first error stays. -/
theorem AccountGuar.error (h : AccountGuar recent s s') (hpos : 0 < s.firstError) :
    0 < s'.firstError := by
  rw [h.firstError hpos.ne']
  exact hpos

/-- A step that does nothing keeps what a thread relies on. -/
theorem AccountRely.refl : AccountRely t s s :=
  ⟨fun ho => ⟨ho, rfl, rfl⟩, rfl, rfl, rfl, fun _ _ => rfl, fun _ => ⟨rfl, rfl, rfl, rfl⟩⟩

/-- What a thread relies on holds over two steps when it holds over each. -/
theorem AccountRely.trans (h : AccountRely t s s') (h' : AccountRely t s' s'') :
    AccountRely t s s'' where
  emit ho := by
    obtain ⟨howner, hsinks, hemissions⟩ := h.emit ho
    obtain ⟨howner', hsinks', hemissions'⟩ := h'.emit howner
    exact ⟨howner', hsinks'.trans hsinks, hemissions'.trans hemissions⟩
  accounted := h'.accounted.trans h.accounted
  emitted := h'.emitted.trans h.emitted
  counted := h'.counted.trans h.counted
  calls n hn := (h'.calls n hn).trans (h.calls n hn)
  worker ht := by
    obtain ⟨hpopped, hpop, hpos, hcompleted⟩ := h.worker ht
    obtain ⟨hpopped', hpop', hpos', hcompleted'⟩ := h'.worker ht
    exact ⟨hpopped'.trans hpopped, hpop'.trans hpop, hpos'.trans hpos,
      hcompleted'.trans hcompleted⟩

/-- The rely-guarantee setting of the accounts. With `recent` it is for the runs in which positions
that wrap are recent. -/
def accountLogic (recent : Prop) (cfg : InstConfig) (start : Sinks) :
    Logic Inst InstReply InstLabel InstThread where
  Inv := AccountInv recent cfg start
  Guar := AccountGuar recent
  guar_refl _ := .refl
  guar_trans := .trans
  Rely := AccountRely
  rely_refl _ _ := .refl
  rely_trans := .trans
  At t label s := label ≠ .count → s.history.accounted t = 0
  ok s _ _ _ := recent → Fresh cfg.geometry s.ring

/-- A step of thread `t` keeps the invariant, and does what the others rely on. -/
structure Accounts (recent : Prop) (cfg : InstConfig) (start : Sinks) (t : InstThread)
    (s s' : Inst) : Prop where
  inv : AccountInv recent cfg start s'
  guar : AccountGuar recent s s'
  rely : ∀ u, u ≠ t → AccountRely u s s'

end Accounts

section Mild

/-- What the accounts are about, besides the errors. -/
structure Ledger where
  ring : QueueSys ℕ
  emitOwner : Option InstThread
  completedPos : ℕ
  emittedRecords : ℕ
  failedRecords : ℕ
  asyncCompleted : ℕ
  syncCompleted : ℕ
  sinks : Sinks
  accounted : InstThread → ℕ
  emissions : List Emission
  counted : List Emission
  flushes : List FlushReceipt
  syncCalls : List SyncReceipt

/-- The part of the state that the accounts are about. -/
def Inst.ledger (s : Inst) : Ledger where
  ring := s.ring
  emitOwner := s.owner .emit
  completedPos := s.completedPos
  emittedRecords := s.emittedRecords
  failedRecords := s.failedRecords
  asyncCompleted := s.asyncCompleted
  syncCompleted := s.syncCompleted
  sinks := s.sinks
  accounted := s.history.accounted
  emissions := s.history.emissions
  counted := s.history.counted
  flushes := s.history.flushes
  syncCalls := s.history.syncCalls

/-- A step that leaves the accounts alone, but for the notes of errors. -/
structure Slight (s s' : Inst) : Prop where
  ledger : s'.ledger = s.ledger
  firstError : s.firstError ≠ 0 → s'.firstError = s.firstError
  firstError_nonneg : 0 ≤ s.firstError → 0 ≤ s'.firstError
  lifecycleError : s.lifecycleError ≠ 0 → s'.lifecycleError ≠ 0
  synchronizationError : 0 ≤ s.synchronizationError → 0 ≤ s'.synchronizationError
  tally : Tallied s.counter s.history.counts s.history.calls →
    Tallied s'.counter s'.history.counts s'.history.calls

/-- It leaves the logs of the calls alone as well. -/
structure Mild (s s' : Inst) : Prop extends Slight s s' where
  calls : s'.history.calls = s.history.calls

/-- A change outside the ledger and the error words is slight. -/
theorem Slight.of_ledger (h : s'.ledger = s.ledger) (hfirst : s'.firstError = s.firstError)
    (hlifecycle : s'.lifecycleError = s.lifecycleError)
    (hsync : s'.synchronizationError = s.synchronizationError)
    (htally : Tallied s.counter s.history.counts s.history.calls →
      Tallied s'.counter s'.history.counts s'.history.calls) : Slight s s' :=
  ⟨h, fun _ => hfirst, fun hn => hfirst ▸ hn, fun hne => hlifecycle ▸ hne, fun hn => hsync ▸ hn,
    htally⟩

/-- Doing nothing is a mild change. -/
theorem Mild.refl (s : Inst) : Mild s s := ⟨.of_ledger rfl rfl rfl rfl id, rfl⟩

/-- A slight change keeps what all threads guarantee. -/
theorem Slight.guar (h : Slight s s') : AccountGuar recent s s' := by
  have hring : s'.ring = s.ring := congrArg Ledger.ring h.ledger
  have hemissions : s'.history.emissions = s.history.emissions :=
    congrArg Ledger.emissions h.ledger
  have hcounted : s'.history.counted = s.history.counted := congrArg Ledger.counted h.ledger
  exact ⟨h.firstError, h.lifecycleError, fun _ => (congrArg Ledger.completedPos h.ledger).ge,
    by rw [hemissions], by rw [hcounted], by rw [hring], by rw [hring]⟩

/-- It keeps what another thread relies on, if it leaves the calls of that thread alone. -/
theorem Slight.rely (h : Slight s s')
    (hcalls : ∀ n, t = .caller n → s'.history.calls n = s.history.calls n) :
    AccountRely t s s' where
  emit ho := ⟨(congrArg Ledger.emitOwner h.ledger).trans ho, congrArg Ledger.sinks h.ledger,
    congrArg Ledger.emissions h.ledger⟩
  accounted := congrFun (congrArg Ledger.accounted h.ledger) t
  emitted := congrArg (ofThread t) (congrArg Ledger.emissions h.ledger)
  counted := congrArg (ofThread t) (congrArg Ledger.counted h.ledger)
  calls := hcalls
  worker _ := by
    have hring : s'.ring = s.ring := congrArg Ledger.ring h.ledger
    exact ⟨by rw [hring], by rw [hring], by rw [hring], congrArg Ledger.completedPos h.ledger⟩

/-- A mild change keeps what every other thread relies on. -/
theorem Mild.rely (h : Mild s s') : AccountRely t s s' :=
  h.toSlight.rely fun n _ => congrFun h.calls n

/-- What backs a flush still does when more has been counted and popped. -/
theorem FlushBacked.mono {counted counted' : List Emission} {popped popped' : List LoggerMessage}
    {r : FlushReceipt} (h : FlushBacked cfg start counted popped r)
    (hcounted : counted <+: counted')
    (hpopped : popped <+: popped') : FlushBacked cfg start counted' popped' r :=
  { h with
    counted := h.counted.trans hcounted
    popped := h.popped.trans hpopped }

/-- What backs a synchronous record still does when more has been counted. -/
theorem SyncBacked.mono {counted counted' : List Emission} {r : SyncReceipt}
    (h : SyncBacked cfg counted r) (hcounted : counted <+: counted') :
    SyncBacked cfg counted' r := by
  obtain ⟨e, he, hbacked⟩ := h
  obtain ⟨more, rfl⟩ := hcounted
  refine ⟨e, ?_, hbacked⟩
  rw [List.drop_append]
  exact List.mem_append_left _ he

/-- A slight change keeps the accounts: none of the counters is among what it changes. -/
theorem Slight.inv (h : Slight s s') (hs : AccountInv recent cfg start s) :
    AccountInv recent cfg start s' := by
  -- every field the accounts are about is in the ledger
  have hring : s'.ring = s.ring := congrArg Ledger.ring h.ledger
  have howner : s'.owner .emit = s.owner .emit := congrArg Ledger.emitOwner h.ledger
  have hcompleted : s'.completedPos = s.completedPos := congrArg Ledger.completedPos h.ledger
  have hemitted : s'.emittedRecords = s.emittedRecords := congrArg Ledger.emittedRecords h.ledger
  have hfailed : s'.failedRecords = s.failedRecords := congrArg Ledger.failedRecords h.ledger
  have hasync : s'.asyncCompleted = s.asyncCompleted := congrArg Ledger.asyncCompleted h.ledger
  have hsync : s'.syncCompleted = s.syncCompleted := congrArg Ledger.syncCompleted h.ledger
  have hsinks : s'.sinks = s.sinks := congrArg Ledger.sinks h.ledger
  have haccounted : s'.history.accounted = s.history.accounted :=
    congrArg Ledger.accounted h.ledger
  have hemissions : s'.history.emissions = s.history.emissions :=
    congrArg Ledger.emissions h.ledger
  have hcounted : s'.history.counted = s.history.counted := congrArg Ledger.counted h.ledger
  have hflushes : s'.history.flushes = s.history.flushes := congrArg Ledger.flushes h.ledger
  have hcalls : s'.history.syncCalls = s.history.syncCalls := congrArg Ledger.syncCalls h.ledger
  have hguar : AccountGuar recent s s' := h.guar
  refine ⟨by rw [hring]; exact hs.ring, h.firstError_nonneg hs.firstError,
    h.synchronizationError hs.synchronizationError, ?_, ?_, fun t => ?_, ?_, ?_, h.tally hs.tally,
    -- a counter of failures that is not 0 has left its error before the step
    fun hf => ?_,
    fun hz => ?_, ?_, fun hr hz => ?_, fun hr hz => ?_, ?_, ?_⟩
  · rw [hemissions, howner, hsinks]
    exact hs.sinks
  · rw [hcounted, hemissions]
    exact hs.counted
  · rw [Inst.emittedBy, Inst.countedBy, hcounted, hemissions]
    exact hs.pending t
  · rw [hemitted, hcounted]
    exact hs.emitted
  · rw [haccounted, hemitted, hfailed, hasync, hsync]
    exact hs.balance
  · exact hguar.error (hs.failed (hfailed ▸ hf))
  · rw [hcounted]
    exact hs.clean (hguar.noError hz)
  · rw [Inst.emittedBy, hemissions, hring]
    exact hs.order
  -- without an error after the step there was none before it
  · rw [hcounted, hring, hcompleted]
    exact hs.worker hr (hguar.noError hz)
  · rw [hring, hcompleted]
    exact hs.lag hr (by_contra fun hne => h.lifecycleError hne hz)
  · rw [hflushes, hcounted, hring]
    exact hs.flushes
  · rw [hcalls, hcounted]
    exact hs.syncCalls

/-- A mild change is a step of the accounts. -/
theorem Mild.accounts (h : Mild s s') (hs : AccountInv recent cfg start s) :
    Accounts recent cfg start t s s' := ⟨h.inv hs, h.guar, fun _ _ => h.rely⟩

/-- A thread that makes a mild change sees no more than that. -/
theorem Mild.sees (h : Mild s s') : (accountLogic recent cfg start).Sees (some t) s s' :=
  ⟨h.guar, h.rely⟩

end Mild

section Rules

variable {α β : Type} {P : Inst → Prop}

/-- One operation of a thread that has nothing accounted. -/
theorem account_act {label : InstLabel} {act : Inst → InstReply → Option (α × Inst)}
    {Q : α → Inst → Prop}
    (hat : label ≠ .count → ∀ s, AccountInv recent cfg start s → P s → s.history.accounted t = 0)
    (hstable : ∀ b, (accountLogic recent cfg start).Stable t (Q b))
    (h : ∀ s a b s', AccountInv recent cfg start s → P s → act s a = some (b, s') →
      (recent → Fresh cfg.geometry s.ring) → Accounts recent cfg start t s s' ∧ Q b s') :
    (accountLogic recent cfg start).Triple t P (Code.atomic label act) Q := by
  refine Logic.triple_atomic (fun s hs hP hlabel => hat hlabel s hs hP) hstable ?_
  intro s a b s' hs hP hact hok
  obtain ⟨haccounts, hQ⟩ := h s a b s' hs hP hact hok
  exact ⟨haccounts.inv, haccounts.guar, haccounts.rely, hQ⟩

/-- Code that every thread with nothing accounted can run, whatever else it knows. -/
def Passes (recent : Prop) (cfg : InstConfig) (start : Sinks) (t : InstThread)
    (c : InstCode α) : Prop :=
  ∀ P : Inst → Prop, (accountLogic recent cfg start).Stable t P →
    (∀ s, P s → s.history.accounted t = 0) →
      (accountLogic recent cfg start).Triple t P c fun _ => P

/-- A thread passes code that does nothing. -/
theorem passes_pure (a : α) : Passes recent cfg start t (pure a : InstCode α) :=
  fun _ _ _ => Logic.triple_pure fun _ _ hP => hP

/-- It passes two pieces of code in sequence. -/
theorem Passes.bind {c : InstCode α} {f : α → InstCode β} (h : Passes recent cfg start t c)
    (hf : ∀ a, Passes recent cfg start t (f a)) : Passes recent cfg start t (c >>= f) :=
  fun P hstable hP => (h P hstable hP).bind fun a => hf a P hstable hP

/-- It passes both branches of a test. -/
theorem Passes.ite {p : Prop} [Decidable p] {c c' : InstCode α}
    (h : p → Passes recent cfg start t c) (h' : ¬ p → Passes recent cfg start t c') :
    Passes recent cfg start t (if p then c else c') :=
  fun P hstable hP =>
    Logic.triple_ite (fun hp => h hp P hstable hP) fun hp => h' hp P hstable hP

/-- It passes a loop when it passes every round. -/
theorem passes_iterate {label : InstLabel} {body : β → InstCode (β ⊕ α)} {b : β}
    (h : ∀ b, Passes recent cfg start t (body b)) :
    Passes recent cfg start t (Code.iterate label body b) := by
  intro P hstable hP
  refine Logic.triple_iterate (fun _ => P) (fun _ s _ hs _ => hP s hs) fun b => ?_
  refine (h b P hstable hP).post fun r s _ hs => ?_
  cases r with
  | inl b' => exact hs
  | inr c => exact hs

/-- An operation that leaves the accounts alone. -/
theorem passes_atomic {label : InstLabel} {act : Inst → InstReply → Option (α × Inst)}
    (h : ∀ s a b s', act s a = some (b, s') → Mild s s') :
    Passes recent cfg start t (Code.atomic label act) := by
  intro P hstable hP
  refine account_act (fun _ s _ hs => hP s hs) (fun _ => hstable) ?_
  intro s a b s' hs hPs hact _
  have hmild := h s a b s' hact
  exact ⟨hmild.accounts hs, hstable s s' hmild.sees hPs⟩

/-- It passes a look at a field. -/
theorem passes_load (field : Inst → α) : Passes recent cfg start t (load field) := by
  refine passes_atomic fun s a b s' hact => ?_
  obtain ⟨-, rfl⟩ := Prod.mk.inj (Option.some.inj hact)
  exact .refl s

/-- It passes a store that is a mild change. -/
theorem passes_store {set : Inst → Inst} (h : ∀ s, Mild s (set s)) :
    Passes recent cfg start t (store set) := by
  refine passes_atomic fun s a b s' hact => ?_
  obtain ⟨-, rfl⟩ := Prod.mk.inj (Option.some.inj hact)
  exact h s

/-- It passes a call of the environment. -/
theorem passes_call : Passes recent cfg start t call := by
  refine passes_atomic fun s a b s' hact => ?_
  obtain ⟨-, rfl⟩ := Prod.mk.inj (Option.some.inj hact)
  exact .refl s

end Rules

end CLogger.Instance
