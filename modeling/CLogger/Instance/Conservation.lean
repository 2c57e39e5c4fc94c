import CLogger.Instance.FlushAccount
import CLogger.Instance.Shutdown

/-!
# Records are conserved

The accounts of every run of an instance. No record is lost between the counters, whatever the
locks, the outputs and the formatting do, and a record counted as emitted has reached every output
that is selected.

* `account_starts`, `account_serves`, and `InstReachable.accounts`.
* `record_conservation`.
-/

namespace CLogger.Instance

open Concurrent TransitionSystem

variable {recent : Prop} {cfg : InstConfig} {level : LoggerLevel} {sinks : Sinks}
  {S S' : System Inst InstReply InstLabel InstThread}

section System

/-- A thread without a program. -/
def Rested (cfg : InstConfig) : InstThread → Inst → Prop
  | .worker => fun s => ∃ E, Settled .worker 0 E s
  | .caller n => AtRest (.caller n) (RoutedAt cfg n)

theorem instStart_accountInv : AccountInv recent cfg sinks (instStart cfg level sinks).shared where
  ring _ := .refl
  firstError := le_rfl
  synchronizationError := le_rfl
  sinks := ⟨sinks, .start, fun _ => rfl⟩
  counted _ he := absurd he List.not_mem_nil
  pending _ := ⟨[], rfl, Nat.zero_le 1⟩
  emitted := rfl
  balance := ⟨∅, fun _ _ => rfl, rfl⟩
  tally := ⟨fun c => by cases c <;> rfl, fun _ => le_rfl, fun _ => rfl⟩
  failed hpos := absurd hpos (Nat.lt_irrefl 0)
  clean _ _ he := absurd he List.not_mem_nil
  order := .slnil
  worker _ _ := ⟨Nat.zero_le _, List.prefix_rfl⟩
  lag _ _ := Nat.zero_le _
  flushes _ hr := absurd hr List.not_mem_nil
  syncCalls _ hr := absurd hr List.not_mem_nil

theorem account_starts (hstart : SinksOk sinks) :
    (accountLogic recent cfg sinks).Starts (Rested cfg) (instStart cfg level sinks) := by
  refine ⟨instStart_accountInv, fun t => ?_⟩
  have hsettled : Settled t 0 [] (instStart cfg level sinks).shared := ⟨rfl, rfl, rfl⟩
  cases t with
  | worker =>
    refine ⟨Waiting recent [], waiting_stable, ⟨hsettled, ?_, fun _ _ => le_rfl⟩, ?_⟩
    · exact ⟨rfl, .slnil, fun _ _ => rfl, fun _ => le_rfl⟩
    · refine Logic.triple_ite (fun _ => ?_) fun _ => Logic.triple_pure fun s _ hs =>
        ⟨[], hs.settled⟩
      exact (workerMain_accounts hstart).pre fun s _ hs => ⟨[], hs⟩
  | caller n =>
    refine ⟨AtRest (.caller n) (RoutedAt cfg n), atRest_stable framed_routed, ⟨⟨[], hsettled⟩, ?_⟩,
      Logic.triple_pure fun _ _ hs => hs⟩
    exact rfl

theorem account_serves (hroom : recent → cfg.geometry.width.Fits cfg.room)
    (hstart : SinksOk sinks) :
    (accountLogic recent cfg sinks).Serves (Rested cfg) (fun _ => True) (instApi cfg) := by
  intro t call _
  cases t with
  | worker => exact Logic.triple_pure fun _ _ hs => hs
  | caller n =>
    have hF : Framed recent cfg sinks (.caller n) (RoutedAt cfg n) := framed_routed
    cases call with
    | vlog c => exact vlogInternal_accounts hstart c
    | logSyncStatus c => exact logSyncStatus_accounts hstart c
    | flush =>
      refine loggerFlush_accounts hroom hstart hF fun s f hcalls _ hrouted => ?_
      show Routed cfg ((f s.history).calls n)
      rw [hcalls]
      exact hrouted
    | reopen => exact loggerReopen_accounts hF
    | setLevel level =>
      refine (Passes.ite (fun _ => passes_pure ()) fun _ => ?_).atRest hF
      exact passes_store fun _ => ⟨.of_ledger rfl rfl rfl rfl id, rfl⟩
    | dispose => exact disposeBody_accounts hstart hF

/-- More runs may be admitted. -/
theorem InstReachable.mono {ok ok' : Inst → InstThread → InstReply → Inst → Prop}
    (h : InstReachable cfg ok level sinks S) (hok : ∀ s t a s', ok s t a s' → ok' s t a s') :
    InstReachable cfg ok' level sinks S := by
  refine Reachable.mono (fun S m S' hm => ?_) h
  cases m with
  | call t c => exact hm
  | step t a => exact hok _ _ _ _ hm

/-- The accounts hold in every state of every run. -/
theorem InstReachable.accounts {ok : Inst → InstThread → InstReply → Inst → Prop}
    (h : InstReachable cfg ok level sinks S) (hstart : SinksOk sinks) :
    AccountInv False cfg sinks S.shared ∧
      (∀ t label, (S.code t).label = some label → label ≠ .count →
        S.shared.history.accounted t = 0) ∧
      ∀ t, (S.code t).label = none → Rested cfg t S.shared :=
  Logic.sound (account_starts hstart) (account_serves False.elim hstart)
    (h.mono fun _ _ _ _ _ => False.elim)

end System

section Sample

theorem sampleSinks_ok : SinksOk sampleSinks where
  file :=
    { switchError := le_rfl
      fd := fun ino hino => by
        obtain rfl : 0 = ino := Option.some.inj hino
        exact Nat.two_pos
      used := openedFile_opened.used }
  syslog := le_rfl

/-- A record is logged, the worker emits it, and a flush acknowledges it. -/
def flushRun : List (Move InstReply InstThread InstCall) :=
  .call (.caller 0) (.vlog sampleCall) :: List.replicate 52 (.step (.caller 0) granted) ++
    List.replicate 148 (.step .worker granted) ++
      .call (.caller 1) .flush :: List.replicate 22 (.step (.caller 1) granted)

/-- The state after it. -/
structure Flushed (S : System Inst InstReply InstLabel InstThread) : Prop where
  reached : InstReachable sampleConfig (fun s _ _ _ => Fresh sampleConfig.geometry s.ring) .info
    sampleSinks S
  emitted : S.shared.emittedRecords = 1
  counted : (S.shared.history.calls 0).counted = [.enqueued]
  receipt : ∃ r ∈ S.shared.history.flushes, r.rc = 0 ∧ r.target = 1 ∧ r.waited.length = 1
  unlocked : S.shared.owner .emit = none

theorem flushRun_flushed : ∃ S : System Inst InstReply InstLabel InstThread, Flushed S := by
  have hrun : (exec (sysNext (instApi sampleConfig)) (instStart sampleConfig .info sampleSinks)
      flushRun).map (fun S =>
        (decide (S.shared.emittedRecords = 1 ∧ S.shared.owner .emit = none),
          (S.shared.history.calls 0).counted,
          S.shared.history.flushes.map fun r => (r.rc, r.target, r.waited.length))) =
            some (true, [.enqueued], [(0, 1, 1)]) := by decide +kernel
  obtain ⟨S, hexec, heq⟩ := Option.map_eq_some_iff.mp hrun
  obtain ⟨hdecided, hrest⟩ := Prod.mk.inj heq
  obtain ⟨hone, hunlocked⟩ := of_decide_eq_true hdecided
  obtain ⟨hcounted, hflushes⟩ := Prod.mk.inj hrest
  obtain ⟨r, hr, hvalue⟩ := List.mem_map.mp (hflushes ▸ List.mem_singleton_self _)
  obtain ⟨hzero, hvalue⟩ := Prod.mk.inj hvalue
  refine ⟨S, reachable_of_exec (fun m _ s s' => ?_) hexec, hone, hcounted,
    ⟨r, hr, hzero, Prod.mk.inj hvalue⟩, hunlocked⟩
  cases m with
  | call t c => trivial
  | step t a => exact fun _ _ _ => trivial

end Sample

section Conservation

/-- No record is lost. -/
structure Conserved (cfg : InstConfig) (S : System Inst InstReply InstLabel InstThread) : Prop where
  /-- Between the accounting steps of the threads the counters agree. -/
  balance : (∀ t, (S.code t).label ≠ some .count) →
    S.shared.asyncCompleted + S.shared.syncCompleted =
      S.shared.emittedRecords + S.shared.failedRecords
  /-- A call that has returned has counted a formatted record once, -/
  routed : ∀ n, (S.code (.caller n)).label = none → Routed cfg (S.shared.history.calls n)
  /-- and the counters of the instance are what the calls have counted. -/
  tallied : Tallied S.shared.counter S.shared.history.counts S.shared.history.calls
  /-- The records counted as emitted are records of sections, each counted at most once. -/
  emitted : S.shared.emittedRecords =
    (S.shared.history.counted.map fun e => e.failed.count false).sum
  once : ∀ t, S.shared.countedBy t <+: (S.shared.emittedBy t).filter Emission.counts
  /-- They have been accepted by every selected output. -/
  accepted : ∀ e ∈ S.shared.history.counted, ∀ i : ℕ, e.failed[i]? = some false →
    ∃ m line, Accepted cfg e i m line
  failed : 0 < S.shared.failedRecords → 0 < S.shared.firstError

/-- Every section has been run from outputs that earlier ones have left. -/
theorem AccountInv.ran {s : Inst} (hs : AccountInv recent cfg sinks s) {e : Emission}
    (he : e ∈ s.history.emissions) : ∃ es r, es ++ [e] <+: s.history.emissions ∧
      SinksReached cfg sinks es e.before ∧ EmissionRan cfg e r := by
  obtain ⟨w, hw, -⟩ := hs.sinks
  exact hw.ran he

/-- Record conservation, in every run, whatever fails. When no thread is between its accounting
steps the records completed are those emitted and failed; every call of an asynchronous instance
that has formatted its text has incremented one of the three counters, once; a record counted as
emitted has reached every selected output with its whole line; and a failed record has left a first
error, which no later step changes. -/
theorem record_conservation {ok : Inst → InstThread → InstReply → Inst → Prop}
    (hstart : SinksOk sinks) (h : InstReachable cfg ok level sinks S) :
    Conserved cfg S ∧
      ∀ S', Reachable (sysNext (instApi cfg)) (stepOk (fun _ => True) ok) S S' →
        S.shared.firstError ≠ 0 → S'.shared.firstError = S.shared.firstError := by
  obtain ⟨hs, hlabels, hrested⟩ := h.accounts hstart
  refine ⟨⟨fun hcount => ?_, fun n hn => (hrested _ hn).2, hs.tally, hs.emitted, fun t => ?_,
    fun e he i hi => ?_, hs.failed⟩, fun S' hrun => ?_⟩
  · -- nothing is counted and not completed
    have hnone : ∀ t, S.shared.history.accounted t = 0 := by
      intro t
      cases hlabel : (S.code t).label with
      | some label => exact hlabels t label hlabel fun hl => hcount t (hl ▸ hlabel)
      | none =>
        cases t with
        | worker => exact (hrested _ hlabel).choose_spec.accounted
        | caller n => exact (hrested _ hlabel).zero
    obtain ⟨T, -, hsum⟩ := hs.balance
    rw [hsum, Finset.sum_eq_zero fun t _ => hnone t, Nat.add_zero]
  -- what a thread has counted is the first part of what it has emitted
  · obtain ⟨rest, hrest, -⟩ := hs.pending t
    exact ⟨rest, hrest.symm⟩
  -- an emission that counts has found its outputs work
  · obtain ⟨es, r, -, hreached, hran⟩ := hs.ran (hs.counted e he)
    exact hran.accepted (hreached.ok hstart) hi
  -- the first error is set once
  · have hguar : AccountGuar False S.shared S'.shared := by
      refine Logic.sound_run (account_starts hstart) (account_serves False.elim hstart)
        (h.mono fun _ _ _ _ _ => False.elim) (Reachable.mono (fun S m S' hm => ?_) hrun)
      cases m with
      | call t c => exact hm
      | step t a => exact fun hfalse => hfalse.elim
    exact hguar.firstError

theorem record_conservation_flushed : ∃ S : System Inst InstReply InstLabel InstThread,
    S.shared.emittedRecords = 1 ∧ (S.shared.history.calls 0).counted = [.enqueued] ∧
      Conserved sampleConfig S := by
  obtain ⟨S, hS⟩ := flushRun_flushed
  exact ⟨S, hS.emitted, hS.counted, (record_conservation sampleSinks_ok hS.reached).1⟩

end Conservation

end CLogger.Instance
