import CLogger.Instance.WorkerAccount

/-!
# The accounts of the callers

A logging call of an asynchronous instance that has formatted its text increments one of the three
counters, once; a synchronous record that is acknowledged has been counted as emitted.

* `Routed`: what a finished call has counted.
* `vlogInternal_accounts`, `logSyncStatus_accounts`.
-/

namespace CLogger.Instance

open Concurrent

variable {recent : Prop} {cfg : InstConfig} {start : Sinks} {s s' : Inst} {E : List Emission}
  {n since : ℕ} {log : CallLog}

section Log

/-- What the last call of a caller has done. -/
def Logged (n : ℕ) (log : CallLog) (s : Inst) : Prop := s.history.calls n = log

/-- The counter of a record that an asynchronous instance has formatted: it is enqueued exactly if
it was published. -/
def CallLog.route (cfg : InstConfig) (log : CallLog) (level : LoggerLevel) : CallCounter :=
  if log.published then .enqueued
  else if cfg.overflowSync level then .syncFallbacks else .dropped level

/-- What a finished call has counted: a record that was formatted once if the instance is
asynchronous, and nothing in every other case. -/
def Routed (cfg : InstConfig) (log : CallLog) : Prop :=
  log.counted = log.formatted.elim [] fun level =>
    if cfg.asyncMode then [log.route cfg level] else []

/-- The last call of a caller is booked. -/
def RoutedAt (cfg : InstConfig) (n : ℕ) (s : Inst) : Prop := Routed cfg (s.history.calls n)

/-- Only caller `n` changes the log of its calls. -/
theorem framed_calls (P : CallLog → Prop) :
    Framed recent cfg start (.caller n) fun s => P (s.history.calls n) where
  stable s s' hsees hs := by
    show P (s'.history.calls n)
    rw [hsees.2.calls n rfl]
    exact hs
  aside s s' haside hs := by
    show P (s'.history.calls n)
    rw [haside.calls]
    exact hs

/-- So the log stays what it is while others move. -/
theorem framed_logged : Framed recent cfg start (.caller n) (Logged n log) := framed_calls (· = log)

/-- So does what is known of its routes. -/
theorem framed_routed : Framed recent cfg start (.caller n) (RoutedAt cfg n) :=
  framed_calls (Routed cfg)

/-- A thread at rest stays so. -/
theorem atRest_stable {t : InstThread} {F : Inst → Prop} (hF : Framed recent cfg start t F) :
    (accountLogic recent cfg start).Stable t (AtRest t F) :=
  fun s s' hsees hs => ⟨⟨_, standing_stable s s' hsees hs.1.choose_spec⟩, hF.stable s s' hsees hs.2⟩

/-- It has nothing accounted and not completed. -/
theorem AtRest.zero {t : InstThread} {F : Inst → Prop} (h : AtRest t F s) :
    s.history.accounted t = 0 := h.1.choose_spec.accounted

/-- Code beside the accounts. -/
theorem Passes.atRest {α : Type} {t : InstThread} {F : Inst → Prop} {c : InstCode α}
    (h : Passes recent cfg start t c) (hF : Framed recent cfg start t F) :
    (accountLogic recent cfg start).Triple t (AtRest t F) c fun _ => AtRest t F :=
  h _ (atRest_stable hF) fun _ hs => hs.zero

/-- A thread at rest forgets what it does not need. -/
theorem AtRest.mono {t : InstThread} {F F' : Inst → Prop} (h : AtRest t F s) (hF : F s → F' s) :
    AtRest t F' s := ⟨h.1, hF h.2⟩

/-- A step that changes at most the log of the caller. -/
theorem log_accounts {α : Type} {P : CallLog → Prop} {Q : α → CallLog → Prop}
    {act : Inst → InstReply → Option (α × Inst)}
    (h : ∀ s a b s', P (s.history.calls n) → act s a = some (b, s') → Slight s s' ∧
      ∃ l, Q b l ∧ s'.history.calls = Function.update s.history.calls n l) :
    (accountLogic recent cfg start).Triple (.caller n)
      (AtRest (.caller n) fun s => P (s.history.calls n)) (Code.atomic .other act)
      fun b => AtRest (.caller n) fun s => Q b (s.history.calls n) := by
  refine account_act (fun _ s _ hs => hs.zero) (fun b => atRest_stable (framed_calls (Q b))) ?_
  intro s a b s' hs hP hact _
  obtain ⟨hslight, l, hl, hcalls⟩ := h s a b s' hP.2 hact
  refine ⟨accounts_slight hs hslight fun m hm => ?_, ?_, ?_⟩
  · rw [hcalls]
    exact Function.update_of_ne (fun hmn => hm (congrArg _ hmn.symm)) _ _
  · obtain ⟨E, hE⟩ := hP.1
    refine ⟨E, (congrFun (congrArg Ledger.accounted hslight.ledger) _).trans hE.accounted, ?_, ?_⟩
    · exact (congrArg (ofThread _) (congrArg Ledger.emissions hslight.ledger)).trans hE.emitted
    · exact (congrArg (ofThread _) (congrArg Ledger.counted hslight.ledger)).trans hE.counted
  · show Q b (s'.history.calls n)
    rw [hcalls, Function.update_self]
    exact hl

/-- The counters after one of them has been incremented. -/
theorem counter_incremented (s : Inst) (level : LoggerLevel) (c : CallCounter) :
    Inst.counter { s with
      droppedByLevel := Function.update s.droppedByLevel level (s.droppedByLevel level + 1) } c =
      s.counter c + if .dropped level = c then 1 else 0 := by
  cases c with
  | enqueued => rfl
  | syncFallbacks => rfl
  | dropped level' =>
    show Function.update s.droppedByLevel level (s.droppedByLevel level + 1) level' = _
    by_cases hlevel : level' = level
    · subst hlevel
      rw [Function.update_self, if_pos rfl]
      rfl
    · rw [Function.update_of_ne hlevel, if_neg fun heq => hlevel (CallCounter.dropped.inj heq).symm]
      rfl

/-- A counter of a call is incremented, and the log says which. -/
theorem countCall_accounts (counter : CallCounter) :
    (accountLogic recent cfg start).Triple (.caller n) (AtRest (.caller n) (Logged n log))
      (countCall n counter)
      fun _ => AtRest (.caller n) (Logged n { log with counted := log.counted ++ [counter] }) := by
  refine log_accounts (P := (· = log))
    (Q := fun _ l => l = { log with counted := log.counted ++ [counter] }) ?_
  rintro s a b s' rfl hact
  obtain ⟨-, rfl⟩ := Prod.mk.inj (Option.some.inj hact)
  cases counter with
  | enqueued =>
    refine ⟨.of_ledger rfl rfl rfl rfl fun h => h.count n fun c => ?_, _, rfl, rfl⟩
    cases c <;> rfl
  | syncFallbacks =>
    refine ⟨.of_ledger rfl rfl rfl rfl fun h => h.count n fun c => ?_, _, rfl, rfl⟩
    cases c <;> rfl
  | dropped level =>
    exact ⟨.of_ledger rfl rfl rfl rfl fun h => h.count n (counter_incremented s level), _, rfl, rfl⟩

end Log

section Push

/-- The publication of a record. -/
theorem queuePublish_accounts (m : LoggerMessage) :
    (accountLogic recent cfg start).Triple (.caller n) (AtRest (.caller n) (Logged n log))
      (queuePublish cfg.geometry n m) fun published => AtRest (.caller n)
        (Logged n (if published then { log with published := true } else log)) := by
  -- a step on the ring does not touch the ghosts of the call
  have hkeep : ∀ (s : Inst) ring, AtRest (.caller n) (Logged n log) s →
      AtRest (.caller n) (Logged n log) { s with ring } := by
    rintro s ring ⟨⟨E, hE⟩, hlog⟩
    exact ⟨⟨E, hE.accounted, hE.emitted, hE.counted⟩, hlog⟩
  -- the call first announces itself to the ring
  refine Logic.Triple.bind (Q := fun _ => AtRest (.caller n) (Logged n log)) ?_ fun _ => ?_
  · refine account_act (fun _ s _ hs => hs.zero) (fun _ => atRest_stable framed_logged) ?_
    intro s a b s' hs hP hact hok
    obtain ⟨ring', hnext, heq⟩ := Option.map_eq_some_iff.mp hact
    obtain ⟨-, rfl⟩ := Prod.mk.inj heq
    exact ⟨accounts_push hs (callPush_effects hnext) fun hr => (hs.ring hr).tail hnext (hok hr),
      hkeep s ring' hP⟩
  -- then it retries until a slot is taken or the queue is found full
  refine Logic.triple_iterate (fun _ => AtRest (.caller n) (Logged n log))
    (fun _ s _ hs _ => hs.zero) fun _ => ?_
  refine account_act (fun _ s _ hs => hs.zero) (fun r => ?_) ?_
  · cases r with
    | inl _ => exact atRest_stable framed_logged
    | inr published => exact atRest_stable framed_logged
  intro s a r s' hs hP hact hok
  obtain ⟨⟨r', ring'⟩, hpush, heq⟩ := Option.map_eq_some_iff.mp hact
  obtain ⟨rfl, rfl⟩ := Prod.mk.inj heq
  have haccounts := accounts_push hs (pushRing_effects hpush)
    fun hr => pushRing_reachable (hs.ring hr) (hok hr) hpush
  have hP' := hkeep s ring' hP
  -- a published record is noted for its call, which changes no counter
  split
  · rename_i hpublished
    obtain rfl : r' = .inr true := hpublished
    have hslight : Slight { s with ring := ring' } (Inst.published { s with ring := ring' } n) :=
      .of_ledger rfl rfl rfl rfl fun htally => htally.log rfl rfl
    refine ⟨haccounts.trans (accounts_slight haccounts.inv hslight fun m hm => ?_), ?_, ?_⟩
    · exact Function.update_of_ne (fun hmn => hm (congrArg _ hmn.symm)) _ _
    · obtain ⟨E, hE⟩ := hP'.1
      exact ⟨E, hE.accounted, hE.emitted, hE.counted⟩
    · show Function.update s.history.calls n { s.history.calls n with published := true } n = _
      rw [Function.update_self, hP.2]
      rfl
  -- otherwise the ghosts stay
  · rename_i hnot
    refine ⟨haccounts, ?_⟩
    cases r' with
    | inl _ => exact hP'
    | inr published =>
      cases published with
      | false => exact hP'
      | true => exact absurd rfl hnot

/-- `logger_queue_push` returns 0 exactly when it has not published the record. -/
theorem loggerQueuePush_accounts (m : LoggerMessage) :
    (accountLogic recent cfg start).Triple (.caller n) (AtRest (.caller n) (Logged n log))
      (loggerQueuePush cfg.geometry n m) fun rc => AtRest (.caller n)
        (Logged n (if rc = 0 then log else { log with published := true })) := by
  refine Logic.Triple.bind (queuePublish_accounts m) fun published => ?_
  refine Logic.triple_ite (fun hpublished => ?_) fun hnot => ?_
  · rw [hpublished]
    refine Logic.Triple.bind (passes_notify.atRest framed_logged) fun rc => ?_
    refine Logic.triple_pure fun s _ hs => ?_
    have hne : (if rc ≠ 0 then rc else 1) ≠ 0 := by
      split
      · assumption
      · exact one_ne_zero
    rw [if_neg hne]
    exact hs
  · refine Logic.triple_pure fun s _ hs => ?_
    rw [if_neg hnot] at hs
    exact hs

end Push

section Calls

/-- The clock and the formatting of the text. -/
theorem formatText_accounts (c : VlogCall) :
    (accountLogic recent cfg start).Triple (.caller n) (AtRest (.caller n) (Logged n log))
      (formatText n c) fun rc => AtRest (.caller n)
        (Logged n (if rc = 0 then { log with formatted := some c.level } else log)) := by
  refine Logic.Triple.bind (passes_call.atRest framed_logged) fun clock => ?_
  refine Logic.triple_ite (fun _ => Logic.triple_pure fun s _ hs => ?_) fun _ => ?_
  · rw [if_neg (neg_ne_zero.mpr clock.errno_pos.ne')]
    exact hs
  refine log_accounts (P := (· = log))
    (Q := fun rc l => l = if rc = 0 then { log with formatted := some c.level } else log) ?_
  rintro s a rc s' rfl hact
  split at hact
  · obtain ⟨rfl, rfl⟩ := Prod.mk.inj (Option.some.inj hact)
    exact ⟨.of_ledger rfl rfl rfl rfl fun htally => htally.log rfl rfl, _, (if_pos rfl).symm, rfl⟩
  · obtain ⟨rfl, rfl⟩ := Prod.mk.inj (Option.some.inj hact)
    refine ⟨.of_ledger rfl rfl rfl rfl id, s.history.calls n, ?_, ?_⟩
    · rw [if_neg (neg_ne_zero.mpr a.answer.errno_pos.ne')]
    · rw [Function.update_eq_self]

/-- A record that has been formatted is counted once. -/
theorem vlogRoute_accounts (hstart : SinksOk start) (hasync : cfg.asyncMode) (m : LoggerMessage) :
    (accountLogic recent cfg start).Triple (.caller n)
      (AtRest (.caller n) (Logged n { formatted := some m.level, since })) (vlogRoute cfg n m)
      fun _ => AtRest (.caller n) (RoutedAt cfg n) := by
  -- the counter that the call has used is the one for what became of the record
  have hrouted : ∀ {published : Bool} {counter : CallCounter} {s : Inst}, (counter = if published
      then .enqueued else if cfg.overflowSync m.level then .syncFallbacks else .dropped m.level) →
      Logged n { formatted := some m.level, published, counted := [] ++ [counter], since } s →
        RoutedAt cfg n s := by
    rintro published counter s rfl hlog
    rw [RoutedAt, Routed, hlog, Option.elim_some, if_pos hasync]
    rfl
  refine Logic.Triple.bind (loggerQueuePush_accounts m) fun pushRc => ?_
  -- the three answers of the push: stored, stored without a wake-up, and no room
  refine Logic.triple_ite (fun hpos => ?_) fun hpos => Logic.triple_ite (fun hneg => ?_)
    fun hneg => ?_
  · rw [if_neg hpos.ne']
    refine Logic.Triple.bind (countCall_accounts .enqueued) fun _ => ?_
    exact Logic.triple_pure fun s _ hs => hs.mono (hrouted rfl)
  · rw [if_neg hneg.ne]
    refine Logic.Triple.bind (countCall_accounts .enqueued) fun _ => ?_
    refine Logic.Triple.bind ((passes_vlogNotifyFailed _).atRest framed_logged) fun _ => ?_
    exact Logic.triple_pure fun s _ hs => hs.mono (hrouted rfl)
  have hzero : pushRc = 0 := by omega
  rw [if_pos hzero]
  refine Logic.triple_ite (fun hsync => ?_) fun hdrop => ?_
  -- the record is emitted by the caller itself, and counted by that section
  · refine Logic.Triple.bind (countCall_accounts .syncFallbacks) fun _ => ?_
    refine ((loggerEmitStatus_accounts hstart framed_routed (by rintro ⟨⟩)
      (fun s _ => s.history.counted.length.zero_le) m false).pre fun s _ hs => ?_).post
      fun rc s _ hs => hs.1
    refine hs.mono (hrouted ?_)
    rw [if_pos hsync]
    rfl
  · refine Logic.Triple.bind (countCall_accounts (.dropped m.level)) fun _ => ?_
    refine Logic.triple_pure fun s _ hs => hs.mono (hrouted ?_)
    rw [if_neg hdrop]
    rfl

/-- The record has the level of its call. -/
theorem vlogRecord_level (mask : CaptureMask) (c : VlogCall) :
    (vlogRecord mask c).level = c.level := by
  show (prepareRecordMetadata mask c { LoggerMessage.zero with level := c.level }).level = c.level
  unfold prepareRecordMetadata captureContext
  dsimp only
  split_ifs <;> rfl

/-- `vlog_body` starts an empty log and ends with a routed one. -/
theorem vlogBody_accounts (hstart : SinksOk start) (c : VlogCall) :
    (accountLogic recent cfg start).Triple (.caller n) (AtRest (.caller n) (Logged n { since }))
      (vlogBody cfg n c) fun _ => AtRest (.caller n) (RoutedAt cfg n) := by
  have hnone : ∀ {s : Inst}, Logged n { since } s → RoutedAt cfg n s := by
    intro s hlog
    rw [RoutedAt, Routed, hlog]
    rfl
  refine Logic.Triple.bind ((passes_load _).atRest framed_logged) fun level => ?_
  refine Logic.triple_ite (fun _ => Logic.triple_pure fun s _ hs => hs.mono hnone) fun _ => ?_
  refine Logic.Triple.bind (formatText_accounts c) fun rc => ?_
  refine Logic.triple_ite (fun hne => Logic.triple_pure fun s _ hs => ?_) fun hzero => ?_
  · rw [if_neg hne] at hs
    exact hs.mono hnone
  rw [if_pos (not_not.mp hzero)]
  refine Logic.triple_ite (fun hasync => ?_) fun hsync => ?_
  · rw [← vlogRecord_level (captureMaskFromConfig cfg.line) c]
    exact vlogRoute_accounts hstart hasync _
  refine ((loggerEmitStatus_accounts hstart framed_routed (by rintro ⟨⟩)
    (fun s _ => s.history.counted.length.zero_le) _ false).pre fun s _ hs => ?_).post
    fun rc s _ hs => hs.1
  refine hs.mono fun hlog => ?_
  rw [RoutedAt, Routed, hlog, Option.elim_some, if_neg hsync]

/-- So does the whole call, also if it is refused at the door. -/
theorem vlogInternal_accounts (hstart : SinksOk start) (c : VlogCall) :
    (accountLogic recent cfg start).Triple (.caller n) (AtRest (.caller n) (RoutedAt cfg n))
      (loggerVlogInternal cfg n c) fun _ => AtRest (.caller n) (RoutedAt cfg n) := by
  have hnone : ∀ {since : ℕ} {s : Inst}, Logged n { since } s → RoutedAt cfg n s := by
    intro since s hlog
    rw [RoutedAt, Routed, hlog]
    rfl
  refine Logic.Triple.bind (log_accounts (P := Routed cfg)
    (Q := fun _ l => ∃ since, l = { since }) ?_) fun accepting => ?_
  · intro s a b s' _ hact
    obtain ⟨-, rfl⟩ := Prod.mk.inj (Option.some.inj hact)
    exact ⟨.of_ledger rfl rfl rfl rfl fun h => h.begin n, _, ⟨_, rfl⟩, rfl⟩
  -- the call knows how many counts had been made when it began
  refine Logic.Triple.pre (triple_exists (P := fun since => AtRest (.caller n) (Logged n { since }))
    (fun _ => atRest_stable framed_logged) fun since => ?_) fun s _ hs =>
      ⟨hs.2.choose, hs.1, hs.2.choose_spec⟩
  refine Logic.Triple.bind (Q := fun _ => AtRest (.caller n) (RoutedAt cfg n))
    (Logic.triple_ite (fun _ => vlogBody_accounts hstart c) fun _ =>
      Logic.triple_pure fun s _ hs => hs.mono hnone) fun _ => ?_
  refine Passes.atRest (passes_store fun _ => ?_) framed_routed
  exact ⟨.of_ledger rfl rfl rfl rfl id, rfl⟩

/-- At least so many emissions have been counted. -/
theorem framed_since {t : InstThread} (since : ℕ) :
    Framed recent cfg start t fun s => since ≤ s.history.counted.length :=
  ⟨fun _ _ hsees hs => hs.trans hsees.1.counted.length_le,
    fun _ _ haside hs => hs.trans haside.guar.counted.length_le⟩

/-- A synchronous record counts in no route, and is backed by its section if it returns 0. -/
theorem logSyncStatus_accounts (hstart : SinksOk start) (c : VlogCall) :
    (accountLogic recent cfg start).Triple (.caller n) (AtRest (.caller n) (RoutedAt cfg n))
      (loggerLogSyncStatus cfg n c) fun _ => AtRest (.caller n) (RoutedAt cfg n) := by
  have hF : Framed recent cfg start (.caller n) (RoutedAt cfg n) := framed_routed
  refine Logic.Triple.bind ((passes_load _).atRest hF) fun accepting => ?_
  refine Logic.triple_ite (fun _ => Logic.triple_pure fun s _ hs => hs) fun _ => ?_
  refine Logic.Triple.bind ((passes_load _).atRest hF) fun level => ?_
  refine Logic.triple_ite (fun _ => Logic.triple_pure fun s _ hs => hs) fun _ => ?_
  refine Logic.Triple.bind (passes_call.atRest hF) fun clock => ?_
  refine Logic.Triple.bind (passes_call.atRest hF) fun text => ?_
  refine Logic.triple_ite (fun _ => Logic.triple_pure fun s _ hs => hs) fun _ => ?_
  refine Logic.Triple.bind (Q := fun since => AtRest (.caller n) fun s =>
    RoutedAt cfg n s ∧ since ≤ s.history.counted.length) ?_ fun since => ?_
  · refine account_act (fun _ s _ hs => hs.zero)
      (fun since => atRest_stable (hF.and (framed_since since))) ?_
    intro s a b s' hs hP hact _
    obtain ⟨rfl, rfl⟩ := Prod.mk.inj (Option.some.inj hact)
    exact ⟨(Mild.refl s).accounts hs, hP.1, hP.2, le_rfl⟩
  refine Logic.Triple.bind (loggerEmitStatus_accounts hstart (hF.and (framed_since since))
    (by rintro ⟨⟩) (fun s hs => hs.2) _ true) fun rc => ?_
  refine account_act (fun _ s _ hs => hs.1.zero) (fun _ => atRest_stable hF) ?_
  intro s a b s' hs hP hact _
  obtain ⟨-, rfl⟩ := Prod.mk.inj (Option.some.inj hact)
  obtain ⟨⟨⟨E, hE⟩, hrouted, -⟩, hemitted⟩ := hP
  refine ⟨accounts_synced hs fun hrc => ?_, ⟨E, hE.accounted, hE.emitted, hE.counted⟩, hrouted⟩
  obtain ⟨e, hsince, hrecords, hforced, hfailed⟩ := hemitted hrc
  exact ⟨e, hsince, hrecords, hforced, hfailed⟩

end Calls

end CLogger.Instance
