import CLogger.Instance.Emitting

/-!
# The accounts of the worker

The worker takes batches of at most the capacity of its workspace, emits each of them and publishes
its position. As long as nothing has failed, its emissions are the records it has taken.

* `drain_accounts`, `publishProgress_accounts`.
* `workerMain_accounts`.
-/

namespace CLogger.Instance

open Concurrent

variable {recent : Prop} {cfg : InstConfig} {start : Sinks} {s s' : Inst} {E : List Emission}
  {F : Inst → Prop}

section Drain

/-- A drain hands out at most `max` records. -/
def Within (max : ℕ) : PopPc → Prop
  | .idle => True
  | .drainHead out m => m = max ∧ out.length ≤ max
  | .loadPos out m _ => m = some max ∧ out.length < max
  | .loadSeq out m _ _ => m = some max ∧ out.length < max
  | .readSpill out m _ _ => m = some max ∧ out.length < max
  | .unpack out m _ _ _ _ => m = some max ∧ out.length < max
  | .storeSeq out m _ _ => m = some max ∧ out.length < max
  | .storePos out m _ _ => m = some max ∧ out.length < max
  | .returned out => out.length ≤ max

/-- A step of a drain takes no more than it was asked for. -/
theorem popStep_within {g : QueueGeometry} {q : Queue} {entry : LoggerMessage} {pc : PopPc}
    {e : PopEffect} {max : ℕ} (h : popStep g q entry pc = some e) (hw : Within max pc) :
    Within max e.pc := by
  cases pc with
  | idle => exact absurd h (by rintro ⟨⟩)
  | returned out => exact absurd h (by rintro ⟨⟩)
  -- the drain asks again only while there is room
  | drainHead out m =>
    obtain ⟨rfl, hle⟩ := hw
    rw [popStep] at h
    split_ifs at h with hlt
    · obtain rfl := Option.some.inj h
      exact ⟨rfl, hlt⟩
    · obtain rfl := Option.some.inj h
      exact hle
  | loadPos out m dst =>
    obtain rfl := Option.some.inj h
    exact hw
  | loadSeq out m dst pos =>
    rw [popStep] at h
    split_ifs at h
    · obtain rfl := Option.some.inj h
      exact hw
    · obtain rfl := Option.some.inj h
      exact hw.2.le
  | readSpill out m dst pos =>
    obtain rfl := Option.some.inj h
    exact hw
  | unpack out m dst pos spill rest =>
    cases rest <;> obtain rfl := Option.some.inj h <;> exact hw
  | storeSeq out m dst pos =>
    obtain rfl := Option.some.inj h
    exact hw
  -- one record more, when there was room for it
  | storePos out m dst pos =>
    obtain ⟨rfl, hlt⟩ := hw
    obtain rfl := Option.some.inj h
    refine ⟨rfl, ?_⟩
    rw [List.length_append, List.length_singleton]
    exact hlt

/-- Nor does a step of the ring. -/
theorem popRing_within {g : QueueGeometry} {entry : LoggerMessage} {ring ring' : QueueSys ℕ}
    {r : Unit ⊕ List LoggerMessage} {max : ℕ} (h : popRing g entry ring = some (r, ring'))
    (hw : Within max ring.pop) :
    Within max ring'.pop ∧ ∀ out, r = .inr out → out.length ≤ max := by
  obtain ⟨e, he, hr⟩ := popRing_cases h
  have hstep := popStep_within he hw
  rcases hr with ⟨out, hpc, rfl, rfl⟩ | ⟨rfl, rfl⟩
  · rw [hpc] at hstep
    refine ⟨trivial, ?_⟩
    rintro out' ⟨⟩
    exact hstep
  · exact ⟨hstep, fun _ hr => absurd hr (by rintro ⟨⟩)⟩

/-- What has been taken is within the bound. -/
theorem Within.out_le {pc : PopPc} {max : ℕ} (h : Within max pc) : pc.out.length ≤ max := by
  cases pc with
  | idle => exact Nat.zero_le _
  | returned out => exact h
  | drainHead out m => exact h.2
  | loadPos out m dst => exact h.2.le
  | loadSeq out m dst pos => exact h.2.le
  | readSpill out m dst pos => exact h.2.le
  | unpack out m dst pos spill rest => exact h.2.le
  | storeSeq out m dst pos => exact h.2.le
  | storePos out m dst pos => exact h.2.le

/-- In the runs with recent positions the worker's position counts what it has taken. -/
theorem AccountInv.taken_length (hs : AccountInv recent cfg start s) (hr : recent) :
    s.ring.popped.length = s.ring.q.dequeuePos := (hs.ring hr).inv.pop.popped_length

/-- The worker has published its position, unless the instance has been stopped. -/
def CaughtUp (recent : Prop) (s : Inst) : Prop :=
  recent → s.lifecycleError = 0 → s.ring.q.dequeuePos ≤ s.completedPos

/-- No other thread moves the progress. -/
theorem caughtUp_stable : (accountLogic recent cfg start).Stable .worker (CaughtUp recent) := by
  intro s s' hsees hs hr hz
  obtain ⟨-, -, hpos, hcompleted⟩ := hsees.2.worker rfl
  rw [hpos, hcompleted]
  exact hs hr (by_contra fun hne => hsees.1.lifecycleError hne hz)

/-- The worker between its batches. -/
structure Waiting (recent : Prop) (E : List Emission) (s : Inst) : Prop where
  settled : Settled .worker 0 E s
  taken : Taken recent E [] s
  caughtUp : CaughtUp recent s

/-- The worker waits with all it has taken counted. -/
theorem waiting_stable : (accountLogic recent cfg start).Stable .worker (Waiting recent E) :=
  fun s s' hsees hs =>
    ⟨standing_stable s s' hsees hs.settled, framed_taken.stable s s' hsees hs.taken,
    caughtUp_stable s s' hsees hs.caughtUp⟩

/-- The worker inside a drain, which began when `taken` had been taken. -/
structure Taking (recent : Prop) (cfg : InstConfig) (E : List Emission)
    (taken : List LoggerMessage) (s : Inst) : Prop where
  settled : Settled .worker 0 E s
  popped : s.ring.popped = taken ++ s.ring.pop.out
  within : Within cfg.workspaceCapacity s.ring.pop
  order : (recordsOf E).Sublist taken
  all : recent → s.firstError = 0 → recordsOf E = taken
  behind : recent → s.completedPos ≤ taken.length
  caughtUp : recent → s.lifecycleError = 0 → taken.length ≤ s.completedPos

/-- No other thread takes records. -/
theorem taking_stable {taken : List LoggerMessage} :
    (accountLogic recent cfg start).Stable .worker (Taking recent cfg E taken) := by
  intro s s' hsees hs
  obtain ⟨hpopped, hpop, -, hcompleted⟩ := hsees.2.worker rfl
  refine ⟨standing_stable s s' hsees hs.settled, ?_, hpop.symm ▸ hs.within, hs.order,
    fun hr hz => hs.all hr (hsees.1.noError hz), fun hr => ?_, fun hr hz => ?_⟩
  · rw [hpopped, hpop]
    exact hs.popped
  · rw [hcompleted]
    exact hs.behind hr
  · rw [hcompleted]
    exact hs.caughtUp hr (by_contra fun hne => hsees.1.lifecycleError hne hz)

/-- A drain hands out what it has taken. -/
theorem drain_accounts :
    (accountLogic recent cfg start).Triple .worker (Waiting recent E)
      (loggerQueueDrain cfg.geometry cfg.workspaceCapacity) fun batch s =>
        Settled .worker 0 E s ∧ Taken recent E batch s ∧ (batch = [] → CaughtUp recent s) := by
  refine Logic.Triple.bind (Q := fun _ s => ∃ taken, Taking recent cfg E taken s) ?_ fun _ => ?_
  -- the call of the drain itself takes nothing
  · refine account_act (fun _ s _ hs => hs.settled.accounted)
      (fun _ s s' hsees hs => ⟨hs.choose, taking_stable s s' hsees hs.choose_spec⟩) ?_
    intro s a b s' hs hP hact hok
    obtain ⟨ring', hnext, heq⟩ := Option.map_eq_some_iff.mp hact
    obtain ⟨-, rfl⟩ := Prod.mk.inj heq
    have hreach : recent → QueueReachable cfg.geometry ring' :=
      fun hr => (hs.ring hr).tail hnext (hok hr)
    rw [queueNext, hP.taken.idle] at hnext
    obtain rfl := Option.some.inj hnext
    have hlag : recent → s.lifecycleError = 0 →
        s.ring.q.dequeuePos ≤ s.completedPos + cfg.workspaceCapacity :=
      fun hr hz => (hP.caughtUp hr hz).trans (Nat.le_add_right _ _)
    -- what was popped before the drain began is remembered
    refine ⟨accounts_pop hs hreach List.prefix_rfl rfl hlag, s.ring.popped, ?_⟩
    have horder := hP.taken.order
    rw [List.append_nil] at horder
    refine ⟨⟨hP.settled.accounted, hP.settled.emitted, hP.settled.counted⟩,
      (List.append_nil _).symm, ⟨rfl, Nat.zero_le _⟩, horder, fun hr hz => ?_, fun hr => ?_,
      fun hr hz => ?_⟩
    · exact (List.append_nil _).symm.trans (hP.taken.all hr hz)
    · rw [hs.taken_length hr]
      exact hP.taken.behind hr
    · rw [hs.taken_length hr]
      exact hP.caughtUp hr hz
  -- from here on it is fixed
  refine triple_exists (fun _ => taking_stable) fun taken => ?_
  refine Logic.triple_iterate (fun _ => Taking recent cfg E taken)
    (fun _ s _ hs _ => hs.settled.accounted) fun _ => ?_
  refine account_act (fun _ s _ hs => hs.settled.accounted) (fun r => ?_) ?_
  · cases r with
    | inl _ => exact taking_stable
    | inr batch =>
      intro s s' hsees hs
      exact ⟨standing_stable s s' hsees hs.1, framed_taken.stable s s' hsees hs.2.1,
        fun hb => caughtUp_stable s s' hsees (hs.2.2 hb)⟩
  intro s a r s' hs hP hact hok
  -- one step of the pop
  obtain ⟨⟨r', ring'⟩, hpop, heq⟩ := Option.map_eq_some_iff.mp hact
  obtain ⟨rfl, rfl⟩ := Prod.mk.inj heq
  obtain ⟨more, hpopped, hout⟩ := (popRing_effects hpop).popped
  have hreach : recent → QueueReachable cfg.geometry ring' :=
    fun hr => popRing_reachable (hs.ring hr) (hok hr) hpop
  have hlength : recent → ring'.popped.length = ring'.q.dequeuePos :=
    fun hr => (hreach hr).inv.pop.popped_length
  obtain ⟨hwithin, hmax⟩ := popRing_within hpop hP.within
  -- what the ring has handed out since the drain began is what the drain holds
  have htaken : ring'.popped = taken ++ r'.elim (fun _ => ring'.pop.out) id := by
    rw [hpopped, hP.popped, hout, List.append_assoc]
  have hbound : (r'.elim (fun _ => ring'.pop.out) id).length ≤ cfg.workspaceCapacity := by
    cases r' with
    | inl _ => exact hwithin.out_le
    | inr out => exact hmax out rfl
  -- the position is ahead of the progress by at most one batch
  have hlag : recent → s.lifecycleError = 0 →
      ring'.q.dequeuePos ≤ s.completedPos + cfg.workspaceCapacity := by
    intro hr hz
    have hcaught := hP.caughtUp hr hz
    rw [← hlength hr, htaken, List.length_append]
    omega
  have haccounts := accounts_pop hs hreach (hpopped ▸ List.prefix_append _ _)
    (popRing_effects hpop).reserved hlag
  refine ⟨haccounts, ?_⟩
  have hsettled : Settled .worker 0 E { s with ring := ring' } :=
    ⟨hP.settled.accounted, hP.settled.emitted, hP.settled.counted⟩
  cases r' with
  -- the drain goes on
  | inl _ => exact ⟨hsettled, htaken, hwithin, hP.order, hP.all, hP.behind, hP.caughtUp⟩
  | inr out =>
    -- the drain is over, and what it holds is the batch
    refine ⟨hsettled, ⟨(popRing_effects hpop).idle out rfl, ?_, fun hr hz => ?_, fun hr => ?_⟩, ?_⟩
    · show (recordsOf E ++ out).Sublist ring'.popped
      rw [htaken]
      exact hP.order.append_right out
    · show recordsOf E ++ out = ring'.popped
      rw [htaken, hP.all hr hz]
      rfl
    · show s.completedPos ≤ ring'.q.dequeuePos
      rw [← hlength hr, htaken, List.length_append]
      exact (hP.behind hr).trans (Nat.le_add_right _ _)
    -- an empty batch has found nothing to take
    · rintro rfl hr hz
      show ring'.q.dequeuePos ≤ s.completedPos
      rw [← hlength hr, htaken]
      exact (List.append_nil taken).symm ▸ hP.caughtUp hr hz

end Drain

section Main

/-- The worker that goes on, or stops, after a batch. -/
def Proceeds (recent : Prop) (E : List Emission) (again : Bool) (s : Inst) : Prop :=
  Settled .worker 0 E s ∧ Taken recent E [] s ∧ (again = true → CaughtUp recent s)

/-- The worker goes on with all it has taken counted. -/
theorem proceeds_stable {again : Bool} :
    (accountLogic recent cfg start).Stable .worker (Proceeds recent E again) :=
  fun s s' hsees hs => ⟨standing_stable s s' hsees hs.1, framed_taken.stable s s' hsees hs.2.1,
    fun ha => caughtUp_stable s s' hsees (hs.2.2 ha)⟩

/-- Code that the worker passes before it stops. -/
theorem Passes.stops {α : Type} {c : InstCode α} (h : Passes recent cfg start .worker c) :
    (accountLogic recent cfg start).Triple .worker
      (fun s => Settled .worker 0 E s ∧ Taken recent E [] s) (c >>= fun _ => pure false)
      (Proceeds recent E) :=
  Logic.Triple.bind (h.standing framed_taken) fun _ => Logic.triple_pure fun s _ hs =>
    ⟨hs.1, hs.2, fun ha => absurd ha (by decide)⟩

/-- The instance is stopped after an error. -/
theorem noteLifecycleError_accounts {P : Inst → Prop} {t : InstThread} {error : ℤ}
    (herror : error ≠ 0) (hstable : (accountLogic recent cfg start).Stable t P)
    (hP : ∀ s, P s → s.history.accounted t = 0) :
    (accountLogic recent cfg start).Triple t P (loggerNoteLifecycleError error) fun _ s =>
      P s ∧ s.lifecycleError ≠ 0 := by
  have hstopped : (accountLogic recent cfg start).Stable t fun s => P s ∧ s.lifecycleError ≠ 0 :=
    fun s s' hsees hs => ⟨hstable s s' hsees hs.1, hsees.1.lifecycleError hs.2⟩
  have hstore : ∀ {set : Inst → Inst}, (∀ s, Mild s (set s)) →
      (accountLogic recent cfg start).Triple t (fun s => P s ∧ s.lifecycleError ≠ 0) (store set)
        fun _ s => P s ∧ s.lifecycleError ≠ 0 :=
    fun hset => passes_store hset _ hstopped fun s hs => hP s hs.1
  refine Logic.triple_ite (fun hzero => absurd hzero herror) fun _ => ?_
  refine Logic.Triple.bind (Q := fun _ s => P s ∧ s.lifecycleError ≠ 0) ?_ fun _ =>
    Logic.Triple.bind (hstore fun _ => ⟨.of_ledger rfl rfl rfl rfl id, rfl⟩) fun _ =>
      hstore fun _ => ⟨.of_ledger rfl rfl rfl rfl id, rfl⟩
  refine account_act (fun _ s _ hs => hP s hs) (fun _ => hstopped) ?_
  intro s a b s' hs hPs hact _
  obtain ⟨-, rfl⟩ := Prod.mk.inj (Option.some.inj hact)
  have hne : (if s.lifecycleError = 0 then (error.natAbs : ℤ) else s.lifecycleError) ≠ 0 := by
    split
    · exact Int.natCast_ne_zero.mpr (Int.natAbs_ne_zero.mpr herror)
    · assumption
  have hmild : Mild s { s with
      lifecycleError := if s.lifecycleError = 0 then error.natAbs else s.lifecycleError } :=
    ⟨⟨rfl, fun _ => rfl, id, fun _ => hne, id, id⟩, rfl⟩
  exact ⟨hmild.accounts hs, hstable s _ hmild.sees hPs, hne⟩

/-- The progress is published when the batch has been counted. -/
theorem publishProgress_accounts :
    (accountLogic recent cfg start).Triple .worker
      (fun s => Settled .worker 0 E s ∧ Taken recent E [] s) publishProgress
      (Proceeds recent E) := by
  have hF : Framed recent cfg start .worker (Taken recent E []) := framed_taken
  refine Logic.Triple.bind ((passes_lock (by rintro ⟨⟩)).standing hF) fun lockRc => ?_
  -- a progress that could not be published stops the instance
  refine Logic.triple_ite (fun hne => ?_) fun _ => ?_
  · refine Logic.Triple.bind (noteLifecycleError_accounts (neg_ne_zero.mpr hne) hF.standing hF.zero)
      fun _ => Logic.triple_pure fun s _ hs => ⟨hs.1.1, hs.1.2, fun _ _ hz => absurd hz hs.2⟩
  refine Logic.Triple.bind (Q := fun pos s => (Settled .worker 0 E s ∧ Taken recent E [] s) ∧
    s.ring.q.dequeuePos = pos) ?_ fun pos => ?_
  -- the position is read and stored under one lock
  · refine account_act (fun _ s _ hs => hs.1.accounted) (fun pos s s' hsees hs => ?_) ?_
    · exact ⟨hF.standing s s' hsees hs.1, (hsees.2.worker rfl).2.2.1.trans hs.2⟩
    intro s a b s' hs hP hact _
    obtain ⟨rfl, rfl⟩ := Prod.mk.inj (Option.some.inj hact)
    exact ⟨(Mild.refl s).accounts hs, hP, rfl⟩
  refine Logic.Triple.bind (Q := fun _ => Proceeds recent E true) ?_ fun _ => ?_
  · refine account_act (fun _ s _ hs => hs.1.1.accounted) (fun _ => proceeds_stable) ?_
    intro s a b s' hs hP hact _
    obtain ⟨-, rfl⟩ := Prod.mk.inj (Option.some.inj hact)
    obtain ⟨⟨hsettled, htaken⟩, rfl⟩ := hP
    refine ⟨accounts_progress hs htaken.behind (fun hr hz => ?_) fun _ => le_rfl, ?_⟩
    -- everything the worker has taken is counted, so the position may be published
    · have hthread : ∀ e ∈ E, e.thread = .worker := by
        intro e he
        exact (mem_ofThread.mp (hsettled.emitted ▸ he : e ∈ s.emittedBy .worker)).2
      have hall := htaken.all hr hz
      rw [List.append_nil] at hall
      rw [hsettled.counted, filter_counts_worker hthread, hall, hs.taken_length hr]
    · exact ⟨⟨hsettled.accounted, hsettled.emitted, hsettled.counted⟩,
        ⟨htaken.idle, htaken.order, htaken.all, fun _ => le_rfl⟩, fun _ _ _ => le_rfl⟩
  -- a failed unlock is noted, and the worker stops
  refine Logic.Triple.bind (passes_unlock (by rintro ⟨⟩) _ proceeds_stable
    fun s hs => hs.1.accounted) fun unlockRc => ?_
  refine Logic.triple_ite (fun _ => ?_) fun _ => Logic.triple_pure fun s _ hs => hs
  exact (passes_noteSynchronizationError unlockRc).stops.pre fun s _ hs => ⟨hs.1, hs.2.1⟩

/-- A batch is emitted, counted and published. -/
theorem workerEmit_accounts (hstart : SinksOk start) (batch : List LoggerMessage) :
    (accountLogic recent cfg start).Triple .worker
      (fun s => Settled .worker 0 E s ∧ Taken recent E batch s) (workerEmit cfg batch)
      fun again s => ∃ E', Proceeds recent E' again s := by
  refine Logic.Triple.bind (emitBatch_accounts hstart batch) fun _ => ?_
  refine triple_exists (fun E' => framed_taken.standing) fun E' => ?_
  refine Logic.Triple.bind (Q := fun _ s => Settled .worker 0 E' s ∧ Taken recent E' [] s) ?_
    fun _ => ?_
  · refine account_act (fun hlabel => absurd rfl hlabel) (fun _ => framed_taken.standing) ?_
    intro s a b s' hs hP hact _
    obtain ⟨-, rfl⟩ := Prod.mk.inj (Option.some.inj hact)
    refine ⟨accounts_complete hs batch.length 0 hP.1.accounted.symm,
      ⟨?_, hP.1.emitted, hP.1.counted⟩, ⟨hP.2.idle, hP.2.order, hP.2.all, hP.2.behind⟩⟩
    show Function.update s.history.accounted .worker 0 .worker = 0
    exact Function.update_self _ _ _
  refine Logic.Triple.bind ((passes_load _).standing framed_taken) fun syncError => ?_
  refine Logic.triple_ite (fun _ => Logic.triple_pure fun s _ hs => ?_) fun _ => ?_
  · exact ⟨E', hs.1, hs.2, fun ha => absurd ha (by decide)⟩
  · exact publishProgress_accounts.post fun again s _ hs => ⟨E', hs⟩

/-- The worker counts every emission it makes, and accounts for every record it takes. -/
theorem workerMain_accounts (hstart : SinksOk start) :
    (accountLogic recent cfg start).Triple .worker (fun s => ∃ E, Waiting recent E s)
      (loggerWorkerMain cfg) fun _ s => ∃ E, Settled .worker 0 E s := by
  -- the loop ends only when nothing is left to do
  refine Logic.Triple.bind (Q := fun _ s => ∃ E, Settled .worker 0 E s) ?_ fun _ => ?_
  · refine Logic.triple_iterate (fun _ s => ∃ E, Waiting recent E s)
      (fun _ s _ hs _ => hs.choose_spec.settled.accounted) fun _ => ?_
    refine triple_exists (fun E => waiting_stable) fun E => ?_
    refine Logic.Triple.bind drain_accounts fun batch => ?_
    refine Logic.Triple.bind (Q := fun again s => ∃ E', Proceeds recent E' again s) ?_
      fun again => ?_
    · refine Logic.triple_ite (fun hempty => ?_) fun _ => ?_
      -- an empty drain makes the worker wait
      · obtain rfl := List.isEmpty_iff.mp hempty
        refine ((passes_workerWait (fun s => Waiting recent E s) waiting_stable
          fun s hs => hs.settled.accounted).pre fun s _ hs => ⟨hs.1, hs.2.1, hs.2.2 rfl⟩).post
          fun again s _ hs => ⟨E, hs.settled, hs.taken, fun _ => hs.caughtUp⟩
      -- otherwise the batch is emitted, and its progress published
      · exact (workerEmit_accounts hstart batch).pre fun s _ hs => ⟨hs.1, hs.2.1⟩
    refine Logic.triple_pure fun s _ hs => ?_
    obtain ⟨E', hs⟩ := hs
    cases again with
    | true => exact ⟨E', hs.1, hs.2.1, hs.2.2 rfl⟩
    | false => exact ⟨E', hs.1⟩
  have hstable : (accountLogic recent cfg start).Stable .worker
      fun s => ∃ E, Settled .worker 0 E s :=
    fun s s' hsees hs => ⟨hs.choose, standing_stable s s' hsees hs.choose_spec⟩
  -- the last steps of the worker only tell the others that it is done
  refine Logic.Triple.bind (passes_finalBroadcast _ hstable
    fun s hs => hs.choose_spec.accounted) fun _ => ?_
  refine passes_store (fun _ => ?_) _ hstable fun s hs => hs.choose_spec.accounted
  exact ⟨.of_ledger rfl rfl rfl rfl id, rfl⟩

end Main

end CLogger.Instance
