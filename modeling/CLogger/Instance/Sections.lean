import CLogger.Instance.Passing
import CLogger.Instance.Steps

/-!
# The sections under `emit_mu`

What a thread knows while it offers records to the outputs and counts them afterwards. `F` stands
for what it knows besides: assertions that emissions leave alone.

* `Standing`, `Held`: the accounts of a thread, and of a thread that holds `emit_mu`.
* `Framed`: the assertions `F`.
* `lockEmit_accounts`, `onStderr_accounts`, `onFile_accounts`, `onSyslog_accounts`,
  `unlockEmit_accounts`.
* `countFailed_accounts`, `countEmitted_accounts`, `completeSync_accounts`.
-/

namespace CLogger.Instance

open Concurrent

variable {recent : Prop} {cfg : InstConfig} {start : Sinks} {s s' : Inst} {t : InstThread}
  {E C : List Emission} {k : ℕ} {before : Sinks} {F F' : Inst → Prop}

section Assertions

/-- The accounts of a thread: what it has accounted, its emissions, and those it has counted. -/
structure Standing (t : InstThread) (k : ℕ) (E C : List Emission) (s : Inst) : Prop where
  accounted : s.history.accounted t = k
  emitted : s.emittedBy t = E
  counted : s.countedBy t = C

/-- The thread has counted all its emissions. -/
abbrev Settled (t : InstThread) (k : ℕ) (E : List Emission) : Inst → Prop :=
  Standing t k E (E.filter Emission.counts)

/-- The thread holds `emit_mu`, and found the outputs as `before`. -/
structure Held (cfg : InstConfig) (start : Sinks) (t : InstThread) (E : List Emission)
    (before : Sinks) (s : Inst) : Prop where
  settled : Settled t 0 E s
  owner : s.owner .emit = some t
  reached : SinksReached cfg start s.history.emissions before

/-- What an emission does to the rest of an instance. -/
structure Aside (recent : Prop) (s s' : Inst) : Prop where
  guar : AccountGuar recent s s'
  ring : s'.ring = s.ring
  completedPos : s'.completedPos = s.completedPos
  calls : s'.history.calls = s.history.calls

/-- An assertion of thread `t` that its emissions leave alone. -/
structure Framed (recent : Prop) (cfg : InstConfig) (start : Sinks) (t : InstThread)
    (F : Inst → Prop) : Prop where
  stable : (accountLogic recent cfg start).Stable t F
  aside : ∀ s s', Aside recent s s' → F s → F s'

/-- No other thread changes what a thread has emitted and counted. -/
theorem standing_stable : (accountLogic recent cfg start).Stable t (Standing t k E C) :=
  fun _ _ hsees hs => ⟨hsees.2.accounted.trans hs.accounted, hsees.2.emitted.trans hs.emitted,
    hsees.2.counted.trans hs.counted⟩

/-- While a thread holds `emit_mu` the outputs are its own. -/
theorem held_stable : (accountLogic recent cfg start).Stable t (Held cfg start t E before) := by
  intro s s' hsees hs
  obtain ⟨howner, -, hemissions⟩ := hsees.2.emit hs.owner
  exact ⟨standing_stable s s' hsees hs.settled, howner, hemissions ▸ hs.reached⟩

/-- The holder of `emit_mu` finds the outputs as it has left them. -/
theorem Held.sees (h : Held cfg start t E before s)
    (hsees : (accountLogic recent cfg start).Sees (some t) s s') : s'.sinks = s.sinks :=
  (hsees.2.emit h.owner).2.1

/-- Two framed facts are one. -/
theorem Framed.and (hF : Framed recent cfg start t F) (hF' : Framed recent cfg start t F') :
    Framed recent cfg start t fun s => F s ∧ F' s where
  stable s s' hsees hs := ⟨hF.stable s s' hsees hs.1, hF'.stable s s' hsees hs.2⟩
  aside s s' haside hs := ⟨hF.aside s s' haside hs.1, hF'.aside s s' haside hs.2⟩

/-- That an error has been noted. -/
theorem framed_error (p : Prop) : Framed recent cfg start t fun s => p → 0 < s.firstError where
  stable _ _ hsees hs hp := hsees.1.error (hs hp)
  aside _ _ haside hs hp := haside.guar.error (hs hp)

/-- A fact about no state is framed. -/
theorem framed_const (p : Prop) : Framed recent cfg start t fun _ => p :=
  ⟨fun _ _ _ hp => hp, fun _ _ _ hp => hp⟩

/-- Beside its standing a thread may keep a framed fact. -/
theorem Framed.standing (hF : Framed recent cfg start t F) :
    (accountLogic recent cfg start).Stable t fun s => Standing t k E C s ∧ F s :=
  fun s s' hsees hs => ⟨standing_stable s s' hsees hs.1, hF.stable s s' hsees hs.2⟩

/-- And beside a section, with what it knows of the outputs. -/
theorem Framed.held (hF : Framed recent cfg start t F) (R : Sinks → Prop) :
    (accountLogic recent cfg start).Stable t fun s =>
      Held cfg start t E before s ∧ F s ∧ R s.sinks := by
  intro s s' hsees hs
  exact ⟨held_stable s s' hsees hs.1, hF.stable s s' hsees hs.2.1, hs.1.sees hsees ▸ hs.2.2⟩

/-- Code beside the accounts. -/
theorem Passes.standing {α : Type} {c : InstCode α} (h : Passes recent cfg start t c)
    (hF : Framed recent cfg start t F) :
    (accountLogic recent cfg start).Triple t (fun s => Standing t 0 E C s ∧ F s) c
      fun _ s => Standing t 0 E C s ∧ F s :=
  h _ hF.standing fun _ hs => hs.1.accounted

end Assertions

section Sections

/-- A case distinction over what the thread knows. -/
theorem triple_exists {X α : Type} {P : X → Inst → Prop} {c : InstCode α} {Q : α → Inst → Prop}
    (hstable : ∀ x, (accountLogic recent cfg start).Stable t (P x))
    (h : ∀ x, (accountLogic recent cfg start).Triple t (P x) c Q) :
    (accountLogic recent cfg start).Triple t (fun s => ∃ x, P x s) c Q := by
  refine Logic.triple_snapshot fun s₀ _ hs₀ => ?_
  obtain ⟨x, hx⟩ := hs₀
  exact (h x).pre fun s _ hs => hstable x s₀ s hs.2 hx

/-- A section starts from the outputs as the last one has left them. -/
theorem lockEmit_accounts (hF : Framed recent cfg start t F) :
    (accountLogic recent cfg start).Triple t (fun s => Settled t 0 E s ∧ F s) (lockEmit t)
      fun r s => (Settled t 0 E s ∧ F s) ∧ r.1 ≤ 0 ∧
        (r.1 = 0 → Held cfg start t E r.2 s ∧ F s ∧ s.sinks = r.2) := by
  refine account_act (fun _ _ _ hs => hs.1.accounted) (fun r s s' hsees hs => ?_) ?_
  · exact ⟨hF.standing s s' hsees hs.1, hs.2.1,
      fun hr => hF.held (· = r.2) s s' hsees (hs.2.2 hr)⟩
  intro s a r s' hs hP hact _
  split_ifs at hact with hfails hfree
  · obtain ⟨rfl, rfl⟩ := Prod.mk.inj (Option.some.inj hact)
    refine ⟨(Mild.refl s).accounts hs, hP, by simp, fun hr => absurd hr ?_⟩
    simpa using hfails
  · obtain ⟨rfl, rfl⟩ := Prod.mk.inj (Option.some.inj hact)
    have haccounts := accounts_lock (t := t) hs hfree
    have hF' := hF.aside _ _ ⟨haccounts.guar, rfl, rfl, rfl⟩ hP.2
    have hsettled : Settled t 0 E (s.own .emit (some t)) :=
      ⟨hP.1.accounted, hP.1.emitted, hP.1.counted⟩
    obtain ⟨w, hw, hsinks⟩ := hs.sinks
    refine ⟨haccounts, ⟨hsettled, hF'⟩, le_rfl,
      fun _ => ⟨⟨hsettled, Inst.own_owner _ _ _, ?_⟩, hF', rfl⟩⟩
    rw [hsinks hfree]
    exact hw

/-- The holder of `emit_mu` runs a program of an output. -/
theorem embed_accounts {τ α : Type} {view : Sinks → τ} (put : Sinks → τ → Sinks) {R : Sinks → Prop}
    {Q : α → Sinks → Prop} (hF : Framed recent cfg start t F) (m : TapeProgram.Prog τ Answer α)
    (x : τ) (hview : ∀ w y, view (put w y) = y) (hput : ∀ w y y', put (put w y) y' = put w y')
    (heta : ∀ w, put w (view w) = w) (hR : ∀ w, R w → view w = x)
    (hQ : ∀ w a y, R w → TapeProgram.Returns m x a y → Q a (put w y)) :
    (accountLogic recent cfg start).Triple t
      (fun s => Held cfg start t E before s ∧ F s ∧ R s.sinks)
      (Code.embed .other (fun s => view s.sinks) (fun s y => { s with sinks := put s.sinks y })
        InstReply.answer m)
      fun a s => Held cfg start t E before s ∧ F s ∧ Q a s.sinks := by
  refine (triple_run (A := fun s => Held cfg start t E before s ∧ F s ∧ ∃ y, R (put s.sinks y))
    m x (fun s s' hsees hs => ?_) (fun s _ hs _ => hs.1.settled.accounted)
    (fun s y => hview s.sinks y) (fun s y hs hA => ?_)).conseq (fun s _ hs => ?_) fun a s _ hs => ?_
  · refine ⟨hF.held (fun w => ∃ y, R (put w y)) s s' hsees hs, ?_⟩
    rw [hs.1.sees hsees]
  · have haccounts := accounts_sinks hs hA.1.owner (put s.sinks y)
    refine ⟨haccounts.inv, haccounts.guar, haccounts.rely, ?_, ?_, ?_⟩
    · exact ⟨⟨hA.1.settled.accounted, hA.1.settled.emitted, hA.1.settled.counted⟩, hA.1.owner,
        hA.1.reached⟩
    · exact hF.aside _ _ ⟨haccounts.guar, rfl, rfl, rfl⟩ hA.2.1
    · obtain ⟨y', hy'⟩ := hA.2.2
      exact ⟨y', (hput s.sinks y y').symm ▸ hy'⟩
  · exact ⟨⟨hs.1, hs.2.1, view s.sinks, (heta s.sinks).symm ▸ hs.2.2⟩, hR _ hs.2.2⟩
  · obtain ⟨⟨hheld, hFs, y, hy⟩, hreturns⟩ := hs
    have hend := hQ _ a _ hy hreturns
    rw [hput, heta] at hend
    exact ⟨hheld, hFs, hend⟩

/-- An unlock changes the owner of the lock only. -/
theorem unlocked_same (s : Inst) (mutex : InstMutex) (a : InstReply) :
    (s.unlocked mutex a).ring = s.ring ∧ (s.unlocked mutex a).completedPos = s.completedPos ∧
      (s.unlocked mutex a).history = s.history := by
  unfold Inst.unlocked
  split <;> exact ⟨rfl, rfl, rfl⟩

variable {R : Sinks → Prop}

/-- A write to standard error within a section changes that output alone. -/
theorem onStderr_accounts {α : Type} {Q : α → Sinks → Prop} (hF : Framed recent cfg start t F)
    (m : TapeProgram.Prog StderrWorld Answer α) (x : StderrWorld) (hR : ∀ w, R w → w.stderr = x)
    (hQ : ∀ w a y, R w → TapeProgram.Returns m x a y → Q a { w with stderr := y }) :
    (accountLogic recent cfg start).Triple t
      (fun s => Held cfg start t E before s ∧ F s ∧ R s.sinks) (onStderr m)
      fun a s => Held cfg start t E before s ∧ F s ∧ Q a s.sinks :=
  embed_accounts (fun w y => { w with stderr := y }) hF m x (fun _ _ => rfl)
    (fun _ _ _ => rfl) (fun _ => rfl) hR hQ

/-- A call of the file backend changes the file alone. -/
theorem onFile_accounts {α : Type} {Q : α → Sinks → Prop} (hF : Framed recent cfg start t F)
    (m : FileProg α) (x : FileWorld) (hR : ∀ w, R w → w.file = x)
    (hQ : ∀ w a y, R w → TapeProgram.Returns m x a y → Q a { w with file := y }) :
    (accountLogic recent cfg start).Triple t
      (fun s => Held cfg start t E before s ∧ F s ∧ R s.sinks) (onFile m)
      fun a s => Held cfg start t E before s ∧ F s ∧ Q a s.sinks :=
  embed_accounts (fun w y => { w with file := y }) hF m x (fun _ _ => rfl)
    (fun _ _ _ => rfl) (fun _ => rfl) hR hQ

/-- A call of the syslog sink changes the sink alone. -/
theorem onSyslog_accounts {α : Type} {Q : α → Sinks → Prop} (hF : Framed recent cfg start t F)
    (m : SyslogProg α) (x : SyslogWorld) (hR : ∀ w, R w → w.syslog = x)
    (hQ : ∀ w a y, R w → TapeProgram.Returns m x a y → Q a { w with syslog := y }) :
    (accountLogic recent cfg start).Triple t
      (fun s => Held cfg start t E before s ∧ F s ∧ R s.sinks) (onSyslog m)
      fun a s => Held cfg start t E before s ∧ F s ∧ Q a s.sinks :=
  embed_accounts (fun w y => { w with syslog := y }) hF m x (fun _ _ => rfl)
    (fun _ _ _ => rfl) (fun _ => rfl) hR hQ

/-- The error of an output is noted under the lock. -/
theorem noteFailure_accounts (hF : Framed recent cfg start t F) (rc : ℤ) :
    (accountLogic recent cfg start).Triple t
      (fun s => Held cfg start t E before s ∧ F s ∧ R s.sinks) (noteFailure rc)
      fun _ s => Held cfg start t E before s ∧ (F s ∧ (rc < 0 → 0 < s.firstError)) ∧ R s.sinks := by
  refine Logic.triple_ite (fun hneg => ?_) fun hneg => Logic.triple_pure fun s _ hs => ?_
  · refine (noteIoError_accounts (-rc) (hF.held R) fun s hs => hs.1.settled.accounted).post
      fun _ s _ hs => ⟨hs.1.1, ⟨hs.1.2.1, fun _ => hs.2 (neg_pos.mpr hneg)⟩, hs.1.2.2⟩
  · exact ⟨hs.1, ⟨hs.2.1, fun h => absurd h hneg⟩, hs.2.2⟩

/-- The unlock at the end of an emission. -/
theorem unlockEmit_accounts (hF : Framed recent cfg start t F) {emission : ℤ → Sinks → Emission}
    (hran : ∀ rc w, rc ≤ 0 → R w → (emission rc w).thread = t ∧ (emission rc w).before = before ∧
      (emission rc w).after = w ∧ ∃ r, EmissionRan cfg (emission rc w) r)
    (horder : t = .worker → ∀ s, F s → ∀ rc w,
      (recordsOf E ++ (emission rc w).records).Sublist s.ring.popped) :
    (accountLogic recent cfg start).Triple t
      (fun s => Held cfg start t E before s ∧ F s ∧ R s.sinks) (unlockEmit emission)
      fun r s => (Standing t 0 (E ++ [r.2]) (E.filter Emission.counts) s ∧ F s) ∧ r.1 ≤ 0 ∧
        ∃ w, R w ∧ r.2 = emission r.1 w := by
  refine account_act (fun _ _ _ hs => hs.1.settled.accounted)
    (fun r s s' hsees hs => ⟨hF.standing s s' hsees hs.1, hs.2⟩) ?_
  -- the answer of the unlock ends the section, whatever it is
  intro s a r s' hs hP hact _
  obtain ⟨rfl, rfl⟩ := Prod.mk.inj (Option.some.inj hact)
  obtain ⟨hheld, hFs, hRs⟩ := hP
  have hrc : (-(a.pthread : ℤ)) ≤ 0 := neg_nonpos.mpr (Int.natCast_nonneg _)
  obtain ⟨hthread, hbefore, hafter, results, hresults⟩ := hran _ _ hrc hRs
  -- the emission is recorded, and the lock given up
  have hreached : SinksReached cfg start
      (s.history.emissions ++ [emission (-(a.pthread : ℤ)) s.sinks]) s.sinks := by
    have hemit := SinksReached.emit (hbefore.symm ▸ hheld.reached) hresults
    rw [hafter] at hemit
    exact hemit
  have hemits := accounts_emit hs hheld.owner hthread hreached
    (hheld.settled.counted.trans (congrArg _ hheld.settled.emitted.symm)) fun ht => by
      subst ht
      rw [hheld.settled.emitted]
      exact horder rfl s hFs _ _
  have haccounts := hemits.trans (accounts_release hemits.inv hheld.owner hreached a)
  have hstate : (s.emits (emission (-(a.pthread : ℤ)) s.sinks)).unlocked .emit a =
      (s.unlocked .emit a).record fun h =>
        { h with emissions := h.emissions ++ [emission (-(a.pthread : ℤ)) s.sinks] } := by
    unfold Inst.unlocked
    split <;> rfl
  rw [← hstate]
  -- recording the section and giving up the lock is one step
  obtain ⟨hring, hcompleted, hhistory⟩ :=
    unlocked_same (s.emits (emission (-(a.pthread : ℤ)) s.sinks)) .emit a
  refine ⟨haccounts, ⟨⟨?_, ?_, ?_⟩, ?_⟩, hrc, s.sinks, hRs, rfl⟩
  -- the thread has counted nothing yet of this section
  · rw [hhistory]
    exact hheld.settled.accounted
  · rw [Inst.emittedBy, hhistory]
    -- the section is the last of its thread
    show ofThread t (s.history.emissions ++ _) = _
    rw [ofThread_append, ofThread_own hthread]
    exact congrArg (· ++ _) hheld.settled.emitted
  · rw [Inst.countedBy, hhistory]
    exact hheld.settled.counted
  -- what the context needs is not changed by either
  · exact hF.aside _ _ ⟨haccounts.guar, hring, hcompleted, by rw [hhistory]; rfl⟩ hFs

/-- The unlock at the end of a section that has at most called the file. -/
theorem unlock_emit_accounts (hF : Framed recent cfg start t F)
    (hreach : ∀ es w, SinksReached cfg start es before → R w → SinksReached cfg start es w) :
    (accountLogic recent cfg start).Triple t
      (fun s => Held cfg start t E before s ∧ F s ∧ R s.sinks) (unlock .emit)
      fun _ s => Settled t 0 E s ∧ F s := by
  refine account_act (fun _ _ _ hs => hs.1.settled.accounted) (fun _ => hF.standing) ?_
  intro s a r s' hs hP hact _
  obtain ⟨-, rfl⟩ := Prod.mk.inj (Option.some.inj hact)
  obtain ⟨hheld, hFs, hRs⟩ := hP
  have haccounts := accounts_release hs hheld.owner (hreach _ _ hheld.reached hRs) a
  obtain ⟨hring, hcompleted, hhistory⟩ := unlocked_same s .emit a
  refine ⟨haccounts, ⟨?_, ?_, ?_⟩,
    hF.aside _ _ ⟨haccounts.guar, hring, hcompleted, by rw [hhistory]⟩ hFs⟩
  · rw [hhistory]
    exact hheld.settled.accounted
  · rw [Inst.emittedBy, hhistory]
    exact hheld.settled.emitted
  · rw [Inst.countedBy, hhistory]
    exact hheld.settled.counted

end Sections

section Counters

/-- Failed records are counted and have to be completed. -/
theorem countFailed_accounts (hF : Framed recent cfg start t F) (bad : ℕ) :
    (accountLogic recent cfg start).Triple t
      (fun s => Standing t 0 E C s ∧ F s ∧ (0 < bad → 0 < s.firstError)) (countFailed t bad)
      fun _ s => Standing t bad E C s ∧ F s := by
  refine account_act (fun _ _ _ hs => hs.1.accounted) (fun _ => hF.standing) ?_
  intro s a r s' hs hP hact _
  obtain ⟨-, rfl⟩ := Prod.mk.inj (Option.some.inj hact)
  have haccounts := accounts_fail (t := t) hs hP.2.2
  refine ⟨haccounts, ⟨?_, hP.1.emitted, hP.1.counted⟩,
    hF.aside _ _ ⟨haccounts.guar, rfl, rfl, rfl⟩ hP.2.1⟩
  show Function.update s.history.accounted t (s.history.accounted t + bad) t = bad
  rw [Function.update_self, hP.1.accounted, Nat.zero_add]

/-- The emission has been counted since there were `since` of them. -/
def CountedSince (since : ℕ) (e : Emission) (s : Inst) : Prop := e ∈ s.history.counted.drop since

/-- What has been counted since a moment stays so. -/
theorem CountedSince.mono {since : ℕ} {e : Emission} (h : CountedSince since e s)
    (hguar : AccountGuar recent s s') : CountedSince since e s' := by
  obtain ⟨more, hmore⟩ := hguar.counted
  rw [CountedSince, ← hmore, List.drop_append]
  exact List.mem_append_left _ h

/-- The emitted records of a section are counted, once for the section. -/
theorem countEmitted_accounts (hF : Framed recent cfg start t F) {label : InstLabel} {good : ℕ}
    {e : Option Emission} (hk : label = .count ∨ k = 0)
    (hgood : good = (e.toList.map fun e => e.failed.count false).sum)
    (hcounts : E.filter Emission.counts = C ++ e.toList) {since : ℕ}
    (hsince : ∀ s, F s → since ≤ s.history.counted.length)
    (hclean : ∀ s, F s → s.firstError = 0 → ∀ e' ∈ e.toList, e'.Clean)
    (hworker : t = .worker → ∀ s, F s → recent → s.firstError = 0 →
      recordsOf (C ++ e.toList) <+: s.ring.popped) :
    (accountLogic recent cfg start).Triple t (fun s => Standing t k E C s ∧ F s)
      (countEmitted label t good e)
      fun _ s => (Settled t (k + good) E s ∧ F s) ∧ ∀ e' ∈ e.toList, CountedSince since e' s := by
  -- at its own label the thread may be in the middle of counting
  refine account_act (fun hlabel s _ hs => ?_) (fun _ s s' hsees hs => ?_) ?_
  · rw [hs.1.accounted]
    exact hk.resolve_left hlabel
  · exact ⟨hF.standing s s' hsees hs.1, fun e' he' => (hs.2 e' he').mono hsees.1⟩
  intro s a r s' hs hP hact _
  obtain ⟨-, rfl⟩ := Prod.mk.inj (Option.some.inj hact)
  obtain ⟨hstanding, hFs⟩ := hP
  -- the section is one the thread has emitted itself
  have hthread : ∀ e' ∈ e.toList, e'.thread = t := by
    intro e' he'
    have hmem : e' ∈ E.filter Emission.counts := hcounts ▸ List.mem_append_right _ he'
    rw [← hstanding.emitted] at hmem
    exact (mem_ofThread.mp (List.mem_filter.mp hmem).1).2
  have haccounts := accounts_count hs hgood hthread
    (by rw [hstanding.emitted, hstanding.counted, hcounts]) (hclean s hFs) fun ht => by
      subst ht
      rw [hstanding.counted]
      exact hworker rfl s hFs
  refine ⟨haccounts, ⟨⟨?_, hstanding.emitted, ?_⟩, ?_⟩, fun e' he' => ?_⟩
  -- the counter and the ghost of it move together
  · show Function.update s.history.accounted t (s.history.accounted t + good) t = k + good
    rw [Function.update_self, hstanding.accounted]
  · show ofThread t (s.history.counted ++ e.toList) = _
    rw [ofThread_append, ofThread_self hthread, hcounts]
    exact congrArg (· ++ _) hstanding.counted
  · exact hF.aside _ _ ⟨haccounts.guar, rfl, rfl, rfl⟩ hFs
  -- the section comes after what was counted when the call began
  · show e' ∈ (s.history.counted ++ e.toList).drop since
    rw [List.drop_append_of_le_length (hsince s hFs)]
    exact List.mem_append_right _ he'

/-- A synchronous record is completed. -/
theorem completeSync_accounts (hF : Framed recent cfg start t F) :
    (accountLogic recent cfg start).Triple t (fun s => Standing t 1 E C s ∧ F s) (completeSync t)
      fun _ s => Standing t 0 E C s ∧ F s := by
  refine account_act (fun hlabel => absurd rfl hlabel) (fun _ => hF.standing) ?_
  intro s a r s' hs hP hact _
  obtain ⟨-, rfl⟩ := Prod.mk.inj (Option.some.inj hact)
  have haccounts := accounts_complete (t := t) hs 0 1 hP.1.accounted.symm
  exact ⟨haccounts, ⟨Function.update_self _ _ _, hP.1.emitted, hP.1.counted⟩,
    hF.aside _ _ ⟨haccounts.guar, rfl, rfl, rfl⟩ hP.2⟩

end Counters

end CLogger.Instance
