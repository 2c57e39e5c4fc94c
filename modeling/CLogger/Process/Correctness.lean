import CLogger.Process.Model

/-!
# Correctness of process initialisation

For every interleaving of any number of threads in `logger_process_init` and
`logger_process_require`, with any failures of the calls they make: at most one thread is in the
section of an attempt, the fork handlers are registered at most once, one domain is published at
most once and before the ticket says ready, and a failed attempt leaves nothing but its error.

* `ProcessInv` and `ProcessRely`: the invariant, and what a thread relies on; the owner of an
  attempt has the domain and the handlers to itself.
* `process_init_once`: the theorem about all runs.
-/

namespace CLogger

open Concurrent ProcessCode

variable {ι : Type} {pid : ℤ} {t : ι}

section Logic

/-- Before a domain is published. -/
structure Unpublished (history : ProcessHistory ι) (current : Option ℕ) : Prop where
  published : history.published = []
  current : current = none
  failed : ∀ e ∈ history.attempts, 0 < e

/-- One domain has been published, and it is the current one. -/
def Published (history : ProcessHistory ι) (current : Option ℕ) : Prop :=
  ∃ d, history.published = [d] ∧ current = some d

/-- The fork handlers have been registered as often as the flag says. -/
def RegisteredOnce (s : ProcessState ι) : Prop :=
  s.history.registrations = s.handlersRegistered.toNat

/-- No attempt is under way: the ticket tells how the last one ended. -/
structure Settled (s : ProcessState ι) : Prop where
  registered : RegisteredOnce s
  outcome : s.processTicket = processReady ∧ Published s.history s.current ∧
      s.history.attempts.getLast? = some 0 ∨
    s.processTicket = s.history.attempts.getLast?.getD processIdle ∧
      Unpublished s.history s.current

/-- What `logger_process_require` can have returned. -/
def ReportOk (s : ProcessState ι) (rc : ℤ) : Prop :=
  rc = 0 ∧ s.processTicket = processReady ∨ rc = -eagain ∨ rc = -enodev ∨
    ∃ e ∈ s.history.attempts, 0 < e ∧ rc = -e

/-- The invariant of the shared variables. -/
structure ProcessInv (pid : ℤ) (s : ProcessState ι) : Prop where
  notChild : s.forkedChild = false ∧ (s.ownerPid = 0 ∨ s.ownerPid = pid)
  starting : s.processTicket = processStarting ↔ s.history.owner.isSome
  settled : s.history.owner = none → Settled s
  registrations : s.history.registrations ≤ 1
  published : s.history.published.length ≤ 1
  succeeded : s.history.attempts.count 0 ≤ 1
  unfinished : s.processTicket ≠ processReady → s.history.attempts.count 0 = 0
  returned : s.history.inits.count 0 + s.history.winner.toList.length ≤ s.history.attempts.count 0
  reports : ∀ rc ∈ s.history.requires, ReportOk s rc

/-- What thread `t` can rely on when others take steps. -/
structure ProcessRely (t : ι) (s s' : ProcessState ι) : Prop where
  initializing : s'.initializing t = s.initializing t
  owner : s'.history.owner = some t ↔ s.history.owner = some t
  /-- Nobody else touches what the owner of an attempt works on. -/
  attempt : s.history.owner = some t →
    s'.history.published = s.history.published ∧ s'.current = s.current ∧
      s'.handlersRegistered = s.handlersRegistered ∧
      s'.history.registrations = s.history.registrations ∧
      s'.history.attempts = s.history.attempts
  winner : s.history.winner = some t → s'.history.winner = some t

/-- What every step satisfies: ready is never left, and no attempt is forgotten. -/
structure ProcessGuar (s s' : ProcessState ι) : Prop where
  ready : s.processTicket = processReady →
    s'.processTicket = processReady ∧ s'.current = s.current
  attempts : s.history.attempts ⊆ s'.history.attempts

/-- The proof setting: at a label of the section, the thread owns the attempt. -/
def processLogic (pid : ℤ) : Logic (ProcessState ι) ProcessReply ProcessLabel ι where
  Inv := ProcessInv pid
  Guar := ProcessGuar
  guar_refl s := ⟨fun h => ⟨h, rfl⟩, List.Subset.refl _⟩
  guar_trans h h' := by
    refine ⟨fun hr => ?_, fun e he => h'.attempts (h.attempts he)⟩
    obtain ⟨h1, h2⟩ := h.ready hr
    obtain ⟨h1', h2'⟩ := h'.ready h1
    exact ⟨h1', h2'.trans h2⟩
  Rely := ProcessRely
  rely_refl t s := ⟨rfl, Iff.rfl, fun _ => ⟨rfl, rfl, rfl, rfl, rfl⟩, id⟩
  rely_trans h h' := by
    refine ⟨h'.initializing.trans h.initializing, h'.owner.trans h.owner, fun ho => ?_,
      fun hw => h'.winner (h.winner hw)⟩
    obtain ⟨h1, h2, h3, h4, h5⟩ := h.attempt ho
    obtain ⟨h1', h2', h3', h4', h5'⟩ := h'.attempt (h.owner.mpr ho)
    exact ⟨h1'.trans h1, h2'.trans h2, h3'.trans h3, h4'.trans h4, h5'.trans h5⟩
  At t label s := label = .starting → s.history.owner = some t
  ok _ _ _ _ := True

/-- A change of variables that neither the ticket nor the history shows. -/
theorem ProcessInv.of_history {s s' : ProcessState ι} (h : ProcessInv pid s)
    (hchild : s'.forkedChild = false ∧ (s'.ownerPid = 0 ∨ s'.ownerPid = pid))
    (hticket : s'.processTicket = s.processTicket) (hcurrent : s'.current = s.current)
    (hhandlers : s'.handlersRegistered = s.handlersRegistered)
    (hhistory : s'.history = s.history) : ProcessInv pid s' := by
  obtain ⟨pid', forked, ticket, init, handlers, current, retained, history⟩ := s'
  simp only at hchild hticket hcurrent hhandlers hhistory
  subst hticket hcurrent hhandlers hhistory
  refine ⟨hchild, h.starting, fun hnone => ?_, h.registrations, h.published, h.succeeded,
    h.unfinished, h.returned, h.reports⟩
  exact ⟨(h.settled hnone).registered, (h.settled hnone).outcome⟩

/-- What the other threads rely on, when a thread changes nothing they look at. -/
theorem ProcessRely.of_history {s s' : ProcessState ι} {u : ι}
    (hinit : s'.initializing u = s.initializing u) (hcurrent : s'.current = s.current)
    (hhandlers : s'.handlersRegistered = s.handlersRegistered)
    (hhistory : s'.history = s.history) : ProcessRely u s s' where
  initializing := hinit
  owner := by rw [hhistory]
  attempt _ := by rw [hhistory]; exact ⟨rfl, hcurrent, hhandlers, rfl, rfl⟩
  winner hw := by rw [hhistory]; exact hw

theorem ProcessGuar.of_history {s s' : ProcessState ι}
    (hticket : s'.processTicket = s.processTicket) (hcurrent : s'.current = s.current)
    (hhistory : s'.history = s.history) : ProcessGuar s s' where
  ready hr := ⟨hticket.trans hr, hcurrent⟩
  attempts := by rw [hhistory]; exact List.Subset.refl _

/-- While an attempt is under way the ticket says so. -/
theorem ProcessInv.ticket_eq {s : ProcessState ι} (h : ProcessInv pid s)
    (howner : s.history.owner = some t) : s.processTicket = processStarting :=
  h.starting.mpr (by rw [howner]; rfl)

/-- The owner of the attempt works on the handlers and the domain. -/
theorem ProcessInv.of_owner {s s' : ProcessState ι} (h : ProcessInv pid s)
    (howner : s.history.owner = some t)
    (hchild : s'.forkedChild = false ∧ (s'.ownerPid = 0 ∨ s'.ownerPid = pid))
    (hticket : s'.processTicket = s.processTicket) {published : List ℕ} {registrations : ℕ}
    (hhistory : s'.history = { s.history with published, registrations })
    (hpublished : published.length ≤ 1) (hregistrations : registrations ≤ 1) :
    ProcessInv pid s' := by
  obtain ⟨pid', forked, ticket, init, handlers, current, retained, history⟩ := s'
  simp only at hchild hticket hhistory
  subst hticket hhistory
  refine ⟨hchild, h.starting, fun hnone => ?_, hregistrations, hpublished, h.succeeded,
    h.unfinished, h.returned, h.reports⟩
  exact absurd (howner.symm.trans hnone) nofun

/-- The other threads do not look at what the owner of the attempt works on. -/
theorem ProcessRely.of_owner {s s' : ProcessState ι} {u : ι}
    (howner : s.history.owner = some t) (hu : u ≠ t)
    (hinit : s'.initializing u = s.initializing u) {published : List ℕ} {registrations : ℕ}
    (hhistory : s'.history = { s.history with published, registrations }) :
    ProcessRely u s s' where
  initializing := hinit
  owner := by rw [hhistory]
  attempt ho := absurd (Option.some.inj (ho.symm.trans howner)) hu
  winner hw := by rw [hhistory]; exact hw

theorem ProcessGuar.of_owner {s s' : ProcessState ι} (h : ProcessInv pid s)
    (howner : s.history.owner = some t) {published : List ℕ} {registrations : ℕ}
    (hhistory : s'.history = { s.history with published, registrations }) : ProcessGuar s s' where
  ready hr := absurd ((h.ticket_eq howner).symm.trans hr) (by decide)
  attempts := by rw [hhistory]; exact List.Subset.refl _

/-- Recording what a call returned does not concern the attempts. -/
theorem Settled.of_record {s : ProcessState ι} {winner : Option ι} {inits requires : List ℤ}
    (h : Settled s) :
    Settled { s with history := { s.history with winner, inits, requires } } := by
  refine ⟨h.registered, h.outcome.imp id ?_⟩
  rintro ⟨hticket, hunpub⟩
  exact ⟨hticket, hunpub.published, hunpub.current, hunpub.failed⟩

/-- Thread `t` owns the attempt, and nothing has been published. -/
def Owning (t : ι) (s : ProcessState ι) : Prop :=
  s.history.owner = some t ∧ Unpublished s.history s.current ∧ RegisteredOnce s

/-- Thread `t` owns the attempt and has published its domain. -/
def Publishing (t : ι) (s : ProcessState ι) : Prop :=
  s.history.owner = some t ∧ Published s.history s.current ∧ RegisteredOnce s ∧
    ∀ e ∈ s.history.attempts, 0 < e

theorem owning_stable : (processLogic pid).Stable t (Owning t) := by
  rintro s s' hrely ⟨howner, hunpub, hreg⟩
  obtain ⟨hpub, hcur, hhan, hregs, hatt⟩ := hrely.2.attempt howner
  refine ⟨hrely.2.owner.mpr howner,
    ⟨hpub.trans hunpub.published, hcur.trans hunpub.current, ?_⟩, ?_⟩
  · rw [hatt]
    exact hunpub.failed
  · rw [RegisteredOnce, hregs, hhan]
    exact hreg

theorem publishing_stable : (processLogic pid).Stable t (Publishing t) := by
  rintro s s' hrely ⟨howner, hpub, hreg, hfailed⟩
  obtain ⟨hpubs, hcur, hhan, hregs, hatt⟩ := hrely.2.attempt howner
  refine ⟨hrely.2.owner.mpr howner, ?_, ?_, ?_⟩
  · rw [Published, hpubs, hcur]
    exact hpub
  · rw [RegisteredOnce, hregs, hhan]
    exact hreg
  · rw [hatt]
    exact hfailed

end Logic

section Attempt

variable [DecidableEq ι]

theorem triple_load {α : Type} {label : ProcessLabel} {field : ProcessState ι → α}
    {P : ProcessState ι → Prop} {Q : α → ProcessState ι → Prop}
    (hat : label = .starting → ∀ s, P s → s.history.owner = some t)
    (hstable : ∀ v, (processLogic pid).Stable t (Q v))
    (h : ∀ s, ProcessInv pid s → P s → Q (field s) s) :
    (processLogic pid).Triple t P (load label field) Q := by
  refine Logic.triple_atomic (fun s _ hP hl => hat hl s hP) hstable ?_
  intro s a b s' hs hP hact _
  obtain ⟨rfl, rfl⟩ := Prod.mk.inj (Option.some.inj hact)
  exact ⟨hs, (processLogic pid).guar_refl s, fun u _ => (processLogic pid).rely_refl u s, h s hs hP⟩

theorem triple_external {label : ProcessLabel} {P : ProcessState ι → Prop}
    (hat : label = .starting → ∀ s, P s → s.history.owner = some t)
    (hstable : (processLogic pid).Stable t P) :
    (processLogic pid).Triple t P (external label) fun _ => P := by
  refine Logic.triple_atomic (fun s _ hP hl => hat hl s hP) (fun _ => hstable) ?_
  intro s a b s' hs hP hact _
  obtain ⟨rfl, rfl⟩ := Prod.mk.inj (Option.some.inj hact)
  exact ⟨hs, (processLogic pid).guar_refl s, fun u _ => (processLogic pid).rely_refl u s, hP⟩

theorem triple_store {label : ProcessLabel} {set : ProcessState ι → ProcessState ι}
    {P Q : ProcessState ι → Prop}
    (hat : label = .starting → ∀ s, P s → s.history.owner = some t)
    (hstable : (processLogic pid).Stable t Q)
    (h : ∀ s, ProcessInv pid s → P s →
      ProcessInv pid (set s) ∧ ProcessGuar s (set s) ∧ (∀ u, u ≠ t → ProcessRely u s (set s)) ∧
        Q (set s)) :
    (processLogic pid).Triple t P (store label set) fun _ => Q := by
  refine Logic.triple_atomic (fun s _ hP hl => hat hl s hP) (fun _ => hstable) ?_
  intro s a b s' hs hP hact _
  obtain ⟨rfl, rfl⟩ := Prod.mk.inj (Option.some.inj hact)
  exact h s hs hP

theorem destroyObjects_triple (n : ℕ) :
    (processLogic pid).Triple t (Owning t) (destroyObjects n) fun _ => Owning t := by
  induction n with
  | zero => exact Logic.triple_pure fun _ _ hs => hs
  | succ n ih =>
    refine Logic.Triple.bind (triple_external (fun _ s hs => hs.1) owning_stable) fun reply => ?_
    exact Logic.triple_ite (fun _ => Logic.triple_pure fun _ _ hs => hs) fun _ => ih

theorem loggerRuntimeDiscard_triple (runtime : Option RuntimeCandidate) :
    (processLogic pid).Triple t (Owning t) (loggerRuntimeDiscard runtime) fun _ => Owning t := by
  cases runtime with
  | none => exact Logic.triple_pure fun _ _ hs => hs
  | some runtime =>
    refine Logic.Triple.bind (destroyObjects_triple _) fun rc => ?_
    refine Logic.Triple.bind (Q := fun _ => Owning t) ?_ fun rc => ?_
    · refine Logic.triple_ite (fun _ => ?_) fun _ => Logic.triple_pure fun _ _ hs => hs
      refine Logic.Triple.bind (triple_external (fun _ s hs => hs.1) owning_stable) fun _ => ?_
      exact Logic.triple_pure fun _ _ hs => hs
    · refine Logic.triple_ite (fun _ => ?_) fun _ => Logic.triple_pure fun _ _ hs => hs
      refine Logic.Triple.bind (triple_store (Q := Owning t) (fun _ s hs => hs.1) owning_stable ?_)
        fun _ => Logic.triple_pure fun _ _ hs => hs
      intro s hs hP
      refine ⟨hs.of_history hs.notChild rfl rfl rfl rfl, .of_history rfl rfl rfl, fun u _ => ?_, hP⟩
      exact ProcessRely.of_history rfl rfl rfl rfl

theorem initObjects_triple (left initialized : ℕ) :
    (processLogic pid).Triple t (Owning t) (initObjects left initialized)
      fun r s => 0 ≤ r.1 ∧ Owning t s := by
  induction left generalizing initialized with
  | zero => exact Logic.triple_pure fun _ _ hs => ⟨Int.le_refl 0, hs⟩
  | succ left ih =>
    refine Logic.Triple.bind (triple_external (fun _ s hs => hs.1) owning_stable) fun reply => ?_
    refine Logic.triple_ite (fun _ => Logic.triple_pure fun _ _ hs => ⟨?_, hs⟩) fun _ => ih _
    exact reply.error_nonneg

/-- A domain is returned exactly with the result `0`. -/
theorem loggerRuntimeCreate_triple :
    (processLogic pid).Triple t (Owning t) loggerRuntimeCreate
      fun r s => (r.1 < 0 ∨ r.1 = 0 ∧ r.2.isSome) ∧ Owning t s := by
  refine Logic.Triple.bind (Q := fun _ => Owning t)
    (triple_load (fun _ s hs => hs.1) (fun _ => owning_stable) fun _ _ hs => hs) fun retained => ?_
  refine Logic.triple_ite (fun _ => ?_) fun _ => ?_
  · exact Logic.triple_pure fun _ _ hs => ⟨.inl (by decide), hs⟩
  refine Logic.Triple.bind (triple_external (fun _ s hs => hs.1) owning_stable) fun map => ?_
  refine Logic.triple_ite (fun hmap => ?_) fun _ => ?_
  · have hpos := map.error_nonneg
    exact Logic.triple_pure fun _ _ hs => ⟨.inl (by simp only; omega), hs⟩
  refine Logic.Triple.bind (triple_external (fun _ s hs => hs.1) owning_stable) fun advice => ?_
  refine Logic.Triple.bind (Q := fun r s => 0 ≤ r.1 ∧ Owning t s) ?_ fun result => ?_
  · refine Logic.triple_ite (fun _ => ?_) fun _ => initObjects_triple 5 0
    exact Logic.triple_pure fun _ _ hs => ⟨advice.error_nonneg, hs⟩
  refine Logic.triple_ite (fun hresult => ?_) fun _ => ?_
  · -- a failing init call destroys what was initialised and reports the first error
    refine Logic.triple_fact (p := 0 ≤ result.1) (fun _ _ hs => hs.1) fun hpos => ?_
    refine Logic.Triple.bind ((loggerRuntimeDiscard_triple _).pre fun _ _ hs => hs.2) fun _ => ?_
    exact Logic.triple_pure fun _ _ hs => ⟨.inl (by simp only; omega), hs⟩
  · exact Logic.triple_pure fun _ _ hs => ⟨.inr ⟨rfl, rfl⟩, hs.2⟩

theorem registerHandlers_triple :
    (processLogic pid).Triple t (Owning t) registerHandlers
      fun error s => 0 ≤ error ∧ Owning t s := by
  refine Logic.Triple.bind (Q := fun registered s => Owning t s ∧ s.handlersRegistered = registered)
    (triple_load (fun _ s hs => hs.1) (fun registered s s' hrely hs => ?_) fun _ _ hs => ⟨hs, rfl⟩)
    fun registered => ?_
  · exact ⟨owning_stable s s' hrely hs.1, (hrely.2.attempt hs.1.1).2.2.1.trans hs.2⟩
  refine Logic.triple_ite (fun _ => ?_) fun hnot => ?_
  · exact Logic.triple_pure fun _ _ hs => ⟨Int.le_refl 0, hs.1⟩
  -- between the registration and its flag, only the owner knows that it succeeded
  refine Logic.Triple.bind (Q := fun error s => 0 ≤ error ∧ (error ≠ 0 → Owning t s) ∧
    (error = 0 → s.history.owner = some t ∧ Unpublished s.history s.current ∧
      s.history.registrations = 1)) ?_ fun error => ?_
  · refine Logic.triple_atomic (fun s _ hP _ => hP.1.1) (fun error s s' hrely hs => ?_) ?_
    · refine ⟨hs.1, fun he => owning_stable s s' hrely (hs.2.1 he), fun he => ?_⟩
      obtain ⟨howner, hunpub, hregs⟩ := hs.2.2 he
      obtain ⟨hpub, hcur, -, hregs', hatt⟩ := hrely.2.attempt howner
      refine ⟨hrely.2.owner.mpr howner,
        ⟨hpub.trans hunpub.published, hcur.trans hunpub.current, ?_⟩, hregs'.trans hregs⟩
      rw [hatt]
      exact hunpub.failed
    · rintro s reply error s' hs ⟨⟨howner, hunpub, hregs⟩, hflag⟩ hact -
      obtain ⟨rfl, rfl⟩ := Prod.mk.inj (Option.some.inj hact)
      by_cases hok : reply.error = 0
      · have hzero : s.history.registrations + 1 = 1 := by
          rw [RegisteredOnce, hflag, eq_false_of_ne_true hnot] at hregs
          rw [hregs]
          rfl
        rw [if_pos hok]
        refine ⟨hs.of_owner howner hs.notChild rfl rfl hs.published (Nat.le_of_eq hzero),
          .of_owner hs howner rfl, fun u hu => .of_owner howner hu rfl rfl, ?_⟩
        refine ⟨reply.error_nonneg, fun he => absurd hok he, fun _ => ⟨howner, ?_, hzero⟩⟩
        exact ⟨hunpub.published, hunpub.current, hunpub.failed⟩
      · rw [if_neg hok]
        refine ⟨hs, (processLogic pid).guar_refl s, fun u _ => (processLogic pid).rely_refl u s,
          reply.error_nonneg, ?_⟩
        exact ⟨fun _ => ⟨howner, hunpub, hregs⟩, fun he => absurd he hok⟩
  · refine Logic.triple_ite (fun hzero => ?_) fun hne => ?_
    · refine Logic.Triple.bind (triple_store (Q := Owning t) (fun _ s hs => (hs.2.2 hzero).1)
        owning_stable ?_) fun _ => Logic.triple_pure fun _ _ hs => ⟨Int.le_refl 0, hs⟩
      intro s hs hP
      obtain ⟨howner, hunpub, hregs⟩ := hP.2.2 hzero
      refine ⟨hs.of_owner howner hs.notChild rfl rfl hs.published hs.registrations,
        .of_owner hs howner rfl, fun u hu => ?_, ⟨howner, hunpub, hregs⟩⟩
      exact ProcessRely.of_owner howner hu rfl rfl
    · exact Logic.triple_pure fun _ _ hs => ⟨hs.1, hs.2.1 hne⟩

/-- A failed attempt has published nothing; a successful one has published its domain. -/
def Attempted (t : ι) (error : ℤ) (s : ProcessState ι) : Prop :=
  0 < error ∧ Owning t s ∨ error = 0 ∧ Publishing t s

theorem publish_triple {runtime : RuntimeCandidate} :
    (processLogic pid).Triple t (Owning t) (loggerRuntimePublish (some runtime))
      fun _ => Publishing t := by
  refine triple_store (fun _ s hs => hs.1) publishing_stable ?_
  rintro s hs ⟨howner, hunpub, hregs⟩
  have hlist : s.history.published ++ [runtime.address] = [runtime.address] := by
    rw [hunpub.published, List.nil_append]
  refine ⟨hs.of_owner howner hs.notChild rfl rfl (by simp [hunpub.published]) hs.registrations,
    .of_owner hs howner rfl, fun u hu => .of_owner howner hu rfl rfl, howner, ⟨_, hlist, rfl⟩,
    hregs, ?_⟩
  exact hunpub.failed

/-- Storing thread-local data or the process number does not concern the others. -/
theorem triple_store_private {label : ProcessLabel} {set : ProcessState ι → ProcessState ι}
    {P : ProcessState ι → Prop} {Q : ProcessState ι → Prop}
    (hat : label = .starting → ∀ s, P s → s.history.owner = some t)
    (hstable : (processLogic pid).Stable t Q)
    (hchild : ∀ s, ProcessInv pid s →
      (set s).forkedChild = false ∧ ((set s).ownerPid = 0 ∨ (set s).ownerPid = pid))
    (hinit : ∀ s u, u ≠ t → (set s).initializing u = s.initializing u)
    (hrest : ∀ s, (set s).processTicket = s.processTicket ∧ (set s).current = s.current ∧
      (set s).handlersRegistered = s.handlersRegistered ∧ (set s).history = s.history)
    (hQ : ∀ s, P s → Q (set s)) :
    (processLogic pid).Triple t P (store label set) fun _ => Q := by
  refine triple_store hat hstable fun s hs hP => ?_
  obtain ⟨hticket, hcurrent, hhandlers, hhistory⟩ := hrest s
  refine ⟨hs.of_history (hchild s hs) hticket hcurrent hhandlers hhistory,
    .of_history hticket hcurrent hhistory, fun u hu => ?_, hQ s hP⟩
  exact ProcessRely.of_history (hinit s u hu) hcurrent hhandlers hhistory

theorem runAttempt_triple :
    (processLogic pid).Triple t (Owning t) (runAttempt pid t false) fun error =>
    Attempted t error := by
  refine Logic.Triple.bind (Q := fun _ => Owning t) ?_ fun _ => ?_
  -- the thread's own flag, which no other thread reads
  · refine triple_store_private (fun _ s hs => hs.1) owning_stable (fun s hs => hs.notChild) ?_
      (fun _ => ⟨rfl, rfl, rfl, rfl⟩) fun s hs => hs
    exact fun s u hu => Function.update_of_ne hu _ _
  refine Logic.Triple.bind (Q := fun result s => result = 0 ∧ Owning t s) ?_ fun result => ?_
  · exact Logic.triple_ite (fun h => nomatch h) fun _ => Logic.triple_pure fun _ _ hs => ⟨rfl, hs⟩
  refine Logic.triple_fact (p := result = 0) (fun _ _ hs => hs.1) ?_
  -- a process that is no child has nothing to set up again
  rintro rfl
  refine Logic.Triple.bind
    (Q := fun r s => (r.1 < 0 ∨ r.1 = 0 ∧ r.2.isSome) ∧ Owning t s) ?_ fun created => ?_
  · exact Logic.triple_ite (fun _ => loggerRuntimeCreate_triple.pre fun _ _ hs => hs.2)
      fun h => absurd rfl h
  refine Logic.triple_fact (fun _ _ hs => hs.1) fun hcreated => ?_
  refine Logic.Triple.bind
    (Q := fun error s => (0 < error ∨ error = 0 ∧ created.2.isSome) ∧ Owning t s) ?_ fun error => ?_
  · refine Logic.triple_ite (fun hzero => ?_) fun hne => ?_
    · refine (registerHandlers_triple.conseq (fun _ _ hs => hs.2) ?_)
      -- an error of the handlers is positive, and with none the candidate is there
      rintro error s - ⟨hpos, hs⟩
      refine ⟨?_, hs⟩
      rcases hcreated with hneg | ⟨hok, hsome⟩
      · rw [if_pos hneg] at hzero
        omega
      · rcases Int.lt_or_eq_of_le hpos with hlt | heq
        · exact .inl hlt
        · exact .inr ⟨heq.symm, hsome⟩
    · refine Logic.triple_pure fun s _ hs => ⟨.inl ?_, hs.2⟩
      split_ifs at hne ⊢ with hneg
      · omega
      · exact absurd rfl hne
  refine Logic.triple_fact (fun _ _ hs => hs.1) fun herror => ?_
  refine Logic.triple_ite (fun hne => ?_) fun hzero => ?_
  -- the candidate is discarded before the ticket tells anyone
  · refine Logic.Triple.bind ((loggerRuntimeDiscard_triple _).pre fun _ _ hs => hs.2) fun _ => ?_
    refine Logic.triple_pure fun s _ hs => .inl ⟨?_, hs⟩
    rcases herror with hpos | ⟨heq, -⟩
    · exact hpos
    · exact absurd heq hne
  · obtain ⟨runtime, hruntime⟩ : ∃ runtime, created.2 = some runtime := by
      rcases herror with hpos | ⟨-, hsome⟩
      · omega
      · exact Option.isSome_iff_exists.mp hsome
    rw [hruntime]
    -- published first, then the words that a reader looks at before it
    refine Logic.Triple.bind (publish_triple.pre fun _ _ hs => hs.2) fun _ => ?_
    refine Logic.Triple.bind (Q := fun _ => Publishing t) ?_ fun _ => ?_
    · exact triple_store_private (fun _ s hs => hs.1) publishing_stable
        (fun s hs => ⟨hs.notChild.1, .inr rfl⟩) (fun _ _ _ => rfl) (fun _ => ⟨rfl, rfl, rfl, rfl⟩)
        fun s hs => hs
    refine Logic.Triple.bind (Q := fun _ => Publishing t) ?_ fun _ => ?_
    · exact triple_store_private (fun _ s hs => hs.1) publishing_stable
        (fun s hs => ⟨rfl, hs.notChild.2⟩) (fun _ _ _ => rfl) (fun _ => ⟨rfl, rfl, rfl, rfl⟩)
        fun s hs => hs
    exact Logic.triple_pure fun _ _ hs => .inr ⟨rfl, hs⟩

end Attempt

section Calls

/-- Between its calls a thread is not inside an attempt. -/
def Calm (t : ι) (s : ProcessState ι) : Prop := s.initializing t = false

theorem calm_stable : (processLogic pid).Stable t (Calm t) :=
  fun _ _ hrely hs => hrely.2.initializing.trans hs

/-- The reports of `logger_process_require` stay true. -/
theorem ReportOk.mono {s s' : ProcessState ι} {rc : ℤ} (h : ReportOk s rc)
    (hguar : ProcessGuar s s') : ReportOk s' rc := by
  rcases h with ⟨hzero, hready⟩ | hagain | hnodev | ⟨e, he, hpos, hrc⟩
  · exact .inl ⟨hzero, (hguar.ready hready).1⟩
  · exact .inr (.inl hagain)
  · exact .inr (.inr (.inl hnodev))
  · exact .inr (.inr (.inr ⟨e, hguar.attempts he, hpos, hrc⟩))

theorem finishAttempt_guar {s : ProcessState ι} (error ticket : ℤ) (winner : Option ι)
    (hs : ProcessInv pid s) (howner : s.history.owner = some t) :
    ProcessGuar s { s with
      processTicket := ticket
      history := { s.history with
        owner := none, winner, attempts := s.history.attempts ++ [error] } } where
  ready hr := absurd ((hs.ticket_eq howner).symm.trans hr) (by decide)
  attempts := List.subset_append_left _ _

variable [DecidableEq ι]

/-- A process that is not a fork child finds that it is none. -/
theorem isChild_triple {P : ProcessState ι → Prop} (hstable : (processLogic pid).Stable t P) :
    (processLogic pid).Triple t P (loggerProcessIsChild pid)
      fun child s => child = false ∧ P s := by
  refine Logic.Triple.bind (Q := fun forked s => forked = false ∧ P s)
    (triple_load nofun (fun _ s s' hrely hs => ⟨hs.1, hstable s s' hrely hs.2⟩) ?_) fun forked => ?_
  · exact fun s hs hP => ⟨hs.notChild.1, hP⟩
  refine Logic.triple_ite (fun hforked => ?_) fun _ => ?_
  · exact Logic.triple_false fun s _ hs => absurd (hforked.symm.trans hs.1) nofun
  refine Logic.Triple.bind (Q := fun owner s => (owner = 0 ∨ owner = pid) ∧ P s)
    (triple_load nofun (fun _ s s' hrely hs => ⟨hs.1, hstable s s' hrely hs.2⟩) ?_) fun owner => ?_
  · exact fun s hs hP => ⟨hs.notChild.2, hP.2⟩
  · refine Logic.triple_pure fun s _ hs => ⟨?_, hs.2⟩
    rcases hs.1 with rfl | rfl <;> simp

theorem claimProcess_triple {P : ProcessState ι → Prop} (hstable : (processLogic pid).Stable t P)
    (hP : ∀ s owner, P s → P { s with ownerPid := owner }) :
    (processLogic pid).Triple t P (claimProcess pid) fun rc s => rc = 0 ∧ P s := by
  refine Logic.Triple.bind (isChild_triple hstable) fun child => ?_
  refine Logic.triple_ite (fun hchild => ?_) fun _ => ?_
  · exact Logic.triple_false fun s _ hs => absurd (hchild.symm.trans hs.1) nofun
  refine Logic.Triple.bind (Q := fun owner s => (owner = 0 ∨ owner = pid) ∧ P s)
    (Logic.triple_atomic (fun _ _ _ => nofun) (fun _ s s' hrely hs => ?_) ?_) fun owner => ?_
  · exact ⟨hs.1, hstable s s' hrely hs.2⟩
  · intro s a b s' hs hPs hact _
    obtain ⟨rfl, rfl⟩ := Prod.mk.inj (Option.some.inj hact)
    refine ⟨hs.of_history ⟨hs.notChild.1, ?_⟩ rfl rfl rfl rfl, .of_history rfl rfl rfl,
      fun u _ => .of_history rfl rfl rfl rfl, hs.notChild.2, ?_⟩
    · show (if s.ownerPid = 0 then pid else s.ownerPid) = 0 ∨ _ = pid
      split
      · exact .inr rfl
      · exact hs.notChild.2
    · exact hP s _ hPs.2
  · refine Logic.triple_pure fun s _ hs => ⟨?_, hs.2⟩
    rcases hs.1 with rfl | rfl <;> simp

/-- Who moves the ticket to starting owns an attempt in which nothing has been published. -/
theorem startAttempt_triple {ticket : ℤ} (hready : ticket ≠ processReady)
    (hstarting : ticket ≠ processStarting) :
    (processLogic pid).Triple t (Calm t) (startAttempt t ticket)
      fun claim s => if claim.2 then Owning t s else Calm t s := by
  refine Logic.triple_atomic (fun _ _ _ => nofun) (fun claim s s' hrely hs => ?_) ?_
  · split_ifs at hs ⊢
    · exact owning_stable s s' hrely hs
    · exact calm_stable s s' hrely hs
  intro s a b s' hs hP hact _
  -- the swap succeeds only on the ticket that was read
  split_ifs at hact with hticket
  · obtain ⟨rfl, rfl⟩ := Prod.mk.inj (Option.some.inj hact)
    -- a ticket that is not starting has no owner, so this thread becomes the first
    have hnone : s.history.owner = none := by
      by_contra hsome
      exact hstarting (hticket ▸ hs.starting.mpr (Option.isSome_iff_ne_none.mpr hsome))
    obtain ⟨hreg, ⟨hbad, -⟩ | ⟨-, hunpub⟩⟩ := hs.settled hnone
    · exact absurd (hticket ▸ hbad) hready
    refine ⟨⟨hs.notChild, by simp, nofun, hs.registrations, hs.published, hs.succeeded,
      fun _ => hs.unfinished (hticket ▸ hready), hs.returned, fun rc hrc => ?_⟩,
      ⟨fun hr => absurd (hticket ▸ hr) hready, List.Subset.refl _⟩, fun u hu => ?_, ?_⟩
    · rcases hs.reports rc hrc with ⟨-, hbad⟩ | hrest
      · exact absurd (hticket ▸ hbad) hready
      · exact .inr hrest
    · refine ⟨rfl, ?_, fun ho => absurd (hnone.symm.trans ho) nofun, id⟩
      rw [hnone]
      exact ⟨fun h => absurd (Option.some.inj h).symm hu, nofun⟩
    · exact ⟨rfl, ⟨hunpub.published, hunpub.current, hunpub.failed⟩, hreg⟩
  -- the ticket moved: nothing has changed
  · obtain ⟨rfl, rfl⟩ := Prod.mk.inj (Option.some.inj hact)
    exact ⟨hs, (processLogic pid).guar_refl s, fun u _ => (processLogic pid).rely_refl u s, hP⟩

/-- The owner of an attempt leaves its outcome as the ticket. -/
theorem finishAttempt_triple {error : ℤ} :
    (processLogic pid).Triple t (Attempted t error) (finishAttempt t error)
      fun _ s => error = 0 → s.history.winner = some t := by
  refine triple_store ?_ (fun s s' hrely hs hzero => hrely.2.winner (hs hzero)) ?_
  · rintro - s (⟨-, hs⟩ | ⟨-, hs⟩) <;> exact hs.1
  rintro s hs (⟨hpos, howner, hunpub, hregs⟩ | ⟨rfl, howner, hpub, hregs, hfailed⟩)
  · -- the attempt failed: its positive error becomes the ticket
    have hne : error ≠ 0 := by omega
    have hguar := finishAttempt_guar error error s.history.winner hs howner
    have hcount : (s.history.attempts ++ [error]).count 0 = s.history.attempts.count 0 := by
      simp [List.count_append, hne]
    have hstarting : s.processTicket ≠ processReady := by
      rw [hs.ticket_eq howner]
      decide
    simp only [if_pos hne]
    refine ⟨⟨hs.notChild, ?_,
      fun _ => ⟨hregs, .inr ⟨by simp, hunpub.published, hunpub.current, ?_⟩⟩,
      hs.registrations, hs.published, ?_, ?_, ?_,
      fun rc hrc => (hs.reports rc hrc).mono hguar⟩, hguar,
      fun u hu => ⟨rfl, ?_, fun ho => absurd (Option.some.inj (ho.symm.trans howner)) hu, id⟩,
      fun hzero => absurd hzero hne⟩
    · simp only [processStarting, Option.isSome_none, Bool.false_eq_true, iff_false]
      omega
    · intro e he
      rcases List.mem_append.mp he with he | he
      · exact hunpub.failed e he
      · rwa [List.mem_singleton.mp he]
    · rw [hcount]
      exact hs.succeeded
    · intro _
      rw [hcount]
      exact hs.unfinished hstarting
    · simp only [hcount]
      exact hs.returned
    · rw [howner]
      exact ⟨nofun, fun h => absurd (Option.some.inj h).symm hu⟩
  · -- the attempt succeeded: the ticket becomes ready after the domain
    have hguar := finishAttempt_guar 0 processReady (some t) hs howner
    have hnone : s.history.attempts.count 0 = 0 := by
      rw [List.count_eq_zero]
      intro hmem
      exact absurd (hfailed 0 hmem) (by omega)
    have hcount : (s.history.attempts ++ [0]).count 0 = 1 := by
      simp [List.count_append, hnone]
    have hret := hs.returned
    rw [hnone] at hret
    have hwinner : s.history.winner = none := by
      cases hw : s.history.winner with
      | none => rfl
      | some u => simp [hw] at hret
    simp only [ne_eq, not_true_eq_false, if_false]
    refine ⟨⟨hs.notChild, ?_, fun _ => ⟨hregs, .inl ⟨rfl, hpub, by simp⟩⟩, hs.registrations,
      hs.published, Nat.le_of_eq hcount, fun h => absurd rfl h, ?_,
      fun rc hrc => (hs.reports rc hrc).mono hguar⟩, hguar,
      fun u hu => ⟨rfl, ?_, fun ho => absurd (Option.some.inj (ho.symm.trans howner)) hu, ?_⟩,
      fun _ => trivial⟩
    · simp [processReady, processStarting]
    · simp only [hcount, Option.toList_some, List.length_singleton]
      omega
    · rw [howner]
      exact ⟨nofun, fun h => absurd (Option.some.inj h).symm hu⟩
    · rw [hwinner]
      exact nofun

/-- A call of `logger_process_init` returns `0` only to the thread whose attempt succeeded. -/
theorem initializeProcess_triple :
    (processLogic pid).Triple t (Calm t) (initializeProcess pid t)
      fun rc s => (rc = 0 → s.history.winner = some t) ∧ Calm t s := by
  -- a call that reports an error promises nothing
  have hpure : ∀ rc : ℤ, rc ≠ 0 → (processLogic pid).Triple t (Calm t) (pure rc)
      fun rc s => (rc = 0 → s.history.winner = some t) ∧ Calm t s :=
    fun rc hrc => Logic.triple_pure fun _ _ hs => ⟨fun h => absurd h hrc, hs⟩
  refine Logic.Triple.bind (isChild_triple calm_stable) fun child => ?_
  -- no thread of this run is in a child, so the branches for one are closed
  refine Logic.triple_fact (p := child = false) (fun _ _ hs => hs.1) ?_
  rintro rfl
  refine Logic.Triple.bind (Q := fun refused s => refused = false ∧ Calm t s) ?_ fun refused => ?_
  · exact Logic.triple_ite (fun h => nomatch h) fun _ => Logic.triple_pure fun _ _ hs => ⟨rfl, hs.2⟩
  refine Logic.triple_fact (p := refused = false) (fun _ _ hs => hs.1) ?_
  rintro rfl
  refine Logic.triple_ite (fun h => nomatch h) fun _ => ?_
  refine Logic.Triple.bind (Q := fun rc s => rc = 0 ∧ Calm t s) ?_ fun rc => ?_
  · refine Logic.triple_ite (fun h => nomatch h) fun _ => ?_
    exact (claimProcess_triple calm_stable fun _ _ hs => hs).pre fun _ _ hs => hs.2
  refine Logic.triple_ite (fun hrc => ?_) fun _ => ?_
  · exact Logic.triple_false fun _ _ hs => hrc hs.1
  refine Logic.Triple.bind (Q := fun _ => Calm t)
    (triple_load nofun (fun _ => calm_stable) fun _ _ hs => hs.2) fun initializing => ?_
  refine Logic.triple_ite (fun _ => hpure _ (by decide)) fun _ => ?_
  refine Logic.Triple.bind (Q := fun _ => Calm t)
    (triple_load nofun (fun _ => calm_stable) fun _ _ hs => hs) fun ticket => ?_
  refine Logic.triple_ite (fun _ => hpure _ (by decide)) fun hready => ?_
  refine Logic.triple_ite (fun _ => hpure _ (by decide)) fun hstarting => ?_
  refine Logic.Triple.bind (triple_external nofun calm_stable) fun cancel => ?_
  refine Logic.triple_ite (fun hcancel => hpure _ (by omega)) fun _ => ?_
  -- the checks above leave a ticket that may be claimed
  have hticket : ticket ≠ processReady := fun h => hready ⟨Bool.false_ne_true, h⟩
  refine Logic.Triple.bind (startAttempt_triple hticket hstarting) fun claim => ?_
  refine Logic.Triple.bind
    (Q := fun rc s => (rc = 0 → s.history.winner = some t) ∧ Calm t s) ?_ fun rc => ?_
  · refine Logic.triple_ite (fun hclaim => ?_) fun hclaim => ?_
    -- the ticket is ours: the attempt runs to its end
    · simp only [hclaim, if_true]
      refine Logic.Triple.bind runAttempt_triple fun error => ?_
      refine Logic.Triple.bind finishAttempt_triple fun _ => ?_
      refine Logic.Triple.bind
        (Q := fun _ s => (error = 0 → s.history.winner = some t) ∧ Calm t s) ?_ fun _ => ?_
      · refine triple_store_private nofun (fun s s' hrely hs => ?_) (fun s hs => hs.notChild) ?_
          (fun _ => ⟨rfl, rfl, rfl, rfl⟩) fun s hs => ⟨hs, Function.update_self _ _ _⟩
        · exact ⟨fun he => hrely.2.winner (hs.1 he), calm_stable s s' hrely hs.2⟩
        · exact fun s u hu => Function.update_of_ne hu _ _
      -- the attempt's error is what the call reports
      · exact Logic.triple_pure fun s _ hs => ⟨fun he => hs.1 (by omega), hs.2⟩
    · have hfalse := eq_false_of_ne_true hclaim
      simp only [hfalse, Bool.false_eq_true, if_false]
      refine hpure _ ?_
      split <;> decide
  · refine Logic.Triple.bind (triple_external nofun fun s s' hrely hs => ?_) fun restore => ?_
    · exact ⟨fun he => hrely.2.winner (hs.1 he), calm_stable s s' hrely hs.2⟩
    -- restoring the cancel state can only turn success into an error
    · refine Logic.triple_pure fun s _ hs => ⟨fun hzero => hs.1 ?_, hs.2⟩
      by_contra hrc
      rw [if_pos hrc] at hzero
      exact hrc hzero

theorem mem_of_ticket {attempts : List ℤ} {ticket : ℤ}
    (hticket : ticket = attempts.getLast?.getD processIdle) (hpos : 0 < ticket) :
    ticket ∈ attempts := by
  cases hlast : attempts.getLast? with
  | none =>
    rw [hlast] at hticket
    exact absurd hpos (hticket ▸ by decide)
  | some e =>
    rw [hlast] at hticket
    exact hticket ▸ List.mem_of_getLast? hlast

/-- `logger_process_require` reports the ticket it read. -/
theorem loggerProcessRequire_triple :
    (processLogic pid).Triple t (Calm t) (loggerProcessRequire pid t)
      fun rc s => ReportOk s rc ∧ Calm t s := by
  refine Logic.Triple.bind (isChild_triple calm_stable) fun child => ?_
  refine Logic.triple_ite (fun hchild => ?_) fun _ => ?_
  · exact Logic.triple_false fun s _ hs => absurd (hchild.symm.trans hs.1) nofun
  refine Logic.Triple.bind (Q := fun initializing s => initializing = false ∧ Calm t s)
    -- the flag is the thread's own and was down when the call began
    (triple_load nofun (fun _ s s' hrely hs => ⟨hs.1, calm_stable s s' hrely hs.2⟩) ?_)
    fun initializing => ?_
  · exact fun s _ hs => ⟨hs.2, hs.2⟩
  refine Logic.triple_ite (fun hinit => ?_) fun _ => ?_
  · exact Logic.triple_false fun s _ hs => absurd (hinit.symm.trans hs.1) nofun
  refine Logic.Triple.bind (triple_load (Q := fun ticket s => ReportOk s (if ticket = processReady
      then 0 else if ticket = processStarting then -eagain
      else if 0 < ticket then -ticket else -enodev) ∧ Calm t s) nofun ?_ ?_) fun ticket => ?_
  · exact fun _ s s' hrely hs => ⟨hs.1.mono hrely.1, calm_stable s s' hrely hs.2⟩
  · refine fun s hs hP => ⟨?_, hP.2⟩
    split_ifs with hready hstarting hpos
    · exact .inl ⟨rfl, hready⟩
    · exact .inr (.inl rfl)
    · -- a positive ticket is the error of the last attempt
      have hnone : s.history.owner = none := by
        by_contra hsome
        exact hstarting (hs.starting.mpr (Option.isSome_iff_ne_none.mpr hsome))
      obtain ⟨-, ⟨hbad, -⟩ | ⟨hticket, -⟩⟩ := hs.settled hnone
      · exact absurd hbad hready
      · exact .inr (.inr (.inr ⟨_, mem_of_ticket hticket hpos, hpos, rfl⟩))
    · exact .inr (.inr (.inl rfl))
  · exact Logic.triple_pure fun _ _ hs => hs

/-- Every call is verified, and leaves the thread outside an attempt. -/
theorem process_serves :
    (processLogic pid).Serves Calm (fun _ => True) (processApi (ι := ι) pid) := by
  rintro t (_ | _) -
  · refine Logic.Triple.bind initializeProcess_triple fun rc => ?_
    refine triple_store nofun calm_stable fun s hs hP => ?_
    refine ⟨⟨hs.notChild, hs.starting, fun hnone => (hs.settled hnone).of_record, hs.registrations,
      hs.published, hs.succeeded, hs.unfinished, ?_, hs.reports⟩,
      ⟨fun h => ⟨h, rfl⟩, List.Subset.refl _⟩,
      fun u hu => ⟨rfl, Iff.rfl, fun _ => ⟨rfl, rfl, rfl, rfl, rfl⟩, fun hw => ?_⟩, hP.2⟩
    · refine Nat.le_trans ?_ hs.returned
      simp only [List.count_append]
      by_cases hrc : rc = 0
      · simp [hrc, hP.1 hrc]
      · have hzero : [rc].count 0 = 0 := List.count_eq_zero.mpr (by simpa using Ne.symm hrc)
        split <;> simp [hzero]
    · show (if s.history.winner = some t then none else s.history.winner) = some u
      rw [hw, if_neg (by simpa using hu)]
  · refine Logic.Triple.bind loggerProcessRequire_triple fun rc => ?_
    refine triple_store nofun calm_stable fun s hs hP => ?_
    refine ⟨⟨hs.notChild, hs.starting, fun hnone => (hs.settled hnone).of_record, hs.registrations,
      hs.published, hs.succeeded, hs.unfinished, hs.returned, fun r hr => ?_⟩,
      ⟨fun h => ⟨h, rfl⟩, List.Subset.refl _⟩,
      fun u _ => ⟨rfl, Iff.rfl, fun _ => ⟨rfl, rfl, rfl, rfl, rfl⟩, id⟩, hP.2⟩
    rcases List.mem_append.mp hr with hr | hr
    · exact hs.reports r hr
    · rw [List.mem_singleton.mp hr]
      exact hP.1

theorem process_starts : (processLogic pid).Starts Calm (processStart (ι := ι)) := by
  refine ⟨⟨⟨rfl, .inl rfl⟩, by simp [processStart, processIdle, processStarting], fun _ => ?_,
    Nat.zero_le _, Nat.zero_le _, Nat.zero_le _, fun _ => rfl, Nat.le_refl 0, nofun⟩, fun t => ?_⟩
  · exact ⟨rfl, .inr ⟨rfl, rfl, rfl, nofun⟩⟩
  · exact ⟨Calm t, calm_stable, rfl, Logic.triple_pure fun _ _ hs => hs⟩

end Calls

section Main

variable [DecidableEq ι]

/-- The runs of threads that call `logger_process_init` and `logger_process_require`. -/
def ProcessRun (pid : ℤ) (S S' : System (ProcessState ι) ProcessReply ProcessLabel ι) : Prop :=
  TransitionSystem.Reachable (sysNext (processApi pid)) TransitionSystem.anyStep S S'

/-- The runs in which only thread `t` moves. -/
def ProcessRunOf (pid : ℤ) (t : ι) (S S' : System (ProcessState ι) ProcessReply ProcessLabel ι) :
    Prop :=
  TransitionSystem.Reachable (sysNext (processApi pid)) (movesOf t) S S'

/-- A call of `logger_process_require` that is not disturbed reports a positive ticket. -/
theorem require_solo {s : ProcessState ι} (hs : ProcessInv pid s) (hcalm : Calm t s)
    (hpos : 0 < s.processTicket) :
    (processApi pid t .require).solo (List.replicate 5 {}) s = some ({ s with history :=
      { s.history with requires := s.history.requires ++ [-s.processTicket] } }, .ret ()) := by
  have howner : ¬ (s.ownerPid ≠ 0 ∧ s.ownerPid ≠ pid) := by
    rcases hs.notChild.2 with h | h <;> simp [h]
  have hready : s.processTicket ≠ processReady := by
    intro h
    rw [h] at hpos
    exact absurd hpos (by decide)
  have hstarting : s.processTicket ≠ processStarting := by
    intro h
    rw [h] at hpos
    exact absurd hpos (by decide)
  rw [Calm] at hcalm
  simp [List.replicate, processApi, loggerProcessRequire, loggerProcessIsChild, load, store,
    Code.solo_atomic, Code.solo_last, Code.bind_assoc, Code.pure_bind, hs.notChild.1, howner,
    hcalm, hready, hstarting, hpos]

/-- A call of `logger_process_init` that is not disturbed enters the section of an attempt, unless
the ticket is ready or starting. -/
theorem init_solo {s : ProcessState ι} (hs : ProcessInv pid s) (hcalm : Calm t s)
    (hpos : 0 ≤ s.processTicket) :
    ∃ s' c', (processApi pid t .init).solo (List.replicate 9 {}) s = some (s', c') ∧
      c'.label = some .starting := by
  have hready : s.processTicket ≠ processReady := by
    intro h
    rw [h] at hpos
    exact absurd hpos (by decide)
  have hstarting : s.processTicket ≠ processStarting := by
    intro h
    rw [h] at hpos
    exact absurd hpos (by decide)
  rw [Calm] at hcalm
  rcases hs.notChild.2 with howner | howner <;>
  · simp [List.replicate, processApi, initializeProcess, claimProcess, startAttempt,
      loggerProcessIsChild, load, store, external, ProcessReply.error, Code.solo_atomic,
      Code.solo_nil, Code.label_atomic, Code.bind_assoc, Code.pure_bind, runAttempt,
      hs.notChild.1, howner, hcalm, hready, hstarting]

/-- What process initialisation guarantees in a state of a run. -/
structure ProcessInitOnce (pid : ℤ) (S : System (ProcessState ι) ProcessReply ProcessLabel ι) :
    Prop where
  /-- At most one call of `logger_process_init` has returned `0`. -/
  oneSuccess : S.shared.history.inits.count 0 ≤ 1
  /-- At most one thread is in the section of an attempt. -/
  oneOwner : ∀ t u, (S.code t).label = some .starting → (S.code u).label = some .starting → t = u
  /-- `pthread_atfork` has succeeded at most once. -/
  oneRegistration : S.shared.history.registrations ≤ 1
  /-- A domain has been published at most once. -/
  onePublication : S.shared.history.published.length ≤ 1
  /-- When the ticket is ready, the domain is published and current. -/
  publishedFirst : S.shared.processTicket = processReady →
    ∃ d, S.shared.history.published = [d] ∧ S.shared.current = some d
  /-- When `logger_process_require` has returned `0`, the ticket is ready. -/
  requireReady : 0 ∈ S.shared.history.requires → S.shared.processTicket = processReady
  /-- Every other answer of `logger_process_require` is a phase or the error of an attempt. -/
  requireReports : ∀ rc ∈ S.shared.history.requires, ReportOk S.shared rc
  /-- Ready is never left, and the domain stays the current one. -/
  readyFinal : S.shared.processTicket = processReady →
    ∀ m S', sysNext (processApi pid) S m = some S' →
      S'.shared.processTicket = processReady ∧ S'.shared.current = S.shared.current
  /-- Outside an attempt the ticket is the outcome of the last one; a failed one left its positive
  error, and neither it nor an earlier one has published a domain. -/
  outcome : S.shared.processTicket ≠ processStarting →
    ∀ error ∈ S.shared.history.attempts.getLast?,
      error = 0 ∧ S.shared.processTicket = processReady ∨
      0 < error ∧ S.shared.processTicket = error ∧ S.shared.history.published = [] ∧
        S.shared.current = none
  /-- A thread that calls `logger_process_require` undisturbed gets the error of the failed
  attempt. -/
  failureReported : 0 < S.shared.processTicket → ∀ t, (S.code t).label = none →
    ∃ S', ProcessRunOf pid t S S' ∧ S'.shared.history.requires =
      S.shared.history.requires ++ [-S.shared.processTicket]
  /-- As long as no attempt succeeded or is under way, a call can start one. -/
  retry : 0 ≤ S.shared.processTicket → ∀ t, (S.code t).label = none →
    ∃ S', ProcessRunOf pid t S S' ∧ (S'.code t).label = some .starting

theorem process_sound {S : System (ProcessState ι) ProcessReply ProcessLabel ι}
    (h : ProcessRun pid processStart S) :
    ProcessInv pid S.shared ∧
      (∀ t label, (S.code t).label = some label → label = .starting →
        S.shared.history.owner = some t) ∧
      (∀ t, (S.code t).label = none → Calm t S.shared) ∧
      ∀ m S', sysNext (processApi pid) S m = some S' → ProcessGuar S.shared S'.shared := by
  have hrun : TransitionSystem.Reachable (sysNext (processApi pid))
      (stepOk (fun _ => True) (processLogic pid).ok) processStart S := by
    refine h.mono ?_
    rintro s (⟨u, c⟩ | ⟨u, a⟩) s' - <;> trivial
  obtain ⟨hinv, hat, hidle⟩ := Logic.sound process_starts process_serves hrun
  refine ⟨hinv, hat, hidle, fun m S' hnext => ?_⟩
  refine Logic.sound_guar process_starts process_serves hrun hnext ?_
  cases m <;> trivial

/-- A thread without a program makes a call and runs alone. -/
theorem processRunOf_call {S : System (ProcessState ι) ProcessReply ProcessLabel ι}
    {c : ProcessCall} {replies : List ProcessReply} {s' : ProcessState ι}
    {code : ProcessCode ι Unit} (hidle : (S.code t).label = none)
    (h : (processApi pid t c).solo replies S.shared = some (s', code)) :
    ProcessRunOf pid t S { shared := s', code := Function.update S.code t code } := by
  have hcall : sysNext (processApi pid) S (.call t c) =
      some { S with code := Function.update S.code t (processApi pid t c) } := by
    cases hcode : S.code t with
    | ret a => simp [sysNext, hcode]
    | op label act k => exact absurd (hcode ▸ hidle) (by rintro ⟨⟩)
    | loop label body b k => exact absurd (hcode ▸ hidle) (by rintro ⟨⟩)
  have hrun : ProcessRunOf pid t { S with code := Function.update S.code t (processApi pid t c) }
      { shared := s'
        code := Function.update (Function.update S.code t (processApi pid t c)) t code } :=
    reachable_of_solo (Function.update_self _ _ _) h
  rw [Function.update_idem] at hrun
  exact Relation.ReflTransGen.head ⟨.call t c, hcall, rfl⟩ hrun

/-- Process initialisation is one-shot and all-or-nothing, for every interleaving of any number of
threads and any failures of the calls they make. -/
theorem process_init_once {S : System (ProcessState ι) ProcessReply ProcessLabel ι}
    (h : ProcessRun pid processStart S) : ProcessInitOnce pid S := by
  obtain ⟨hinv, hat, hidle, hguar⟩ := process_sound h
  -- a ticket that is not starting belongs to a domain that has settled
  have hsettled : S.shared.processTicket ≠ processStarting → Settled S.shared := by
    intro hne
    refine hinv.settled ?_
    by_contra hsome
    exact hne (hinv.starting.mpr (Option.isSome_iff_ne_none.mpr hsome))
  refine ⟨?_, ?_, hinv.registrations, hinv.published, ?_, ?_, hinv.reports, ?_, ?_, ?_, ?_⟩
  -- each successful call has an attempt of its own, and there is at most one
  · exact Nat.le_trans (Nat.le_trans (Nat.le_add_right _ _) hinv.returned) hinv.succeeded
  -- two threads in the section would both own the ticket
  · intro t u ht hu
    exact Option.some.inj ((hat t _ ht rfl).symm.trans (hat u _ hu rfl))
  · intro hready
    obtain ⟨-, ⟨-, hpub, -⟩ | ⟨hticket, hunpub⟩⟩ := hsettled (by rw [hready]; decide)
    · exact hpub
    · -- an unpublished state has only positive errors behind it, so its ticket is not ready
      cases hlast : S.shared.history.attempts.getLast? with
      | none => exact absurd (hready.symm.trans (hlast ▸ hticket)) (by decide)
      | some e =>
        have hpos := hunpub.failed e (List.mem_of_getLast? hlast)
        rw [hlast] at hticket
        have heq : processReady = e := hready.symm.trans hticket
        exact absurd (heq ▸ hpos) (by decide)
  · intro hzero
    rcases hinv.reports 0 hzero with ⟨-, hready⟩ | hagain | hnodev | ⟨e, -, hpos, he⟩
    · exact hready
    · exact absurd hagain (by decide)
    · exact absurd hnodev (by decide)
    · omega
  · intro hready m S' hnext
    exact (hguar m S' hnext).ready hready
  · intro hne error herror
    obtain ⟨-, ⟨hready, -, hlast⟩ | ⟨hticket, hunpub⟩⟩ := hsettled hne
    · exact .inl ⟨(Option.some.inj (hlast.symm.trans herror)).symm, hready⟩
    -- the last attempt failed, so its error is the ticket
    · refine .inr ⟨hunpub.failed error (List.mem_of_getLast? herror), ?_, hunpub.published,
        hunpub.current⟩
      rw [hticket, Option.mem_def.mp herror]
      rfl
  · intro hpos t ht
    exact ⟨_, processRunOf_call ht (require_solo hinv (hidle t ht) hpos), rfl⟩
  · intro hpos t ht
    obtain ⟨s', code, hsolo, hlabel⟩ := init_solo (t := t) hinv (hidle t ht) hpos
    refine ⟨_, processRunOf_call ht hsolo, ?_⟩
    show (Function.update S.code t code t).label = some .starting
    rwa [Function.update_self]

/-- The replies to a first call whose mapping fails. -/
def processReplies : List ProcessReply :=
  List.replicate 11 ({} : ProcessReply) ++ { ok := false } :: List.replicate 4 ({} : ProcessReply)

/-- The state after the first call. -/
def processFailed : ProcessState Bool :=
  { ownerPid := 7, processTicket := enomem
    initializing := Function.update (Function.update (fun _ => false) false true) false false
    history := { attempts := [enomem], inits := [-enomem] } }

/-- The state after a second call, by another thread, that succeeds. -/
def processTwice : ProcessState Bool :=
  { ownerPid := 7, processTicket := processReady, handlersRegistered := true, current := some 0
    initializing :=
    Function.update (Function.update processFailed.initializing true true) true false
    history := { attempts := [enomem, 0], published := [0], registrations := 1,
                 inits := [-enomem, 0] } }

theorem processReplies_solo :
    (processApi 7 false .init).solo processReplies (processStart (ι := Bool)).shared =
      some (processFailed, .ret ()) := rfl

theorem processFailed_solo :
    (processApi 7 true .init).solo (List.replicate 28 {}) processFailed =
      some (processTwice, .ret ()) := rfl

theorem process_init_once_twice :
    ∃ S, ProcessRun 7 (processStart (ι := Bool)) S ∧ S.shared = processTwice ∧
      ProcessInitOnce 7 S := by
  have hfirst : ProcessRunOf 7 false processStart _ := processRunOf_call rfl processReplies_solo
  have hsecond : ProcessRunOf 7 true { shared := processFailed, code := _ } _ :=
    processRunOf_call (S := ⟨processFailed, Function.update processStart.code false (.ret ())⟩)
      rfl processFailed_solo
  have hrun : ProcessRun 7 processStart _ :=
    (hfirst.mono fun _ _ _ _ => trivial).trans (hsecond.mono fun _ _ _ _ => trivial)
  exact ⟨_, hrun, rfl, process_init_once hrun⟩

end Main

end CLogger
