import CLogger.Instance.Ring

/-!
# No lost wake-up

The worker goes to sleep on `wait_cv` only after it has set `consumer_waiting` and found, under
`wait_mu`, an empty queue and `running` set. A producer looks at `consumer_waiting` after its
publication, without the lock, and takes the lock only if the word is set.

The proof is by rely and guarantee. A thread is engaged from its publication, or its store of zero
to `running`, until its signal. While the worker sleeps without a signal, either `consumer_waiting`
is still set or a thread has claimed the signal, and a published head means that a thread is
engaged.

* `WakeInv`, `WakeRely`, `wakeLogic`.
* `no_lost_wakeup`.
-/

namespace CLogger.Instance

open Concurrent TransitionSystem

variable {g : QueueGeometry} {cfg : InstConfig} {s s' : Inst} {t u : InstThread}

/-- The slot at `dequeue_pos` is published. -/
def HeadPublished (g : QueueGeometry) (s : Inst) : Prop :=
  publishedAt g s.ring.q s.ring.q.dequeuePos = true

/-- A thread is on its way to a signal. -/
def Engaged (s : Inst) : Prop := ∃ t, s.history.place t ≠ .away

/-- What holds of the wake-up protocol in every state. -/
structure WakeInv (g : QueueGeometry) (s : Inst) : Prop where
  worker : s.history.place .worker = .away
  /-- A thread signals under `wait_mu`. -/
  claimed : ∀ t, s.history.place t = .claimed → s.owner .wait = some t
  /-- The next signal for a sleeping worker is not lost. -/
  waiting : s.waiter = some false →
    s.consumerWaiting = true ∨ ∃ t, s.history.place t = .claimed
  published : s.waiter = some false → HeadPublished g s → Engaged s
  stopped : s.waiter = some false → s.running = false → Engaged s
  /-- No lock operation has failed. -/
  waitMuError : s.waitMuError = 0
  synchronizationError : s.synchronizationError = 0

/-- What the other threads do while thread `t` runs. -/
structure WakeRely (g : QueueGeometry) (t : InstThread) (s s' : Inst) : Prop where
  place : s'.history.place t = s.history.place t
  owner : s'.owner .wait = some t ↔ s.owner .wait = some t
  armed : s.owner .wait = some t → s'.consumerWaiting = s.consumerWaiting
  asleep : s.owner .wait = some t → s'.waiter = some false → s.waiter = some false
  awake : t = .worker → s.waiter = none → s'.waiter = none
  dequeuePos : t = .worker → s'.ring.q.dequeuePos = s.ring.q.dequeuePos
  /-- Under an armed worker only engaged threads publish the head or stop the instance. -/
  published : t = .worker → s.owner .wait = some .worker → s.consumerWaiting = true →
    (HeadPublished g s → Engaged s) → HeadPublished g s' → Engaged s'
  stopped : t = .worker → s.owner .wait = some .worker → s.consumerWaiting = true →
    (s.running = false → Engaged s) → s'.running = false → Engaged s'

theorem WakeRely.refl : WakeRely g t s s where
  place := rfl
  owner := Iff.rfl
  armed _ := rfl
  asleep _ := id
  awake _ := id
  dequeuePos _ := rfl
  published _ _ _ := id
  stopped _ _ _ := id

theorem WakeRely.trans {s'' : Inst} (h : WakeRely g t s s') (h' : WakeRely g t s' s'') :
    WakeRely g t s s'' where
  place := h'.place.trans h.place
  owner := h'.owner.trans h.owner
  armed ho := (h'.armed (h.owner.mpr ho)).trans (h.armed ho)
  asleep ho hw := h.asleep ho (h'.asleep (h.owner.mpr ho) hw)
  awake ht hw := h'.awake ht (h.awake ht hw)
  dequeuePos ht := (h'.dequeuePos ht).trans (h.dequeuePos ht)
  published := by
    rintro rfl ho hc hhead
    exact h'.published rfl (h.owner.mpr ho) ((h.armed ho).trans hc) (h.published rfl ho hc hhead)
  stopped := by
    rintro rfl ho hc hrunning
    exact h'.stopped rfl (h.owner.mpr ho) ((h.armed ho).trans hc) (h.stopped rfl ho hc hrunning)

/-- Every pthread call succeeds. -/
def Flawless (a : InstReply) : Prop := a.pthread = 0 ∧ a.signal = 0 ∧ a.wait = 0

/-- The rely-guarantee setting of the wake-up protocol. -/
def wakeLogic (g : QueueGeometry) : Logic Inst InstReply InstLabel InstThread where
  Inv := WakeInv g
  Guar _ _ := True
  guar_refl _ := trivial
  guar_trans _ _ := trivial
  Rely := WakeRely g
  rely_refl _ _ := .refl
  rely_trans := .trans
  At t label s := s.history.place t ≠ .away → label = .notify ∨ label = .stop
  ok _ _ a _ := Flawless a

/-- A step of thread `t` keeps the invariant, and does what the others rely on. -/
def Acts (g : QueueGeometry) (t : InstThread) (s s' : Inst) : Prop :=
  WakeInv g s' ∧ ∀ u, u ≠ t → WakeRely g u s s'

/-- The part of an instance that the protocol is about is the same in two states. -/
structure SameWake (s s' : Inst) : Prop where
  ring : s'.ring = s.ring
  consumerWaiting : s'.consumerWaiting = s.consumerWaiting
  waiter : s'.waiter = s.waiter
  owner : s'.owner .wait = s.owner .wait
  running : s'.running = s.running
  place : s'.history.place = s.history.place
  waitMuError : s'.waitMuError = s.waitMuError
  synchronizationError : s'.synchronizationError = s.synchronizationError

theorem SameWake.of_control (h : s'.control = s.control) : SameWake s s' where
  ring := congrArg (fun c => c.progress.ring) h
  consumerWaiting := congrArg Control.consumerWaiting h
  waiter := congrArg Control.waiter h
  owner := congrArg Control.waitOwner h
  running := congrArg (fun c => c.progress.running) h
  place := congrArg Control.place h
  waitMuError := congrArg (fun c => c.progress.waitMuError) h
  synchronizationError := congrArg (fun c => c.progress.synchronizationError) h

theorem SameWake.head (h : SameWake s s') : HeadPublished g s' ↔ HeadPublished g s := by
  rw [HeadPublished, HeadPublished, h.ring]

theorem SameWake.engaged (h : SameWake s s') : Engaged s' ↔ Engaged s := by
  rw [Engaged, Engaged, h.place]

theorem SameWake.inv (h : SameWake s s') (hs : WakeInv g s) : WakeInv g s' where
  worker := by
    rw [h.place]
    exact hs.worker
  claimed := by
    rw [h.place, h.owner]
    exact hs.claimed
  waiting := by
    rw [h.waiter, h.consumerWaiting, h.place]
    exact hs.waiting
  published := by
    rw [h.waiter, h.head, h.engaged]
    exact hs.published
  stopped := by
    rw [h.waiter, h.running, h.engaged]
    exact hs.stopped
  waitMuError := h.waitMuError.trans hs.waitMuError
  synchronizationError := h.synchronizationError.trans hs.synchronizationError

theorem SameWake.rely (h : SameWake s s') : WakeRely g t s s' where
  place := by rw [h.place]
  owner := by rw [h.owner]
  armed _ := h.consumerWaiting
  asleep _ hw := h.waiter ▸ hw
  awake _ hw := h.waiter.trans hw
  dequeuePos _ := by rw [h.ring]
  published _ _ _ hhead hpub := h.engaged.mpr (hhead (h.head.mp hpub))
  stopped _ _ _ hrun hstop := h.engaged.mpr (hrun (h.running ▸ hstop))

theorem SameWake.acts (h : SameWake s s') (hs : WakeInv g s) : Acts g t s s' :=
  ⟨h.inv hs, fun _ _ => h.rely⟩

section Steps

/-- A caller publishes, signals, or does what does not concern the head. -/
structure CallerStep (g : QueueGeometry) (n : ℕ) (s s' : Inst) : Prop where
  place : ∀ u, u ≠ .caller n → s'.history.place u = s.history.place u
  claimed : s'.history.place (.caller n) = .claimed → s'.owner .wait = some (.caller n)
  owner : ∀ u, u ≠ .caller n → (s'.owner .wait = some u ↔ s.owner .wait = some u)
  armed : s'.consumerWaiting = s.consumerWaiting ∨ s.owner .wait = some (.caller n)
  asleep : s'.waiter = some false → s.waiter = some false
  awake : s.waiter = none → s'.waiter = none
  dequeuePos : s'.ring.q.dequeuePos = s.ring.q.dequeuePos
  /-- A caller that publishes the head or stops the instance is engaged then. -/
  published : HeadPublished g s' → HeadPublished g s ∨ Engaged s'
  stopped : s'.running = false → s.running = false ∨ Engaged s'
  /-- A caller that leaves has signalled, or leaves the signal to another one. -/
  engaged : s'.waiter = some false ∨ (s.owner .wait = some .worker ∧ s.consumerWaiting = true) →
    Engaged s → Engaged s'
  waiting : s'.waiter = some false →
    s'.consumerWaiting = true ∨ ∃ t, s'.history.place t = .claimed
  waitMuError : s'.waitMuError = s.waitMuError
  synchronizationError : s'.synchronizationError = s.synchronizationError

theorem CallerStep.acts {n : ℕ} (h : CallerStep g n s s') (hs : WakeInv g s) :
    Acts g (.caller n) s s' := by
  have hworker : InstThread.worker ≠ .caller n := by rintro ⟨⟩
  refine ⟨⟨?_, fun u hu => ?_, h.waiting, fun hw hhead => ?_, fun hw hrun => ?_,
    h.waitMuError.trans hs.waitMuError,
    h.synchronizationError.trans hs.synchronizationError⟩, fun u hu => ?_⟩
  -- the caller moves its own place only
  · rw [h.place _ hworker]
    exact hs.worker
  · by_cases hn : u = .caller n
    · rw [hn] at hu ⊢
      exact h.claimed hu
    · rw [h.place u hn] at hu
      exact (h.owner u hn).mpr (hs.claimed u hu)
  -- a record published while the worker sleeps has an engaged caller
  · rcases h.published hhead with hhead | hengaged
    · exact h.engaged (.inl hw) (hs.published (h.asleep hw) hhead)
    · exact hengaged
  -- so has a stop
  · rcases h.stopped hrun with hrun | hengaged
    · exact h.engaged (.inl hw) (hs.stopped (h.asleep hw) hrun)
    · exact hengaged
  -- the other threads keep what they rely on
  · refine ⟨h.place u hu, h.owner u hu, fun ho => ?_, fun _ => h.asleep, fun _ => h.awake,
      fun _ => h.dequeuePos, ?_, ?_⟩
    · rcases h.armed with hsame | hn
      · exact hsame
      · exact absurd (Option.some.inj (ho.symm.trans hn)) hu
    -- a step that covers what another thread has armed for has engaged somebody
    · rintro - ho hc hcovered hhead
      rcases h.published hhead with hhead | hengaged
      · exact h.engaged (.inr ⟨ho, hc⟩) (hcovered hhead)
      · exact hengaged
    · rintro - ho hc hcovered hrun
      rcases h.stopped hrun with hrun | hengaged
      · exact h.engaged (.inr ⟨ho, hc⟩) (hcovered hrun)
      · exact hengaged

/-- The worker does what does not take `wait_mu` from a caller; it goes to sleep when it may. -/
structure WorkerStep (g : QueueGeometry) (s s' : Inst) : Prop where
  place : s'.history.place = s.history.place
  owner : ∀ n, s'.owner .wait = some (.caller n) ↔ s.owner .wait = some (.caller n)
  armed : s'.consumerWaiting = s.consumerWaiting ∨ s.owner .wait = some .worker
  asleep : s'.waiter = some false → s.owner .wait = some .worker ∧ s'.consumerWaiting = true ∧
    (HeadPublished g s' → Engaged s') ∧ (s'.running = false → Engaged s')
  waitMuError : s'.waitMuError = s.waitMuError
  synchronizationError : s'.synchronizationError = s.synchronizationError

theorem WorkerStep.acts (h : WorkerStep g s s') (hs : WakeInv g s) : Acts g .worker s s' := by
  refine ⟨⟨?_, fun u hu => ?_, fun hw => .inl (h.asleep hw).2.1, fun hw => (h.asleep hw).2.2.1,
    fun hw => (h.asleep hw).2.2.2, h.waitMuError.trans hs.waitMuError,
    h.synchronizationError.trans hs.synchronizationError⟩, fun u hu => ?_⟩
  · rw [h.place]
    exact hs.worker
  · rw [h.place] at hu
    cases u with
    | worker => exact absurd (hs.worker.symm.trans hu) (by rintro ⟨⟩)
    | caller n => exact (h.owner n).mpr (hs.claimed _ hu)
  · cases u with
    | worker => exact absurd rfl hu
    | caller n =>
      have hnot : ∀ {p : Prop}, s.owner .wait = some (.caller n) →
          s.owner .wait = some .worker → p := by
        intro p ho hw
        exact absurd (Option.some.inj (ho.symm.trans hw)) (by rintro ⟨⟩)
      refine ⟨by rw [h.place], h.owner n, fun ho => ?_,
        fun ho hw => hnot ho (h.asleep hw).1, ?_, ?_, ?_, ?_⟩
      · exact h.armed.elim id fun hw => hnot ho hw
      all_goals exact fun hw => absurd hw (by rintro ⟨⟩)

end Steps

section Rules

variable {α : Type} {P : Inst → Prop}

/-- One operation. -/
theorem triple_act {label : InstLabel} {act : Inst → InstReply → Option (α × Inst)}
    {Q : α → Inst → Prop} (hat : ∀ s, WakeInv g s → P s → (wakeLogic g).At t label s)
    (hstable : ∀ b, (wakeLogic g).Stable t (Q b))
    (h : ∀ s a b s', WakeInv g s → P s → act s a = some (b, s') → Flawless a →
      Acts g t s s' ∧ Q b s') :
    (wakeLogic g).Triple t P (Code.atomic label act) Q := by
  refine Logic.triple_atomic hat hstable fun s a b s' hs hP hact hok => ?_
  obtain ⟨⟨hinv, hrely⟩, hQ⟩ := h s a b s' hs hP hact hok
  exact ⟨hinv, trivial, hrely, hQ⟩

/-- Code that does not steer the worker. -/
theorem triple_calm {c : InstCode α} {R : α → Prop}
    (h : Calm (fun a => a.pthread = 0) R c)
    (haway : ∀ s, WakeInv g s → P s → s.history.place t = .away) :
    (wakeLogic g).Triple t P c fun a s => R a ∧ P s := by
  refine Logic.triple_of_quiet h (fun _ _ _ hok => hok.1) ?_ ?_ ?_
  · exact fun s s' hcontrol hs => (SameWake.of_control hcontrol).inv hs
  · intro v s s' hcontrol
    cases v with
    | none => trivial
    | some t => exact ⟨trivial, (SameWake.of_control hcontrol).rely⟩
  · exact fun _ _ s hs hP hplace => absurd (haway s hs hP) hplace

/-- A read. -/
theorem triple_load {field : Inst → α} (hstable : (wakeLogic g).Stable t P)
    (haway : ∀ s, WakeInv g s → P s → s.history.place t = .away) :
    (wakeLogic g).Triple t P (load field) fun _ => P := by
  refine triple_act (fun s hs hP hplace => absurd (haway s hs hP) hplace) (fun _ => hstable) ?_
  intro s a b s' hs hP hact _
  obtain ⟨rfl, rfl⟩ := Prod.mk.inj (Option.some.inj hact)
  exact ⟨⟨hs, fun _ _ => .refl⟩, hP⟩

/-- A store that does not concern the protocol. -/
theorem triple_store {set : Inst → Inst} (hset : ∀ s, SameWake s (set s))
    (hstable : (wakeLogic g).Stable t P) (hkeep : ∀ s, P s → P (set s))
    (haway : ∀ s, WakeInv g s → P s → s.history.place t = .away) :
    (wakeLogic g).Triple t P (store set) fun _ => P := by
  refine triple_act (fun s hs hP hplace => absurd (haway s hs hP) hplace) (fun _ => hstable) ?_
  intro s a b s' hs hP hact _
  obtain ⟨-, rfl⟩ := Prod.mk.inj (Option.some.inj hact)
  exact ⟨(hset s).acts hs, hkeep s hP⟩

end Rules

section Callers

variable {n : ℕ} {place : WakePlace}

/-- Caller `n` is at this place of the protocol. -/
def Placed (n : ℕ) (place : WakePlace) (s : Inst) : Prop :=
  s.history.place (.caller n) = place

/-- A caller that has taken `wait_mu`. -/
structure Signalling (n : ℕ) (s : Inst) : Prop where
  bound : Placed n .bound s
  owner : s.owner .wait = some (.caller n)

/-- A caller under `wait_mu` that owes the worker no signal. -/
structure Relieved (n : ℕ) (s : Inst) : Prop where
  owner : s.owner .wait = some (.caller n)
  awake : s.waiter ≠ some false
  unclaimed : ¬ Placed n .claimed s

theorem placed_stable : (wakeLogic g).Stable (.caller n) (Placed n place) :=
  fun _ _ hsees hs => hsees.2.place.trans hs

theorem signalling_stable : (wakeLogic g).Stable (.caller n) (Signalling n) :=
  fun s s' hsees hs => ⟨placed_stable s s' hsees hs.bound, hsees.2.owner.mpr hs.owner⟩

theorem relieved_stable {n : ℕ} : (wakeLogic g).Stable (.caller n) (Relieved n) := by
  intro s s' hsees hs
  refine ⟨hsees.2.owner.mpr hs.owner, fun hw => hs.awake (hsees.2.asleep hs.owner hw), ?_⟩
  intro hclaimed
  exact hs.unclaimed (hsees.2.place.symm.trans hclaimed)

/-! The steps of a caller in the protocol. -/

theorem engaged_goes (h : place ≠ .away) : Engaged (s.goes t place) := by
  refine ⟨t, ?_⟩
  show Function.update s.history.place t place t ≠ .away
  rwa [Function.update_self]

/-- A claim of another thread is still there after a step of a thread that has none. -/
theorem waiting_goes (hs : WakeInv g s) (h : s.history.place t ≠ .claimed) (place : WakePlace)
    (hw : s.waiter = some false) :
    s.consumerWaiting = true ∨ ∃ u, (s.goes t place).history.place u = .claimed := by
  refine (hs.waiting hw).imp id ?_
  rintro ⟨u, hu⟩
  have hne : u ≠ t := by
    rintro rfl
    exact h hu
  exact ⟨u, (Function.update_of_ne hne _ _).trans hu⟩

/-- A step of a push before the publication. -/
theorem ring_step (hs : WakeInv g s) {ring : QueueSys ℕ}
    (hpos : ring.q.dequeuePos = s.ring.q.dequeuePos)
    (hseq : ∀ i, (ring.q.slots i).seq = (s.ring.q.slots i).seq) :
    CallerStep g n s { s with ring } where
  place _ _ := rfl
  claimed := hs.claimed _
  owner _ _ := Iff.rfl
  armed := .inl rfl
  asleep := id
  awake := id
  dequeuePos := hpos
  published h := by
    refine .inl ?_
    rw [HeadPublished, publishedAt] at h ⊢
    rwa [hpos, hseq] at h
  stopped := .inl
  engaged _ := id
  waiting := hs.waiting
  waitMuError := rfl
  synchronizationError := rfl

/-- The publication. -/
theorem publish_step (hs : WakeInv g s) {ring : QueueSys ℕ}
    (hpos : ring.q.dequeuePos = s.ring.q.dequeuePos) (hplace : Placed n .away s) :
    CallerStep g n s ({ s with ring }.published n) where
  place u hu := Function.update_of_ne hu _ _
  claimed h := absurd ((Function.update_self _ _ _).symm.trans h) (by rintro ⟨⟩)
  owner _ _ := Iff.rfl
  armed := .inl rfl
  asleep := id
  awake := id
  dequeuePos := hpos
  published _ := .inr (engaged_goes (by rintro ⟨⟩))
  stopped := .inl
  engaged _ _ := engaged_goes (by rintro ⟨⟩)
  waiting := waiting_goes hs (by rw [hplace]; rintro ⟨⟩) .bound
  waitMuError := rfl
  synchronizationError := rfl

/-- A caller that stops the instance. -/
theorem stop_step (hs : WakeInv g s) (hplace : Placed n .away s) {f : InstHistory → InstHistory}
    (hf : ∀ h, (f h).place = h.place) :
    CallerStep g n s (({ s with running := false }.goes (.caller n) .bound).record f) where
  place u hu := by
    show (f _).place u = _
    rw [hf]
    exact Function.update_of_ne hu _ _
  claimed h := by
    change (f _).place _ = _ at h
    rw [hf] at h
    exact absurd ((Function.update_self _ _ _).symm.trans h) (by rintro ⟨⟩)
  owner _ _ := Iff.rfl
  armed := .inl rfl
  asleep := id
  awake := id
  dequeuePos := rfl
  published := .inl
  stopped _ := by
    refine .inr ?_
    rw [Engaged]
    simp only [Inst.record, hf]
    exact engaged_goes (s := s) (by rintro ⟨⟩)
  engaged _ _ := by
    rw [Engaged]
    simp only [Inst.record, hf]
    exact engaged_goes (s := s) (by rintro ⟨⟩)
  waiting hw := by
    simp only [Inst.record, hf]
    exact waiting_goes hs (by rw [hplace]; rintro ⟨⟩) .bound hw
  waitMuError := rfl
  synchronizationError := rfl

/-- A caller that finds `consumer_waiting` clear leaves the signal to the one who cleared it. -/
theorem leave_step (hs : WakeInv g s) (hplace : Placed n .bound s)
    (hwaiting : s.consumerWaiting = false) : CallerStep g n s (s.goes (.caller n) .away) where
  place u hu := Function.update_of_ne hu _ _
  claimed h := absurd ((Function.update_self _ _ _).symm.trans h) (by rintro ⟨⟩)
  owner _ _ := Iff.rfl
  armed := .inl rfl
  asleep := id
  awake := id
  dequeuePos := rfl
  published := .inl
  stopped := .inl
  engaged := by
    rintro (hw | ⟨-, hc⟩) -
    · obtain hc | ⟨u, hu⟩ := waiting_goes hs (by rw [hplace]; rintro ⟨⟩) .away hw
      · exact absurd (hwaiting.symm.trans hc) (by rintro ⟨⟩)
      · exact ⟨u, by rw [hu]; rintro ⟨⟩⟩
    · exact absurd (hwaiting.symm.trans hc) (by rintro ⟨⟩)
  waiting := waiting_goes hs (by rw [hplace]; rintro ⟨⟩) .away
  waitMuError := rfl
  synchronizationError := rfl

/-- A caller takes `wait_mu`. -/
theorem lock_step (hs : WakeInv g s) (hfree : s.owner .wait = none) :
    CallerStep g n s (s.own .wait (some (.caller n))) := by
  have hown : (s.own .wait (some (.caller n))).owner .wait = some (.caller n) :=
    s.own_owner _ _
  refine ⟨fun _ _ => rfl, fun _ => hown, fun u hu => ?_, .inl rfl, id, id, rfl, .inl, .inl,
    fun _ => id, hs.waiting, rfl, rfl⟩
  rw [hown, hfree]
  refine iff_of_false (fun h => hu (Option.some.inj h).symm) ?_
  rintro ⟨⟩

/-- The exchange of `consumer_waiting`. -/
theorem clear_step (hs : WakeInv g s) (hsignalling : Signalling n s) (forced : Bool) :
    CallerStep g n s ({ s with consumerWaiting := false }.goes (.caller n)
      (if s.consumerWaiting || forced then .claimed else .bound)) := by
  have hne : (if s.consumerWaiting || forced then WakePlace.claimed else .bound) ≠ .away := by
    split
    · rintro ⟨⟩
    · rintro ⟨⟩
  refine ⟨fun u hu => Function.update_of_ne hu _ _, fun _ => hsignalling.owner, fun _ _ => Iff.rfl,
    .inr hsignalling.owner, id, id, rfl, .inl, .inl, fun _ _ => engaged_goes hne, fun hw => ?_, rfl,
    rfl⟩
  -- a claim of another thread would mean that it holds `wait_mu`
  have hc : s.consumerWaiting = true := by
    refine (hs.waiting hw).elim id ?_
    rintro ⟨u, hu⟩
    obtain rfl := Option.some.inj (hsignalling.owner.symm.trans (hs.claimed u hu))
    exact absurd (hsignalling.bound.symm.trans hu) (by rintro ⟨⟩)
  refine .inr ⟨.caller n, (Function.update_self _ _ _).trans ?_⟩
  rw [hc]
  rfl

/-- The signal. -/
theorem signal_step (howner : s.owner .wait = some (.caller n)) (hplace : place ≠ .claimed) :
    CallerStep g n s
      ({ s with waiter := s.waiter.map fun _ => true }.goes (.caller n) place) := by
  have hawake : s.waiter.map (fun _ => true) ≠ some false := by
    cases s.waiter with
    | none => rintro ⟨⟩
    | some b => rintro ⟨⟩
  refine ⟨fun u hu => Function.update_of_ne hu _ _,
    fun h => absurd ((Function.update_self _ _ _).symm.trans h) hplace,
    fun _ _ => Iff.rfl, .inl rfl,
    fun hw => absurd hw hawake, fun hw => ?_, rfl, .inl, .inl, ?_, fun hw => absurd hw hawake, rfl,
    rfl⟩
  · show s.waiter.map _ = none
    rw [hw]
    rfl
  · rintro (hw | ⟨hworker, -⟩)
    · exact absurd hw hawake
    · exact absurd (Option.some.inj (howner.symm.trans hworker)) (by rintro ⟨⟩)

/-- A caller gives `wait_mu` back and leaves. -/
theorem unlock_step (h : Relieved n s) :
    CallerStep g n s ((s.own .wait none).goes (.caller n) .away) := by
  have hown : (s.own .wait none).owner .wait = none := s.own_owner _ _
  refine ⟨fun u hu => Function.update_of_ne hu _ _,
    fun hclaimed => absurd ((Function.update_self _ _ _).symm.trans hclaimed) (by rintro ⟨⟩),
    fun u hu => ?_, .inl rfl, id, id, rfl, .inl, .inl, ?_, fun hw => absurd hw h.awake, rfl, rfl⟩
  · show (s.own .wait none).owner .wait = some u ↔ _
    rw [hown, h.owner]
    refine iff_of_false ?_ fun heq => hu (Option.some.inj heq).symm
    rintro ⟨⟩
  · rintro (hw | ⟨hworker, -⟩)
    · exact absurd hw h.awake
    · exact absurd (Option.some.inj (h.owner.symm.trans hworker)) (by rintro ⟨⟩)

/-! The functions of the protocol. -/

theorem queuePublish_triple (m : LoggerMessage) :
    (wakeLogic g).Triple (.caller n) (Placed n .away) (queuePublish g n m)
      fun published => Placed n (if published then .bound else .away) := by
  have haway : ∀ s, WakeInv g s → Placed n .away s → (wakeLogic g).At (.caller n) .other s :=
    fun _ _ hs hplace => absurd hs hplace
  refine Logic.Triple.bind (Q := fun _ => Placed n .away)
    (triple_act haway (fun _ => placed_stable) ?_) fun _ => ?_
  -- the call announces itself to the ring
  · intro s a b s' hs hplace hact _
    obtain ⟨ring, hcall, heq⟩ := Option.map_eq_some_iff.mp hact
    obtain ⟨-, rfl⟩ := Prod.mk.inj heq
    rw [queueNext] at hcall
    split at hcall
    · obtain rfl := Option.some.inj hcall
      refine ⟨(ring_step hs ?_ ?_).acts hs, hplace⟩
      · rfl
      · exact fun _ => rfl
    · exact absurd hcall (by rintro ⟨⟩)
  -- the steps of the push, of which only the last can publish
  · refine Logic.triple_iterate (fun _ => Placed n .away) (fun _ => haway) fun _ => ?_
    refine triple_act haway ?_ ?_
    · rintro (_ | published)
      · exact placed_stable
      · exact placed_stable
    · intro s a b s' hs hplace hact _
      obtain ⟨⟨r, ring⟩, hpush, heq⟩ := Option.map_eq_some_iff.mp hact
      obtain ⟨hpos, hseq⟩ := pushRing_words hpush
      obtain ⟨rfl, rfl⟩ := Prod.mk.inj heq
      by_cases hr : r = .inr true
      -- the publication binds the caller to the wake-up
      · subst hr
        rw [if_pos rfl]
        exact ⟨(publish_step hs hpos hplace).acts hs, Function.update_self _ _ _⟩
      · rw [if_neg hr]
        -- any other step leaves the head as it was
        refine ⟨(ring_step hs hpos (hseq hr)).acts hs, ?_⟩
        rcases r with _ | published
        · exact hplace
        · cases published with
          | false => exact hplace
          | true => exact absurd rfl hr

/-- The lock of `wait_mu`, whatever is done when it fails. -/
theorem takeWaitMu_triple {label : InstLabel} (hlabel : label = .notify ∨ label = .stop)
    {act : Inst → InstReply → Option (ℤ × Inst)}
    (hlock : ∀ s a, a.pthread = 0 → act s a =
      if s.owner .wait = none then some (0, s.own .wait (some (.caller n))) else none) :
    (wakeLogic g).Triple (.caller n) (Placed n .bound) (Code.atomic label act)
      fun rc s => rc = 0 ∧ Signalling n s := by
  refine triple_act (fun _ _ _ _ => hlabel) ?_ ?_
  · exact fun rc s s' hsees hs => ⟨hs.1, signalling_stable s s' hsees hs.2⟩
  · intro s a b s' hs hbound hact hok
    rw [hlock s a hok.1] at hact
    split at hact
    · rename_i hfree
      obtain ⟨rfl, rfl⟩ := Prod.mk.inj (Option.some.inj hact)
      exact ⟨(lock_step hs hfree).acts hs, rfl, hbound, s.own_owner _ _⟩
    · exact absurd hact (by rintro ⟨⟩)

/-- The end of the two functions that signal. -/
theorem releaseWaitMu_triple {label : InstLabel} {P : Inst → Prop}
    (hat : ∀ s, P s → (wakeLogic g).At (.caller n) label s)
    (hrelieved : ∀ s, WakeInv g s → P s → Relieved n s) :
    (wakeLogic g).Triple (.caller n) P (releaseWaitMu label (.caller n))
      fun rc s => rc = 0 ∧ Placed n .away s := by
  refine Logic.Triple.bind (Q := fun rc s => rc = 0 ∧ Placed n .away s)
    (triple_act (fun s _ hP => hat s hP) ?_ ?_) fun rc => ?_
  · exact fun rc s s' hsees hs => ⟨hs.1, placed_stable s s' hsees hs.2⟩
  · intro s a b s' hs hP hact hok
    obtain ⟨rfl, rfl⟩ := Prod.mk.inj (Option.some.inj hact)
    rw [Inst.unlocked, if_pos (.inl hok.1), hok.1]
    exact ⟨(unlock_step (hrelieved s hs hP)).acts hs, rfl, Function.update_self _ _ _⟩
  · refine Logic.triple_ite (fun hrc => Logic.triple_false fun s _ hs => hrc hs.1) fun _ => ?_
    exact Logic.triple_pure fun _ _ hs => hs

/-- The exchange of `consumer_waiting`: the caller has claimed the signal, or owes none. -/
theorem clearWaiting_triple {label : InstLabel} (hlabel : label = .notify ∨ label = .stop)
    (forced : Bool) :
    (wakeLogic g).Triple (.caller n) (Signalling n) (clearWaiting label (.caller n) forced)
      fun claimed s => (forced = true → claimed = true) ∧ s.owner .wait = some (.caller n) ∧
        (claimed = false → Relieved n s) := by
  refine triple_act (fun _ _ _ _ => hlabel) ?_ ?_
  · exact fun claimed s s' hsees hs => ⟨hs.1, hsees.2.owner.mpr hs.2.1,
      fun hclaimed => relieved_stable s s' hsees (hs.2.2 hclaimed)⟩
  · intro s a b s' hs hsignalling hact _
    obtain ⟨rfl, rfl⟩ := Prod.mk.inj (Option.some.inj hact)
    have hacts := (clear_step hs hsignalling forced).acts hs
    refine ⟨hacts, fun hforced => by rw [hforced, Bool.or_true], hsignalling.owner, fun hnot => ?_⟩
    rw [hnot] at hacts ⊢
    have hbound : Placed n .bound ({ s with consumerWaiting := false }.goes (.caller n) .bound) :=
      Function.update_self _ _ _
    refine ⟨hsignalling.owner, fun hw => ?_, fun hclaimed => ?_⟩
    · -- nobody else can have claimed the signal
      refine (hacts.1.waiting hw).elim (by rintro ⟨⟩) ?_
      rintro ⟨u, hu⟩
      obtain rfl := Option.some.inj (hsignalling.owner.symm.trans (hacts.1.claimed u hu))
      exact absurd (hbound.symm.trans hu) (by rintro ⟨⟩)
    · exact absurd (hbound.symm.trans hclaimed) (by rintro ⟨⟩)

/-- The signal relieves the caller. -/
theorem signalWorker_triple {label : InstLabel} (hlabel : label = .notify ∨ label = .stop)
    (hplace : place ≠ .claimed) :
    (wakeLogic g).Triple (.caller n) (fun s => s.owner .wait = some (.caller n))
      (signalWorker label (.caller n) place)
      fun rc s => rc = 0 ∧ Placed n place s ∧ Relieved n s := by
  refine triple_act (fun _ _ _ _ => hlabel) ?_ ?_
  · exact fun rc s s' hsees hs => ⟨hs.1, placed_stable s s' hsees hs.2.1,
      relieved_stable s s' hsees hs.2.2⟩
  · intro s a b s' hs howner hact hok
    rw [if_neg (not_not.mpr hok.2.1)] at hact
    obtain ⟨rfl, rfl⟩ := Prod.mk.inj (Option.some.inj hact)
    have hself : Placed n place
        ({ s with waiter := s.waiter.map fun _ => true }.goes (.caller n) place) :=
      Function.update_self _ _ _
    refine ⟨(signal_step howner hplace).acts hs, rfl, hself, howner, ?_, ?_⟩
    · show s.waiter.map _ ≠ some false
      cases s.waiter with
      | none => rintro ⟨⟩
      | some b => rintro ⟨⟩
    · exact fun hclaimed => hplace (hself.symm.trans hclaimed)

theorem loggerQueueNotifyIfWaiting_triple :
    (wakeLogic g).Triple (.caller n) (Placed n .bound) (loggerQueueNotifyIfWaiting (.caller n))
      fun rc s => rc = 0 ∧ Placed n .away s := by
  have hnotify : ∀ s, (wakeLogic g).At (.caller n) .notify s := fun _ _ => .inl rfl
  refine Logic.Triple.bind (Q := fun waiting => Placed n (if waiting then .bound else .away))
    (triple_act (fun s _ _ => hnotify s) (fun _ => placed_stable) ?_) fun waiting => ?_
  · intro s a b s' hs hbound hact _
    obtain ⟨rfl, rfl⟩ := Prod.mk.inj (Option.some.inj hact)
    cases hwaiting : s.consumerWaiting with
    | true => exact ⟨⟨hs, fun _ _ => .refl⟩, hbound⟩
    | false => exact ⟨(leave_step hs hbound hwaiting).acts hs, Function.update_self _ _ _⟩
  refine Logic.triple_ite (fun hnot => ?_) fun hwaiting => ?_
  · rw [if_neg hnot]
    exact Logic.triple_pure fun _ _ hs => ⟨rfl, hs⟩
  rw [if_pos (not_not.mp hwaiting)]
  refine Logic.Triple.bind (takeWaitMu_triple (.inl rfl) fun s a ha => if_neg (not_not.mpr ha))
    fun rc => ?_
  refine Logic.triple_ite (fun hrc => Logic.triple_false fun s _ hs => hrc hs.1) fun _ => ?_
  refine Logic.Triple.bind ((clearWaiting_triple (.inl rfl) false).pre fun _ _ hs => hs.2)
    fun claimed => ?_
  refine Logic.triple_ite (fun hnot => ?_) fun _ => ?_
  · exact releaseWaitMu_triple (fun s _ => hnotify s) fun s _ hs => hs.2.2 (by simpa using hnot)
  · refine Logic.Triple.bind ((signalWorker_triple (.inl rfl) (by rintro ⟨⟩)).pre
      fun _ _ hs => hs.2.1) fun signalRc => ?_
    refine Logic.triple_fact (p := signalRc = 0) (fun _ _ hs => hs.1) fun hsignal => ?_
    refine Logic.Triple.bind (releaseWaitMu_triple (fun s _ => hnotify s) fun s _ hs => hs.2.2)
      fun unlockRc => ?_
    rw [if_neg (not_not.mpr hsignal)]
    exact Logic.triple_pure fun _ _ hs => hs

theorem loggerQueueWakeForce_triple :
    (wakeLogic g).Triple (.caller n) (Placed n .bound) (loggerQueueWakeForce (.caller n))
      fun rc s => rc = 0 ∧ Placed n .away s := by
  refine Logic.Triple.bind (takeWaitMu_triple (.inr rfl) fun s a ha => if_neg (not_not.mpr ha))
    fun rc => ?_
  refine Logic.triple_ite (fun hrc => Logic.triple_false fun s _ hs => hrc hs.1) fun _ => ?_
  refine Logic.Triple.bind ((clearWaiting_triple (.inr rfl) true).pre fun _ _ hs => hs.2)
    fun claimed => ?_
  refine Logic.Triple.bind ((signalWorker_triple (.inr rfl) (by rintro ⟨⟩)).pre
    fun _ _ hs => hs.2.1) fun signalRc => ?_
  refine Logic.triple_fact (p := signalRc = 0) (fun _ _ hs => hs.1) fun hsignal => ?_
  refine Logic.Triple.bind (releaseWaitMu_triple (fun s hs hplace => absurd hs.2.1 hplace)
    fun s _ hs => hs.2.2) fun unlockRc => ?_
  rw [if_neg (not_not.mpr hsignal)]
  exact Logic.triple_pure fun _ _ hs => hs

theorem loggerQueuePush_triple (m : LoggerMessage) :
    (wakeLogic g).Triple (.caller n) (Placed n .away) (loggerQueuePush g n m)
      fun rc s => 0 ≤ rc ∧ Placed n .away s := by
  refine Logic.Triple.bind (queuePublish_triple m) fun published => ?_
  refine Logic.triple_ite (fun hpublished => ?_) fun hnot => ?_
  · rw [if_pos hpublished]
    refine Logic.Triple.bind loggerQueueNotifyIfWaiting_triple fun rc => ?_
    refine Logic.triple_pure fun s _ hs => ⟨?_, hs.2⟩
    rw [hs.1]
    exact Int.one_nonneg
  · rw [if_neg hnot]
    exact Logic.triple_pure fun _ _ hs => ⟨le_rfl, hs⟩

/-! The calls. -/

/-- Code of a caller that does not steer the worker. -/
theorem away_calm {α : Type} {c : InstCode α} {R : α → Prop}
    (h : Calm (fun a => a.pthread = 0) R c) :
    (wakeLogic g).Triple (.caller n) (Placed n .away) c fun _ => Placed n .away :=
  (triple_calm h fun _ _ hs => hs).post fun _ _ _ hs => hs.2

theorem away_store {set : Inst → Inst} (hset : ∀ s, SameWake s (set s)) :
    (wakeLogic g).Triple (.caller n) (Placed n .away) (store set) fun _ => Placed n .away := by
  refine triple_store hset placed_stable (fun s hs => ?_) fun _ _ hs => hs
  rw [Placed, (hset s).place]
  exact hs

/-- A read of a word that holds no error. -/
theorem away_noError {field : Inst → ℤ} (h : ∀ s, WakeInv g s → field s = 0) :
    (wakeLogic g).Triple (.caller n) (Placed n .away) (load field)
      fun error s => error = 0 ∧ Placed n .away s := by
  refine triple_act (fun _ _ hs hplace => absurd hs hplace) ?_ ?_
  · exact fun _ s s' hsees hs => ⟨hs.1, placed_stable s s' hsees hs.2⟩
  · intro s a b s' hs haway hact _
    obtain ⟨rfl, rfl⟩ := Prod.mk.inj (Option.some.inj hact)
    exact ⟨⟨hs, fun _ _ => .refl⟩, h s hs, haway⟩

theorem countCall_triple (counter : CallCounter) :
    (wakeLogic g).Triple (.caller n) (Placed n .away) (countCall n counter)
      fun _ => Placed n .away := by
  refine away_store fun s => ?_
  cases counter <;> exact ⟨rfl, rfl, rfl, rfl, rfl, rfl, rfl, rfl⟩

theorem vlogRoute_triple (m : LoggerMessage) :
    (wakeLogic cfg.geometry).Triple (.caller n) (Placed n .away) (vlogRoute cfg n m)
      fun _ => Placed n .away := by
  refine Logic.Triple.bind (loggerQueuePush_triple m) fun pushRc => ?_
  refine Logic.triple_ite (fun _ => ?_) fun _ => Logic.triple_ite (fun hneg => ?_) fun _ => ?_
  · refine Logic.Triple.bind ((countCall_triple .enqueued).pre fun _ _ hs => hs.2) fun _ => ?_
    exact Logic.triple_pure fun _ _ hs => hs
  · exact Logic.triple_false fun s _ hs => absurd hs.1 (not_le.mpr hneg)
  · refine Logic.triple_ite (fun _ => ?_) fun _ => ?_
    · refine Logic.Triple.bind ((countCall_triple .syncFallbacks).pre fun _ _ hs => hs.2)
        fun _ => ?_
      exact away_calm (loggerEmitStatus_calm (fun _ => id) m false)
    · refine Logic.Triple.bind ((countCall_triple (.dropped m.level)).pre fun _ _ hs => hs.2)
        fun _ => ?_
      exact Logic.triple_pure fun _ _ hs => hs

theorem loggerVlogInternal_triple (c : VlogCall) :
    (wakeLogic cfg.geometry).Triple (.caller n) (Placed n .away) (loggerVlogInternal cfg n c)
      fun _ => Placed n .away := by
  refine Logic.Triple.bind (Q := fun _ => Placed n .away)
    (triple_act (fun _ _ hs hplace => absurd hs hplace) (fun _ => placed_stable) ?_)
    fun accepting => ?_
  · intro s a b s' hs haway hact _
    obtain ⟨-, rfl⟩ := Prod.mk.inj (Option.some.inj hact)
    refine ⟨SameWake.acts ?_ hs, haway⟩
    exact ⟨rfl, rfl, rfl, rfl, rfl, rfl, rfl, rfl⟩
  refine Logic.Triple.bind (Q := fun _ => Placed n .away) (Logic.triple_ite (fun _ => ?_) fun _ =>
    Logic.triple_pure fun _ _ hs => hs) fun _ => away_store fun _ => ?_
  · refine Logic.Triple.bind (away_calm (load_calm _)) fun level => ?_
    refine Logic.triple_ite (fun _ => Logic.triple_pure fun _ _ hs => hs) fun _ => ?_
    refine Logic.Triple.bind (away_calm (formatText_calm n c)) fun rc => ?_
    refine Logic.triple_ite (fun _ => Logic.triple_pure fun _ _ hs => hs) fun _ => ?_
    refine Logic.triple_ite (fun _ => vlogRoute_triple _) fun _ => ?_
    exact away_calm (loggerEmitStatus_calm (fun _ => id) _ false)
  · exact ⟨rfl, rfl, rfl, rfl, rfl, rfl, rfl, rfl⟩

theorem stopWorker_triple :
    (wakeLogic g).Triple (.caller n) (Placed n .away) (stopWorker (.caller n))
      fun _ => Placed n .away := by
  refine Logic.Triple.bind (Q := fun _ => Placed n .bound)
    (triple_act (fun _ _ hs hplace => absurd hs hplace) (fun _ => placed_stable) ?_) fun _ => ?_
  · intro s a b s' hs haway hact _
    obtain ⟨-, rfl⟩ := Prod.mk.inj (Option.some.inj hact)
    refine ⟨(stop_step hs haway ?_).acts hs, Function.update_self _ _ _⟩
    exact fun _ => rfl
  refine Logic.Triple.bind loggerQueueWakeForce_triple fun wakeRc => ?_
  refine Logic.triple_ite (fun hrc => Logic.triple_false fun s _ hs => hrc hs.1) fun _ => ?_
  refine Logic.Triple.bind (Q := fun _ => Placed n .away)
    (triple_act (fun _ _ hs hplace => absurd hs.2 hplace) (fun _ => placed_stable) ?_)
    fun joinRc => ?_
  · intro s a b s' hs haway hact _
    have hsame : s' = s := by
      split at hact
      · exact (Prod.mk.inj (Option.some.inj hact)).2.symm
      split at hact
      · exact (Prod.mk.inj (Option.some.inj hact)).2.symm
      · exact absurd hact (by rintro ⟨⟩)
    rw [hsame]
    exact ⟨⟨hs, fun _ _ => .refl⟩, haway.2⟩
  refine Logic.triple_ite (fun _ => ?_) fun _ => Logic.triple_pure fun _ _ hs => hs
  refine Logic.Triple.bind (away_store fun _ => ?_) fun _ => Logic.triple_pure fun _ _ hs => hs
  exact ⟨rfl, rfl, rfl, rfl, rfl, rfl, rfl, rfl⟩

theorem disposeBody_triple :
    (wakeLogic g).Triple (.caller n) (Placed n .away) (disposeBody cfg (.caller n))
      fun _ => Placed n .away := by
  refine Logic.Triple.bind (away_store fun _ => ?_) fun _ => ?_
  · exact ⟨rfl, rfl, rfl, rfl, rfl, rfl, rfl, rfl⟩
  -- no lock operation has failed, so that there is nothing to be stopped for
  refine Logic.Triple.bind (away_noError fun _ hs => hs.synchronizationError) fun syncError => ?_
  refine Logic.Triple.bind (Q := fun error s => error = 0 ∧ Placed n .away s)
    (Logic.triple_ite (fun _ => ?_) fun _ => Logic.triple_pure fun _ _ hs => hs) fun syncError => ?_
  · exact (away_noError fun _ hs => hs.waitMuError).pre fun _ _ hs => hs.2
  refine Logic.triple_ite (fun herror => Logic.triple_false fun s _ hs => herror hs.1) fun _ => ?_
  refine Logic.Triple.bind (Q := fun _ => Placed n .away) (Logic.triple_ite (fun _ => ?_) fun _ =>
    Logic.triple_pure fun _ _ hs => hs.2) fun joined => ?_
  · exact stopWorker_triple.pre fun _ _ hs => hs.2
  refine Logic.Triple.bind (away_calm (load_calm _)) fun syncError => ?_
  refine Logic.triple_ite (fun _ => Logic.triple_pure fun _ _ hs => hs) fun _ => ?_
  refine Logic.Triple.bind (away_calm (load_calm _)) fun lifecycleError => ?_
  refine Logic.Triple.bind (away_calm (lockEmit_calm fun _ => id)) ?_
  rintro ⟨lockRc, before⟩
  refine Logic.triple_ite (fun _ => away_calm (store_calm fun _ => rfl)) fun _ => ?_
  refine Logic.Triple.bind (Q := fun _ => Placed n .away) (Logic.triple_ite (fun _ =>
    Logic.triple_pure fun _ _ hs => hs) fun _ => ?_) fun _ => ?_
  · refine Logic.Triple.bind (away_calm (loggerSyncOutputsLocked_calm _)) ?_
    rintro ⟨rc, look⟩
    exact Logic.triple_pure fun _ _ hs => hs
  · refine away_calm (R := fun _ => True) (Quiet.bind (unlock_calm (fun _ => id) (by rintro ⟨⟩))
      fun unlockRc hunlock => ?_)
    exact loggerNoteSynchronizationError_calm hunlock

theorem instApi_triple (call : InstCall) :
    (wakeLogic cfg.geometry).Triple t (fun s => s.history.place t = .away) (instApi cfg t call)
      fun _ s => s.history.place t = .away := by
  cases t with
  | worker => exact Logic.triple_pure fun _ _ hs => hs
  | caller n =>
    cases call with
    | vlog c => exact loggerVlogInternal_triple c
    | logSyncStatus c => exact away_calm (loggerLogSyncStatus_calm (fun _ => id) n c)
    | flush => exact away_calm (loggerFlush_calm fun _ => id)
    | reopen => exact away_calm (loggerReopen_calm fun _ => id)
    | setLevel level => exact away_calm (loggerSetInstanceLevel_calm level)
    | dispose => exact disposeBody_triple

end Callers

section Worker

/-- The worker is not in `pthread_cond_wait`. -/
def Awake (s : Inst) : Prop := s.waiter = none

/-- The worker holds `wait_mu`. -/
structure Holding (s : Inst) : Prop where
  awake : Awake s
  owner : s.owner .wait = some .worker

/-- The worker has set `consumer_waiting`. -/
structure Armed (s : Inst) : Prop where
  holding : Holding s
  consumerWaiting : s.consumerWaiting = true

/-- The armed worker has found the head unpublished. -/
structure HeadCovered (g : QueueGeometry) (s : Inst) : Prop where
  armed : Armed s
  published : HeadPublished g s → Engaged s

/-- The armed worker has found `running` set after that. -/
structure Covered (g : QueueGeometry) (s : Inst) : Prop where
  head : HeadCovered g s
  stopped : s.running = false → Engaged s

theorem awake_stable : (wakeLogic g).Stable .worker Awake :=
  fun _ _ hsees hs => hsees.2.awake rfl hs

theorem holding_stable : (wakeLogic g).Stable .worker Holding :=
  fun s s' hsees hs => ⟨awake_stable s s' hsees hs.awake, hsees.2.owner.mpr hs.owner⟩

theorem armed_stable : (wakeLogic g).Stable .worker Armed :=
  fun s s' hsees hs => ⟨holding_stable s s' hsees hs.holding,
    (hsees.2.armed hs.holding.owner).trans hs.consumerWaiting⟩

theorem headCovered_stable : (wakeLogic g).Stable .worker (HeadCovered g) :=
  fun s s' hsees hs => ⟨armed_stable s s' hsees hs.armed,
    hsees.2.published rfl hs.armed.holding.owner hs.armed.consumerWaiting hs.published⟩

theorem covered_stable : (wakeLogic g).Stable .worker (Covered g) :=
  fun s s' hsees hs => ⟨headCovered_stable s s' hsees hs.head,
    hsees.2.stopped rfl hs.head.armed.holding.owner hs.head.armed.consumerWaiting hs.stopped⟩

/-- An assertion of the worker about the part that the protocol is about. -/
structure WorkerPlace (g : QueueGeometry) (P : Inst → Prop) : Prop where
  stable : (wakeLogic g).Stable .worker P
  same : ∀ {s s'}, SameWake s s' → P s → P s'

theorem awake_place : WorkerPlace g Awake := ⟨awake_stable, fun h hs => h.waiter.trans hs⟩

theorem holding_place : WorkerPlace g Holding :=
  ⟨holding_stable, fun h hs => ⟨awake_place.same (g := g) h hs.awake, h.owner.trans hs.owner⟩⟩

theorem armed_place : WorkerPlace g Armed :=
  ⟨armed_stable, fun h hs => ⟨holding_place.same (g := g) h hs.holding,
    h.consumerWaiting.trans hs.consumerWaiting⟩⟩

theorem headCovered_place : WorkerPlace g (HeadCovered g) :=
  ⟨headCovered_stable, fun h hs => ⟨armed_place.same (g := g) h hs.armed,
    fun hhead => h.engaged.mpr (hs.published (h.head.mp hhead))⟩⟩

theorem SameWake.record (f : InstHistory → InstHistory) (hf : ∀ h, (f h).place = h.place) :
    SameWake s (s.record f) := ⟨rfl, rfl, rfl, rfl, rfl, hf _, rfl, rfl⟩

/-- Code of the worker that does not steer it. -/
theorem worker_calm {α : Type} {P : Inst → Prop} {c : InstCode α} {R : α → Prop}
    (h : Calm (fun a => a.pthread = 0) R c) : (wakeLogic g).Triple .worker P c fun _ => P :=
  (triple_calm h fun _ hs _ => hs.worker).post fun _ _ _ hs => hs.2

section Place

variable {α : Type} {P : Inst → Prop} (hP : WorkerPlace g P)

include hP

/-- An operation that does not concern the protocol. -/
theorem worker_same {label : InstLabel} {act : Inst → InstReply → Option (α × Inst)}
    (h : ∀ s a b s', act s a = some (b, s') → SameWake s s') :
    (wakeLogic g).Triple .worker P (Code.atomic label act) fun _ => P := by
  refine triple_act (fun _ hs _ hplace => absurd hs.worker hplace) (fun _ => hP.stable) ?_
  intro s a b s' hs hPs hact _
  have hsame := h s a b s' hact
  exact ⟨hsame.acts hs, hP.same hsame hPs⟩

theorem loggerQueueEmpty_triple :
    (wakeLogic g).Triple .worker P (loggerQueueEmpty g) fun _ => P := by
  refine Logic.Triple.bind (worker_calm (load_calm _)) fun pos => worker_same hP ?_
  intro s a b s' hact
  obtain ⟨-, rfl⟩ := Prod.mk.inj (Option.some.inj hact)
  exact SameWake.record _ fun _ => rfl

theorem loadRunning_triple : (wakeLogic g).Triple .worker P loadRunning fun _ => P := by
  refine worker_same hP ?_
  intro s a b s' hact
  obtain ⟨-, rfl⟩ := Prod.mk.inj (Option.some.inj hact)
  exact SameWake.record _ fun _ => rfl

end Place

/-- The condition of the wait loop before `consumer_waiting` is set. -/
theorem nothingToDo_triple :
    (wakeLogic cfg.geometry).Triple .worker Holding (nothingToDo cfg) fun _ => Holding := by
  refine Logic.Triple.bind (loggerQueueEmpty_triple holding_place) fun empty => ?_
  exact Logic.triple_ite (fun _ => loadRunning_triple holding_place) fun _ =>
    Logic.triple_pure fun _ _ hs => hs

/-- The slot of `dequeue_pos`, which nobody else moves. -/
theorem loggerQueueEmpty_covers :
    (wakeLogic g).Triple .worker Armed (loggerQueueEmpty g)
      fun empty s => Armed s ∧ (empty = true → HeadCovered g s) := by
  refine Logic.Triple.bind (Q := fun pos s => Armed s ∧ pos = s.ring.q.dequeuePos)
    (triple_act (fun _ hs _ hplace => absurd hs.worker hplace) ?_ ?_) fun pos =>
    triple_act (fun _ hs _ hplace => absurd hs.worker hplace) ?_ ?_
  · exact fun pos s s' hsees hs =>
      ⟨armed_stable s s' hsees hs.1, hs.2.trans (hsees.2.dequeuePos rfl).symm⟩
  · intro s a b s' hs harmed hact _
    obtain ⟨rfl, rfl⟩ := Prod.mk.inj (Option.some.inj hact)
    exact ⟨⟨hs, fun _ _ => .refl⟩, harmed, rfl⟩
  · exact fun empty s s' hsees hs =>
      ⟨armed_stable s s' hsees hs.1, fun he => headCovered_stable s s' hsees (hs.2 he)⟩
  · intro s a b s' hs hat hact _
    obtain ⟨rfl, rfl⟩ := Prod.mk.inj (Option.some.inj hact)
    have hsame : SameWake s (s.record fun h =>
        { h with reads := h.reads ++ [.head pos (publishedAt g s.ring.q pos)] }) :=
      SameWake.record _ fun _ => rfl
    have harmed : Armed _ := armed_place.same (g := g) hsame hat.1
    refine ⟨hsame.acts hs, harmed, fun hempty => ⟨harmed, fun hhead => ?_⟩⟩
    rw [hsame.head, HeadPublished, ← hat.2] at hhead
    rw [hhead] at hempty
    exact absurd hempty (by rintro ⟨⟩)

/-- The condition of the wait loop after `consumer_waiting` is set. -/
theorem nothingToDo_covers :
    (wakeLogic cfg.geometry).Triple .worker Armed (nothingToDo cfg)
      fun idle s => Armed s ∧ (idle = true → Covered cfg.geometry s) := by
  refine Logic.Triple.bind loggerQueueEmpty_covers fun empty => ?_
  refine Logic.triple_ite (fun hempty => ?_) fun _ => Logic.triple_pure fun _ _ hs => ⟨hs.1, ?_⟩
  · refine triple_act (fun _ hs _ hplace => absurd hs.worker hplace) ?_ ?_
    · exact fun idle s s' hsees hs =>
        ⟨armed_stable s s' hsees hs.1, fun hidle => covered_stable s s' hsees (hs.2 hidle)⟩
    · intro s a b s' hs hat hact _
      obtain ⟨rfl, rfl⟩ := Prod.mk.inj (Option.some.inj hact)
      have hsame : SameWake s (s.record fun h =>
          { h with reads := h.reads ++ [.running s.running] }) := SameWake.record _ fun _ => rfl
      refine ⟨hsame.acts hs, armed_place.same (g := cfg.geometry) hsame hat.1,
        fun hrunning => ?_⟩
      refine ⟨headCovered_place.same hsame (hat.2 hempty), fun hstopped => ?_⟩
      exact absurd (hrunning.symm.trans hstopped) (by rintro ⟨⟩)
  · rintro ⟨⟩

/-- A step of the worker that does not put it to sleep. -/
theorem WorkerStep.of_awake (hplace : s'.history.place = s.history.place)
    (howner : ∀ n, s'.owner .wait = some (.caller n) ↔ s.owner .wait = some (.caller n))
    (harmed : s'.consumerWaiting = s.consumerWaiting ∨ s.owner .wait = some .worker)
    (hawake : Awake s') (hwaitMuError : s'.waitMuError = s.waitMuError)
    (hsyncError : s'.synchronizationError = s.synchronizationError) : WorkerStep g s s' where
  place := hplace
  owner := howner
  armed := harmed
  asleep hw := absurd (hawake.symm.trans hw) (by rintro ⟨⟩)
  waitMuError := hwaitMuError
  synchronizationError := hsyncError

/-- The worker takes `wait_mu` or gives it back. -/
theorem own_step {u : Option InstThread} (hfrom : ∀ n, s.owner .wait ≠ some (.caller n))
    (hto : ∀ n, u ≠ some (.caller n)) (hawake : Awake s) : WorkerStep g s (s.own .wait u) := by
  refine .of_awake rfl (fun n => ?_) (.inl rfl) hawake rfl rfl
  rw [s.own_owner]
  exact iff_of_false (hto n) (hfrom n)

/-- The lock of `wait_mu`, also the one at the end of `pthread_cond_wait`. -/
theorem workerLock_triple {rc : Type} {act : Inst → InstReply → Option (rc × Inst)} {ok : rc}
    (hlock : ∀ s a, Flawless a → act s a =
      if s.owner .wait = none then some (ok, s.own .wait (some .worker)) else none) :
    (wakeLogic g).Triple .worker Awake (Code.atomic .other act)
      fun r s => r = ok ∧ Holding s := by
  refine triple_act (fun _ hs _ hplace => absurd hs.worker hplace) ?_ ?_
  · exact fun r s s' hsees hs => ⟨hs.1, holding_stable s s' hsees hs.2⟩
  · intro s a b s' hs hawake hact hok
    rw [hlock s a hok] at hact
    split at hact
    · rename_i hfree
      obtain ⟨rfl, rfl⟩ := Prod.mk.inj (Option.some.inj hact)
      have hfrom : ∀ n, s.owner .wait ≠ some (.caller n) := by
        rw [hfree]
        rintro n ⟨⟩
      refine ⟨(own_step hfrom ?_ hawake).acts hs, rfl, hawake, s.own_owner _ _⟩
      rintro n ⟨⟩
    · exact absurd hact (by rintro ⟨⟩)

/-- The worker sleeps in `pthread_cond_wait` and comes back with the lock. -/
theorem condWaitQueue_triple :
    (wakeLogic g).Triple .worker (Covered g) condWaitQueue fun rc s => rc = 0 ∧ Holding s := by
  have hat : ∀ {P : Inst → Prop} (s : Inst), WakeInv g s → P s →
      (wakeLogic g).At .worker .other s := fun _ hs _ hplace => absurd hs.worker hplace
  refine Logic.Triple.bind (Q := fun error _ => error = 0) (triple_act hat ?_ ?_) fun error => ?_
  · exact fun _ _ _ _ hs => hs
  · intro s a b s' hs hcovered hact hok
    have hlock := hcovered.head.armed.holding.owner
    rw [if_neg (not_not.mpr hok.2.2)] at hact
    obtain ⟨rfl, rfl⟩ := Prod.mk.inj (Option.some.inj hact)
    refine ⟨WorkerStep.acts ?_ hs, rfl⟩
    refine ⟨rfl, fun n => ?_, .inl rfl, fun _ => ⟨hlock, hcovered.head.armed.consumerWaiting,
      hcovered.head.published, hcovered.stopped⟩, rfl, rfl⟩
    rw [hlock]
    refine iff_of_false ?_ (by rintro ⟨⟩)
    simp only [Inst.own_owner, reduceCtorEq, not_false_eq_true]
  refine Logic.triple_ite (fun herror => Logic.triple_false fun s _ hs => herror hs) fun _ => ?_
  refine Logic.Triple.bind (Q := fun _ => Awake) (triple_act hat (fun _ => awake_stable) ?_)
    fun _ => workerLock_triple fun s a ha => by rw [ha.2.2]
  intro s a b s' hs _ hact _
  split at hact
  · obtain ⟨-, rfl⟩ := Prod.mk.inj (Option.some.inj hact)
    refine ⟨WorkerStep.acts ?_ hs, rfl⟩
    exact .of_awake rfl (fun _ => Iff.rfl) (.inl rfl) rfl rfl rfl
  · exact absurd hact (by rintro ⟨⟩)

/-- A store to `consumer_waiting` under the lock. -/
theorem consumerWaiting_triple (b : Bool) {Q : Inst → Prop}
    (hstable : (wakeLogic g).Stable .worker Q)
    (hQ : ∀ s, Holding s → Q { s with consumerWaiting := b }) :
    (wakeLogic g).Triple .worker Holding (store fun s => { s with consumerWaiting := b })
      fun _ => Q := by
  refine triple_act (fun _ hs _ hplace => absurd hs.worker hplace) (fun _ => hstable) ?_
  intro s a r s' hs hholding hact _
  obtain ⟨-, rfl⟩ := Prod.mk.inj (Option.some.inj hact)
  refine ⟨WorkerStep.acts ?_ hs, hQ s hholding⟩
  exact .of_awake rfl (fun _ => Iff.rfl) (.inr hholding.owner) hholding.awake rfl rfl

theorem waitOnce_triple :
    (wakeLogic cfg.geometry).Triple .worker Holding (waitOnce cfg) fun _ => Holding := by
  refine Logic.Triple.bind nothingToDo_triple fun idle => ?_
  refine Logic.triple_ite (fun _ => Logic.triple_pure fun _ _ hs => hs) fun _ => ?_
  refine Logic.Triple.bind (consumerWaiting_triple true armed_stable ?_) fun _ => ?_
  · exact fun s hs => ⟨⟨hs.awake, hs.owner⟩, rfl⟩
  refine Logic.Triple.bind nothingToDo_covers fun idle => ?_
  refine Logic.triple_ite (fun _ => Logic.triple_pure fun _ _ hs => hs.1.holding) fun hidle => ?_
  refine Logic.Triple.bind (condWaitQueue_triple.pre fun _ _ hs => hs.2 (not_not.mp hidle))
    fun waitRc => ?_
  refine Logic.triple_ite (fun hrc => Logic.triple_false fun s _ hs => hrc hs.1) fun _ => ?_
  exact Logic.triple_pure fun _ _ hs => hs.2

theorem workerWait_triple :
    (wakeLogic cfg.geometry).Triple .worker Awake (workerWait cfg) fun _ => Awake := by
  have hat : ∀ {P : Inst → Prop} (s : Inst), WakeInv cfg.geometry s → P s →
      (wakeLogic cfg.geometry).At .worker .other s := fun _ hs _ hplace => absurd hs.worker hplace
  -- the worker takes the lock and rechecks, and without it the wait does not begin
  refine Logic.Triple.bind (workerLock_triple fun s a ha => if_neg (not_not.mpr ha.1))
    fun lockRc => ?_
  refine Logic.triple_ite (fun hrc => Logic.triple_false fun s _ hs => hrc hs.1) fun _ => ?_
  -- it sleeps again as long as nothing has happened
  refine Logic.Triple.bind (Q := fun _ => Holding) ((Logic.triple_iterate (fun _ => Holding)
    (fun _ _ => hat _) fun _ => ?_).pre fun _ _ hs => hs.2) fun _ => ?_
  · refine Logic.Triple.bind waitOnce_triple fun again => ?_
    cases again with
    | false => exact Logic.triple_pure fun _ _ hs => hs
    | true => exact Logic.triple_pure fun _ _ hs => hs
  refine Logic.Triple.bind (consumerWaiting_triple false holding_stable ?_) fun _ => ?_
  · exact fun s hs => ⟨hs.awake, hs.owner⟩
  -- `running` and the head are read before the lock is given back
  refine Logic.Triple.bind (loadRunning_triple holding_place) fun running => ?_
  refine Logic.Triple.bind (Q := fun _ => Holding) (Logic.triple_ite (fun _ =>
    Logic.triple_pure fun _ _ hs => hs) fun _ => loggerQueueEmpty_triple holding_place)
      fun stop => ?_
  refine Logic.Triple.bind (Q := fun rc s => rc = 0 ∧ Awake s) (triple_act hat ?_ ?_)
    fun unlockRc => ?_
  · exact fun rc s s' hsees hs => ⟨hs.1, awake_stable s s' hsees hs.2⟩
  -- the unlock succeeds in these runs
  · intro s a b s' hs hholding hact hok
    obtain ⟨rfl, rfl⟩ := Prod.mk.inj (Option.some.inj hact)
    rw [Inst.unlocked, if_pos (.inl hok.1), hok.1]
    -- no caller owns the lock of the worker
    have hfrom : ∀ n, s.owner .wait ≠ some (.caller n) := by
      rw [hholding.owner]
      rintro n ⟨⟩
    refine ⟨(own_step hfrom ?_ hholding.awake).acts hs, rfl, hholding.awake⟩
    rintro n ⟨⟩
  refine Logic.triple_ite (fun hrc => Logic.triple_false fun s _ hs => hrc hs.1) fun _ => ?_
  exact Logic.triple_pure fun _ _ hs => hs.2

/-- The worker leaves the ring to the queue; it is awake. -/
theorem ringStep_triple {α : Type} {label : InstLabel} {act : Inst → InstReply → Option (α × Inst)}
    (hact : ∀ s a b s', act s a = some (b, s') → ∃ ring, s' = { s with ring }) :
    (wakeLogic g).Triple .worker Awake (Code.atomic label act) fun _ => Awake := by
  refine triple_act (fun _ hs _ hplace => absurd hs.worker hplace) (fun _ => awake_stable) ?_
  intro s a b s' hs hawake hstep _
  obtain ⟨ring, rfl⟩ := hact s a b s' hstep
  refine ⟨WorkerStep.acts ?_ hs, hawake⟩
  exact .of_awake rfl (fun _ => Iff.rfl) (.inl rfl) hawake rfl rfl

theorem loggerQueueDrain_triple (max : ℕ) :
    (wakeLogic g).Triple .worker Awake (loggerQueueDrain g max) fun _ => Awake := by
  refine Logic.Triple.bind (ringStep_triple ?_) fun _ => Logic.triple_iterate (fun _ => Awake)
    (fun _ _ hs _ hplace => absurd hs.worker hplace) fun _ => (ringStep_triple ?_).post ?_
  · intro s a b s' hact
    obtain ⟨ring, -, heq⟩ := Option.map_eq_some_iff.mp hact
    exact ⟨ring, (Prod.mk.inj heq).2.symm⟩
  · intro s a b s' hact
    obtain ⟨r, -, heq⟩ := Option.map_eq_some_iff.mp hact
    exact ⟨r.2, (Prod.mk.inj heq).2.symm⟩
  · rintro (_ | out) s - hs
    · exact hs
    · exact hs

theorem loggerWorkerMain_triple :
    (wakeLogic cfg.geometry).Triple .worker Awake (loggerWorkerMain cfg) fun _ => Awake := by
  refine Logic.Triple.bind (Q := fun _ => Awake) (Logic.triple_iterate (fun _ => Awake)
    (fun _ _ hs _ hplace => absurd hs.worker hplace) fun _ => ?_) fun _ => ?_
  · refine Logic.Triple.bind (loggerQueueDrain_triple _) fun batch => ?_
    refine Logic.Triple.bind (Q := fun _ => Awake) (Logic.triple_ite (fun _ => workerWait_triple)
      fun _ => ?_) fun again => ?_
    · refine Logic.Triple.bind (worker_calm (emitBatch_calm (fun _ => id) batch))
        fun _ => ?_
      refine Logic.Triple.bind (worker_same awake_place ?_) fun _ => ?_
      · intro s a b s' hact
        obtain ⟨-, rfl⟩ := Prod.mk.inj (Option.some.inj hact)
        exact ⟨rfl, rfl, rfl, rfl, rfl, rfl, rfl, rfl⟩
      refine Logic.Triple.bind (worker_calm (load_calm _)) fun syncError => ?_
      exact Logic.triple_ite (fun _ => Logic.triple_pure fun _ _ hs => hs) fun _ =>
        worker_calm (publishProgress_calm fun _ => id)
    · cases again with
      | false => exact Logic.triple_pure fun _ _ hs => hs
      | true => exact Logic.triple_pure fun _ _ hs => hs
  refine Logic.Triple.bind (worker_calm (finalBroadcast_calm fun _ => id)) fun _ => ?_
  refine worker_same awake_place ?_
  intro s a b s' hact
  obtain ⟨-, rfl⟩ := Prod.mk.inj (Option.some.inj hact)
  exact ⟨rfl, rfl, rfl, rfl, rfl, rfl, rfl, rfl⟩

end Worker

section Correctness

variable {level : LoggerLevel} {sinks : Sinks} {S : System Inst InstReply InstLabel InstThread}

theorem wake_starts : (wakeLogic cfg.geometry).Starts (fun t s => s.history.place t = .away)
    (instStart cfg level sinks) := by
  refine ⟨?_, fun t => ?_⟩
  · exact {
      worker := rfl
      claimed := fun _ hc => absurd hc (by rintro ⟨⟩)
      waiting := fun hw => absurd hw (by rintro ⟨⟩)
      published := fun hw => absurd hw (by rintro ⟨⟩)
      stopped := fun hw => absurd hw (by rintro ⟨⟩)
      waitMuError := rfl
      synchronizationError := rfl }
  · cases t with
    | caller n => exact ⟨Placed n .away, placed_stable, rfl, Logic.triple_pure fun _ _ hs => hs⟩
    | worker =>
      refine ⟨Awake, awake_stable, rfl, ?_⟩
      exact Logic.triple_ite (fun _ => loggerWorkerMain_triple.post fun _ _ hs _ => hs.worker)
        fun _ => Logic.triple_pure fun _ hs _ => hs.worker

/-- No wake-up is lost. In every run in which the lock operations, the signals and the waits
succeed, a worker that sleeps without a signal has nothing to do, unless a producer is between its
publication and its return from `logger_queue_notify_if_waiting`, or a stopper between its store to
`running` and its signal. -/
theorem no_lost_wakeup (h : InstReachable cfg (fun _ _ a _ => Flawless a) level sinks S)
    (hasleep : S.shared.waiter = some false) (hnotify : ∀ t, (S.code t).label ≠ some .notify)
    (hstop : ∀ t, (S.code t).label ≠ some .stop) :
    publishedAt cfg.geometry S.shared.ring.q S.shared.ring.q.dequeuePos = false ∧
      S.shared.running = true := by
  obtain ⟨hinv, hat, hidle⟩ := Logic.sound (M := wakeLogic cfg.geometry) wake_starts
    (fun t call _ => instApi_triple call) h
  have hnobody : ¬ Engaged S.shared := by
    rintro ⟨t, ht⟩
    cases hlabel : (S.code t).label with
    | none => exact ht (hidle t hlabel)
    | some label =>
      rcases hat t label hlabel ht with rfl | rfl
      · exact hnotify t hlabel
      · exact hstop t hlabel
  refine ⟨?_, ?_⟩
  · rw [← Bool.not_eq_true]
    exact fun hhead => hnobody (hinv.published hasleep hhead)
  · rw [← Bool.not_eq_false]
    exact fun hstopped => hnobody (hinv.stopped hasleep hstopped)

/-- The worker finds no record and sleeps. A producer publishes one and wakes it; it emits the
record and sleeps again. -/
def sleepRun : List (Move InstReply InstThread InstCall) :=
  List.replicate 18 (.step .worker granted) ++
    .call (.caller 0) (.vlog sampleCall) :: List.replicate 56 (.step (.caller 0) granted) ++
      List.replicate 156 (.step .worker granted)

theorem no_lost_wakeup_sleepRun : ∃ S : System Inst InstReply InstLabel InstThread,
    S.shared.emittedRecords = 1 ∧ S.shared.waiter = some false ∧
      publishedAt sampleConfig.geometry S.shared.ring.q S.shared.ring.q.dequeuePos = false ∧
      S.shared.running = true := by
  -- the run is evaluated for what the four conditions need
  have hrun : (exec (sysNext (instApi sampleConfig)) (instStart sampleConfig .info sampleSinks)
      sleepRun).map (fun S => (decide (S.shared.emittedRecords = 1 ∧ S.shared.waiter = some false),
        decide ((S.code .worker).label = some .other ∧ (S.code (.caller 0)).label = none))) =
          some (true, true) := by decide +kernel
  obtain ⟨S, hexec, heq⟩ := Option.map_eq_some_iff.mp hrun
  obtain ⟨hshared, hcode⟩ := Prod.mk.inj heq
  obtain ⟨hemitted, hasleep⟩ := of_decide_eq_true hshared
  obtain ⟨hworker, hcaller⟩ := of_decide_eq_true hcode
  -- only the worker and the first caller move, and every answer is flawless
  have hmoves : ∀ m ∈ sleepRun, (m.thread = .worker ∨ m.thread = .caller 0) ∧
      ∀ i a, m = .step i a → Flawless a := by
    intro m hm
    simp only [sleepRun, List.mem_append, List.mem_cons, List.mem_replicate] at hm
    rcases hm with (⟨-, rfl⟩ | rfl | ⟨-, rfl⟩) | ⟨-, rfl⟩
    · exact ⟨.inl rfl, by rintro i a ⟨⟩; exact ⟨rfl, rfl, rfl⟩⟩
    · exact ⟨.inr rfl, by rintro i a ⟨⟩⟩
    · exact ⟨.inr rfl, by rintro i a ⟨⟩; exact ⟨rfl, rfl, rfl⟩⟩
    · exact ⟨.inl rfl, by rintro i a ⟨⟩; exact ⟨rfl, rfl, rfl⟩⟩
  -- so no thread is where the record or the stop is not yet announced
  have hlabel : ∀ t label, (S.code t).label = some label → label = .other := by
    intro t label hat
    cases t with
    | worker => exact Option.some.inj (hat.symm.trans hworker)
    | caller n =>
      by_cases hn : n = 0
      · rw [hn, hcaller] at hat
        cases hat
      · -- no other caller has moved
        have hkept := code_of_exec (i := InstThread.caller n) (fun m hm => ?_) hexec
        · rw [hkept] at hat
          cases hat
        · rcases (hmoves m hm).1 with hthread | hthread <;> rw [hthread]
          · rintro ⟨⟩
          · exact fun heq => hn (InstThread.caller.inj heq).symm
  have hreach : InstReachable sampleConfig (fun _ _ a _ => Flawless a) .info sampleSinks S := by
    refine reachable_of_exec (fun m hm s s' => ?_) hexec
    cases m with
    | call i c => trivial
    | step i a => exact (hmoves _ hm).2 i a rfl
  refine ⟨S, hemitted, hasleep, no_lost_wakeup hreach hasleep (fun t ht => ?_) fun t ht => ?_⟩
  · exact absurd (hlabel t _ ht) (by rintro ⟨⟩)
  · exact absurd (hlabel t _ ht) (by rintro ⟨⟩)

end Correctness

end CLogger.Instance
