import CLogger.Global.Model

/-!
# The steps of the default binding

What the control state of a thread says about the locks it holds, the borrow flag it is responsible
for and the ticket (`ThreadOk`), and the list of effects a step can have (`GlobalStep`). All
invariants are proved from this list.
-/

namespace CLogger

variable {ι Λ : Type}

/-- The call is a reader. -/
def CallEnd.isReader : CallEnd Λ → Bool
  | .reader _ => true
  | .set _ _ => false

namespace GlobalPc

/-- The thread is between locking and unlocking the control mutex. -/
def control : GlobalPc Λ → Bool
  | .setLockCheck _ => true
  | .setCurrent _ => true
  | .setSlot _ => true
  | .setState _ => true
  | .setFlag _ => true
  | .setClose _ => true
  | .setCloseFailed _ => true
  | .setWrlock _ => true
  | .setRollback _ _ => true
  | .setWriteCheck _ => true
  | .setBorrow _ => true
  | .setStore _ => true
  | .setCommit _ => true
  | .setRestore _ => true
  | .setCommitFailed _ => true
  | .unlockLifetime scope => scope.controlLocked
  | .unlockControl scope => scope.controlLocked
  | _ => false

/-- The thread is between taking and releasing the read lock. -/
def read : GlobalPc Λ → Bool
  | .pinCheck _ => true
  | .pinRecheck _ => true
  | .pinSlot _ => true
  | .pinned _ => true
  | .unlockLifetime scope => scope.lifetimeLocked && scope.done.isReader
  | _ => false

/-- The thread is between taking and releasing the write lock. -/
def write : GlobalPc Λ → Bool
  | .setWriteCheck _ => true
  | .setBorrow _ => true
  | .setStore _ => true
  | .setCommit _ => true
  | .setRestore _ => true
  | .setCommitFailed _ => true
  | .unlockLifetime scope => scope.lifetimeLocked && !scope.done.isReader
  | _ => false

/-- The call whose replacement stands in the slot without being published. -/
def window : GlobalPc Λ → Option (SetCall Λ)
  | .setCommit c => some c
  | .setRestore c => some c
  | _ => none

/-- The thread has closed admission and not yet reopened it. -/
def updating : GlobalPc Λ → Bool
  | .setWrlock _ => true
  | .setRollback _ _ => true
  | .setWriteCheck _ => true
  | .setBorrow _ => true
  | .setStore _ => true
  | .setCommit _ => true
  | _ => false

/-- The replacement whose borrow flag the thread has seen clear. -/
def unflagged : GlobalPc Λ → Option Λ
  | .setClose c => c.replacement
  | .setWrlock c => c.replacement
  | .setRollback c _ => c.replacement
  | .setWriteCheck c => c.replacement
  | .setBorrow c => c.replacement
  | _ => none

/-- The instance whose borrow flag the thread has set for its binding or has still to clear. -/
def borrow : GlobalPc Λ → Option Λ
  | .setStore c => c.replacement
  | .setCommit c => c.replacement
  | .setRestore c => c.replacement
  | .setCommitFailed c => c.replacement
  | .unlockLifetime scope => scope.releaseBorrow
  | .unlockControl scope => scope.releaseBorrow
  | .clearBorrow scope => scope.releaseBorrow
  | _ => none

/-- What the current call has done, once it is about to return. -/
def done : GlobalPc Λ → Option (CallEnd Λ)
  | .unlockLifetime scope => some scope.done
  | .unlockControl scope => some scope.done
  | .clearBorrow scope => some scope.done
  | .poisonError scope _ => some scope.done
  | .poisonLoad scope _ => some scope.done
  | .poisonTicket scope _ _ => some scope.done
  | .returned done _ => some done
  | .poisoned done _ => some done
  | _ => none

/-- The ticket a reader has found unchanged under its read lock. -/
def pinnedTicket (pc : GlobalPc Λ) : Option GlobalTicket :=
  match pc with
  | .pinSlot t => some t
  | .pinned t => some t
  | _ =>
    match pc.done with
    | some (.reader t) => t
    | _ => none

end GlobalPc

/-- The instance of the last committed binding. -/
def GlobalSys.bound (s : GlobalSys ι Λ) : Option Λ := s.bindings.getLast?.join

/-- What a call knows of its observed ticket before it holds the control mutex. -/
structure SetCall.Observed (s : GlobalSys ι Λ) (c : SetCall Λ) : Prop where
  seen : (generationOf c.observed).toNat + 1 = c.seen
  seen_le : c.seen ≤ s.bindings.length
  not_stopping : phaseOf c.observed ≠ GlobalPhase.stopping.code
  valid : ∃ p : GlobalPhase, phaseOf c.observed = p.code
  broken : phaseOf c.observed = GlobalPhase.broken.code → s.lockError ≠ 0

/-- The observed ticket is still of the current generation. -/
structure SetCall.Checked (s : GlobalSys ι Λ) (c : SetCall Λ) : Prop where
  seen : (generationOf c.observed).toNat + 1 = c.seen
  seen_eq : c.seen = s.bindings.length
  phase : phaseOf c.observed = GlobalPhase.idle.code ∨ phaseOf c.observed = GlobalPhase.running.code
  running : phaseOf c.observed = GlobalPhase.running.code → s.bound ≠ none

/-- The current binding is the expected one, and the call would change it. -/
structure SetCall.Verified (s : GlobalSys ι Λ) (c : SetCall Λ) : Prop extends c.Checked s where
  bound : s.bound = c.expected
  change : c.expected ≠ c.replacement

/-- Admission is closed, by this call or by poison. -/
structure SetCall.Updating (s : GlobalSys ι Λ) (c : SetCall Λ) : Prop extends c.Verified s where
  not_max : generationOf c.observed ≠ generationMax
  ticket : s.ticket = updatingTicket c.observed ∨ phaseOf s.ticket = GlobalPhase.broken.code

/-- The change of a committed call in the history: the generation after the observed one. -/
structure SetCall.Committed (s : GlobalSys ι Λ) (c : SetCall Λ) : Prop where
  old : s.bindings[(generationOf c.observed).toNat]? = some c.expected
  new : s.bindings[(generationOf c.observed).toNat + 1]? = some c.replacement

/-- A call that ends with result 0 has committed or had nothing to change; a committed call is part
of the history. -/
def CallEnd.Ok (s : GlobalSys ι Λ) (rc : ℤ) : CallEnd Λ → Prop
  | .reader _ => True
  | .set c o => (rc = 0 → o = .committed ∨ c.expected = c.replacement) ∧
      (o = .committed → c.Committed s)

/-- The scope of a call at `finish_result`: a call that ended before its commit has no borrow flag
to clear. -/
structure GlobalScope.Ok (s : GlobalSys ι Λ) (scope : GlobalScope Λ) : Prop where
  done : scope.done.Ok s scope.rc
  clean : ∀ c, scope.done = .set c .early → scope.releaseBorrow = none

/-- What the control state of a thread says about the ticket and the history. -/
def ThreadOk (s : GlobalSys ι Λ) : GlobalPc Λ → Prop
  | .setLock c => c.Observed s
  | .setLockCheck c => c.Observed s
  | .setCurrent c => c.Observed s ∧ phaseOf c.observed ≠ GlobalPhase.broken.code
  | .setSlot c => c.Checked s
  | .setState c => c.Verified s
  | .setFlag c => c.Verified s
  | .setClose c => c.Verified s
  | .setCloseFailed c => c.Verified s
  | .setWrlock c => c.Updating s
  | .setRollback c err => c.Updating s ∧ err ≠ 0
  | .setWriteCheck c => c.Updating s
  | .setBorrow c => c.Updating s
  | .setStore c => c.Updating s
  | .setCommit c => c.Updating s
  | .setRestore c => c.Verified s
  | .setCommitFailed c => c.Verified s
  | .pinRdlock t => phaseOf t = GlobalPhase.running.code
  | .pinCheck t => phaseOf t = GlobalPhase.running.code
  | .pinRecheck t => phaseOf t = GlobalPhase.running.code
  | .unlockLifetime scope => scope.Ok s
  | .unlockControl scope => scope.Ok s
  | .clearBorrow scope => scope.Ok s
  | .poisonError scope err => scope.done.Ok s (-err) ∧ err ≠ 0
  | .poisonLoad scope err => scope.done.Ok s (-err) ∧ s.lockError ≠ 0
  | .poisonTicket scope err t => scope.done.Ok s (-err) ∧ s.lockError ≠ 0 ∧
      (phaseOf t = GlobalPhase.broken.code → phaseOf s.ticket = GlobalPhase.broken.code)
  | .returned done rc => done.Ok s rc
  | .poisoned done rc => done.Ok s rc ∧ phaseOf s.ticket = GlobalPhase.broken.code
  | _ => True

/-- The writes of a call that ended before its commit: none, or the ticket closed and put back, or
closed and then poisoned. -/
def EarlyWrites (lockError : ℤ) (w : List (GlobalWrite Λ)) : Prop :=
  w = [] ∨ (∃ a b, w = [.ticket a b, .ticket b a]) ∨ (lockError ≠ 0 ∧ ∃ a b, w = [.ticket a b])

/-- The writes of a call that is about to return. -/
def CallEnd.WritesOk (lockError : ℤ) (w : List (GlobalWrite Λ)) : CallEnd Λ → Prop
  | .set _ .early => EarlyWrites lockError w
  | _ => True

/-- What the control state of a thread says about the writes of its call. -/
def WritesOk (lockError : ℤ) (w : List (GlobalWrite Λ)) (pc : GlobalPc Λ) : Prop :=
  match pc with
  | .setWrlock c => w = [.ticket c.observed (updatingTicket c.observed)]
  | .setRollback c _ => w = [.ticket c.observed (updatingTicket c.observed)]
  | .setWriteCheck c => w = [.ticket c.observed (updatingTicket c.observed)]
  | .setBorrow c => w = [.ticket c.observed (updatingTicket c.observed)]
  | .setStore _ => True
  | .setCommit _ => True
  | .setRestore _ => True
  | .setCommitFailed _ => True
  | .idle => True
  | _ =>
    match pc.done with
    | some d => d.WritesOk lockError w
    | none => w = []

/-- The threads hold the locks their control states say, and the read-write lock excludes. -/
structure LockInv (s : GlobalSys ι Λ) : Prop where
  control : ∀ i, (s.pc i).control = true → s.control = some i
  read : ∀ i, (s.pc i).read = true → i ∈ s.readers
  write : ∀ i, (s.pc i).write = true → s.writer = some i
  exclusion : s.writer ≠ none → s.readers = ∅

/-- The ticket against the history and the control states of the threads. -/
structure TicketInv (s : GlobalSys ι Λ) : Prop where
  valid : ∃ p : GlobalPhase, phaseOf s.ticket = p.code
  broken : phaseOf s.ticket = GlobalPhase.broken.code → s.lockError ≠ 0
  generation : s.bindings.length = (generationOf s.ticket).toNat + 1
  running : phaseOf s.ticket = GlobalPhase.running.code → s.bound ≠ none
  stopping : phaseOf s.ticket = GlobalPhase.stopping.code →
    s.lockError ≠ 0 ∨ ∃ i, s.control = some i ∧ (s.pc i).updating = true
  thread : ∀ i, ThreadOk s (s.pc i)

/-- The slot holds the committed binding, or the replacement of the one call that is about to
commit. -/
structure SlotInv (s : GlobalSys ι Λ) : Prop where
  window : ∀ i c, (s.pc i).window = some c → s.slot = c.replacement
  bound : (∀ i, (s.pc i).window = none) → s.slot = s.bound

theorem GlobalPc.control_of_window {pc : GlobalPc Λ} {c : SetCall Λ} (h : pc.window = some c) :
    pc.control = true := by
  cases pc <;> first
    | rfl
    | cases h

/-- While a thread holds the control mutex outside the publication window, the slot is the
committed binding. -/
theorem SlotInv.slot_eq_bound {s : GlobalSys ι Λ} (h : SlotInv s) (hlock : LockInv s) {i : ι}
    (hi : (s.pc i).control = true) (hwindow : (s.pc i).window = none) : s.slot = s.bound := by
  refine h.bound fun j => ?_
  cases hj : (s.pc j).window with
  | none => rfl
  | some c =>
    have hown := hlock.control j (GlobalPc.control_of_window hj)
    rw [hlock.control i hi] at hown
    obtain rfl := Option.some.inj hown
    rw [hwindow] at hj
    cases hj

variable [DecidableEq ι] [DecidableEq Λ]

/-- What a step of the binding can do. -/
inductive GlobalStep (s : GlobalSys ι Λ) : GlobalSys ι Λ → Prop where
  /-- A thread starts a call. -/
  | call (i : ι) (pc : GlobalPc Λ) (hfrom : s.pc i = .idle)
      (hto : (∃ e r, pc = .setBegin e r ∧ s.MayBind r) ∨ pc = .pinBegin) :
      GlobalStep s { s with
        pc := Function.update s.pc i pc, writes := Function.update s.writes i [] }
  /-- A thread moves without touching a shared variable. -/
  | move (i : ι) (pc₀ pc : GlobalPc Λ) (hpc : s.pc i = pc₀)
      (hcontrol : pc.control = true → pc₀.control = true)
      (hread : pc.read = true → pc₀.read = true) (hwrite : pc.write = true → pc₀.write = true)
      (hwindow : pc.window = pc₀.window)
      (hupdating : pc₀.updating = true → pc.updating = true ∨ s.lockError ≠ 0)
      (hunflagged : ∀ x, pc.unflagged = some x → pc₀.unflagged = some x ∨ s.borrowed x = false)
      (hborrow : pc.borrow = pc₀.borrow ∨ pc.borrow = none)
      (hbinding : pc.binding = pc₀.binding ∨ pc.binding = none)
      (hpinned : ∀ t, pc.pinnedTicket = some t → pc₀.pinnedTicket = some t ∨
        (s.ticket = t ∧ pc₀ = .pinRecheck t ∧ pc = .pinSlot t))
      (hthread : ThreadOk s pc) (hwrites : WritesOk s.lockError (s.writes i) pc) :
      GlobalStep s (s.move i pc)
  /-- A call locks the control mutex. -/
  | lock (i : ι) (c : SetCall Λ) (hpc : s.pc i = .setLock c) (hfree : s.control = none) :
      GlobalStep s { s with control := some i, pc := Function.update s.pc i (.setLockCheck c) }
  /-- A call closes admission. -/
  | close (i : ι) (c : SetCall Λ) (hpc : s.pc i = .setClose c)
      (hmax : generationOf c.observed ≠ generationMax) (hticket : s.ticket = c.observed) :
      GlobalStep s { s with
        ticket := updatingTicket c.observed
        pc := Function.update s.pc i (.setWrlock c)
        writes := s.log i (.ticket c.observed (updatingTicket c.observed)) }
  /-- A call takes the write lock. -/
  | wrlock (i : ι) (c : SetCall Λ) (hpc : s.pc i = .setWrlock c) (hwriter : s.writer = none)
      (hreaders : s.readers = ∅) :
      GlobalStep s { s with writer := some i, pc := Function.update s.pc i (.setWriteCheck c) }
  /-- A call that did not get the write lock reopens admission. -/
  | rollback (i : ι) (c : SetCall Λ) (err : ℤ) (hpc : s.pc i = .setRollback c err)
      (hticket : s.ticket = updatingTicket c.observed) :
      GlobalStep s { s with
        ticket := c.observed
        pc := Function.update s.pc i (.unlockLifetime ⟨true, false, none, -err, .set c .early⟩)
        writes := s.log i (.ticket (updatingTicket c.observed) c.observed) }
  /-- A call sets the borrow flag of its replacement. -/
  | borrow (i : ι) (c : SetCall Λ) (x : Λ) (hpc : s.pc i = .setBorrow c)
      (hx : c.replacement = some x) :
      GlobalStep s { s with
        borrowed := Function.update s.borrowed x true
        pc := Function.update s.pc i (.setStore c)
        writes := s.log i (.borrowed x true) }
  /-- A call stores its replacement in the slot. -/
  | store (i : ι) (c : SetCall Λ) (hpc : s.pc i = .setStore c) :
      GlobalStep s { s with
        slot := c.replacement
        pc := Function.update s.pc i (.setCommit c)
        writes := s.log i (.slot c.replacement) }
  /-- A call publishes its binding. -/
  | commit (i : ι) (c : SetCall Λ) (hpc : s.pc i = .setCommit c)
      (hticket : s.ticket = updatingTicket c.observed) :
      GlobalStep s { s with
        ticket := nextTicket c.observed (bindingPhase c.replacement)
        pc := Function.update s.pc i
          (.unlockLifetime ⟨true, true, c.expected, 0, .set c .committed⟩)
        bindings := s.bindings ++ [c.replacement]
        writes := s.log i (.ticket (updatingTicket c.observed)
          (nextTicket c.observed (bindingPhase c.replacement))) }
  /-- A call that could not publish restores the slot. -/
  | restore (i : ι) (c : SetCall Λ) (hpc : s.pc i = .setRestore c) :
      GlobalStep s { s with
        slot := c.expected
        pc := Function.update s.pc i (.setCommitFailed c)
        writes := s.log i (.slot c.expected) }
  /-- A reader takes the read lock. -/
  | rdlock (i : ι) (t : GlobalTicket) (hpc : s.pc i = .pinRdlock t) (hwriter : s.writer = none) :
      GlobalStep s { s with
        readers := insert i s.readers, pc := Function.update s.pc i (.pinCheck t) }
  /-- A call releases the lifetime lock, with or without an error. -/
  | unlockLifetime (i : ι) (scope : GlobalScope Λ) (pc : GlobalPc Λ)
      (hpc : s.pc i = .unlockLifetime scope) (hlocked : scope.lifetimeLocked = true)
      (hto : pc = .unlockControl scope ∨ ∃ err, err ≠ 0 ∧ pc = .poisonError scope err) :
      GlobalStep s ((s.releaseLifetime i).move i pc)
  /-- A call releases the control mutex, with or without an error. -/
  | unlockControl (i : ι) (scope : GlobalScope Λ) (pc : GlobalPc Λ)
      (hpc : s.pc i = .unlockControl scope) (hlocked : scope.controlLocked = true)
      (hto : pc = .clearBorrow scope ∨ ∃ err, err ≠ 0 ∧ pc = .poisonError scope err) :
      GlobalStep s { s with control := none, pc := Function.update s.pc i pc }
  /-- A call clears the borrow flag it is responsible for. -/
  | clear (i : ι) (scope : GlobalScope Λ) (x : Λ) (rc : ℤ) (hpc : s.pc i = .clearBorrow scope)
      (hx : scope.releaseBorrow = some x) (hrc : rc = 0 → scope.rc = 0) :
      GlobalStep s { s with
        borrowed := Function.update s.borrowed x false
        pc := Function.update s.pc i (.returned scope.done rc)
        writes := s.log i (.borrowed x false) }
  /-- A call records the error of its unlock. -/
  | poisonError (i : ι) (scope : GlobalScope Λ) (err : ℤ) (hpc : s.pc i = .poisonError scope err) :
      GlobalStep s { s with
        lockError := if s.lockError = 0 then err else s.lockError
        pc := Function.update s.pc i (.poisonLoad scope err) }
  /-- A call breaks the ticket. -/
  | poisonTicket (i : ι) (scope : GlobalScope Λ) (err : ℤ)
      (hpc : s.pc i = .poisonTicket scope err s.ticket) :
      GlobalStep s { s with
        ticket := withPhase s.ticket GlobalPhase.broken.code
        pc := Function.update s.pc i (.poisoned scope.done (-err)) }
  /-- The host creates an instance. -/
  | create (x : Λ) (hdead : s.alive x = false) :
      GlobalStep s { s with
        alive := Function.update s.alive x true
        running := Function.update s.running x true
        borrowed := Function.update s.borrowed x false
        destroying := Function.update s.destroying x false }
  /-- An instance changes its state. -/
  | state (x : Λ) (b : Bool) : GlobalStep s { s with running := Function.update s.running x b }
  /-- `logger_destroy` finds the borrow flag clear. -/
  | destroy (x : Λ) (hflag : s.borrowed x = false) (hbinding : ∀ i, (s.pc i).binding ≠ some x) :
      GlobalStep s { s with destroying := Function.update s.destroying x true }
  /-- `logger_destroy` has disposed of an instance. -/
  | dispose (x : Λ) (hdestroying : s.destroying x = true) :
      GlobalStep s { s with alive := Function.update s.alive x false }

variable {s s' : GlobalSys ι Λ} {i : ι} {ch : GlobalChoice}

omit [DecidableEq ι] [DecidableEq Λ] in
theorem lockErrorOrEio_ne_zero (s : GlobalSys ι Λ) : s.lockErrorOrEio ≠ 0 := by
  unfold GlobalSys.lockErrorOrEio
  split
  · omega
  · decide

/-- Going to `done` before the commit is a move. -/
theorem globalStep_setDone {pc₀ : GlobalPc Λ} {c : SetCall Λ} {locked : Bool} {rc : ℤ}
    (hpc : s.pc i = pc₀) (hlocked : locked = true → pc₀.control = true)
    (hwindow : pc₀.window = none) (hupdating : pc₀.updating = true → s.lockError ≠ 0)
    (hrc : rc = 0 → c.expected = c.replacement)
    (hwrites : EarlyWrites s.lockError (s.writes i)) : GlobalStep s (s.setDone i c locked rc) := by
  refine .move i _ _ hpc hlocked nofun nofun hwindow.symm (fun h => .inr (hupdating h)) nofun
    (.inr rfl) (.inr rfl) nofun ⟨⟨fun h => .inr (hrc h), nofun⟩, fun _ _ => rfl⟩ hwrites

/-- The steps of `logger_default_set`. -/
theorem globalStep_of_set (hlock : LockInv s) (hticket : TicketInv s) (hslot : SlotInv s)
    (hwrites : WritesOk s.lockError (s.writes i) (s.pc i))
    (h : setStep s i ch (s.pc i) = some s') : GlobalStep s s' := by
  have hok := hticket.thread i
  cases hpc : s.pc i with
  -- the entry of a change
  | setBegin e r =>
    rw [hpc] at hwrites
    rw [hpc, setStep] at h
    split_ifs at h with herr hpoison <;> obtain rfl := Option.some.inj h
    · refine .move i _ _ hpc nofun nofun nofun rfl nofun nofun (.inr rfl)
        (.inr rfl) nofun ⟨fun h => absurd h (by omega), nofun⟩ (.inl hwrites)
    · exact globalStep_setDone hpc nofun rfl nofun
        (fun h => absurd h (by omega)) (.inl hwrites)
    · exact .move i _ _ hpc nofun nofun nofun rfl nofun nofun (.inr rfl)
        (.inl rfl) nofun trivial hwrites
  -- the ticket is observed without a lock
  | setObserve e r =>
    rw [hpc] at hwrites
    rw [hpc, setStep] at h
    split_ifs at h with hstop <;> obtain rfl := Option.some.inj h
    · exact globalStep_setDone hpc nofun rfl nofun
        (fun h => absurd h (by decide)) (.inl hwrites)
    · exact .move i _ _ hpc nofun nofun nofun rfl nofun nofun (.inr rfl)
        (.inl rfl) nofun
        ⟨hticket.generation.symm, le_rfl, hstop, hticket.valid, hticket.broken⟩ hwrites
  -- the mutex
  | setLock c =>
    rw [hpc] at hwrites
    rw [hpc, setStep] at h
    split_ifs at h with herr hfree <;> obtain rfl := Option.some.inj h
    · exact globalStep_setDone hpc nofun rfl nofun
        (fun h => absurd h (by omega)) (.inl hwrites)
    · exact .lock i c hpc hfree
  | setLockCheck c =>
    rw [hpc] at hwrites hok
    rw [hpc, setStep] at h
    split_ifs at h with hpoison <;> obtain rfl := Option.some.inj h
    · exact globalStep_setDone hpc (fun _ => rfl) rfl nofun
        (fun h => absurd h (by omega)) (.inl hwrites)
    · exact .move i _ _ hpc (fun _ => rfl) nofun nofun rfl
        nofun nofun (.inr rfl) (.inl rfl) nofun
        ⟨hok, fun h => hpoison (hok.broken h)⟩ hwrites
  -- the checks under the mutex
  | setCurrent c =>
    rw [hpc] at hwrites hok
    rw [hpc, setStep] at h
    split_ifs at h with hstale <;> obtain rfl := Option.some.inj h
    · exact globalStep_setDone hpc (fun _ => rfl) rfl nofun
        (fun h => absurd h (by decide)) (.inl hwrites)
    · have hsame : s.ticket = c.observed := not_not.mp hstale
      refine .move i _ _ hpc (fun _ => rfl) nofun nofun rfl
        nofun nofun (.inr rfl) (.inl rfl) nofun ?_ hwrites
      refine ⟨hok.1.seen, ?_, ?_, fun hrun => hticket.running (hsame ▸ hrun)⟩
      · rw [hticket.generation, hsame]
        exact hok.1.seen.symm
      · obtain ⟨p, hp⟩ := hok.1.valid
        cases p with
        | idle => exact .inl hp
        | running => exact .inr hp
        | stopping => exact absurd hp hok.1.not_stopping
        | broken => exact absurd hp hok.2
  | setSlot c =>
    rw [hpc] at hwrites hok
    rw [hpc, setStep] at h
    split_ifs at h with hstale hsame <;> obtain rfl := Option.some.inj h
    · exact globalStep_setDone hpc (fun _ => rfl) rfl nofun
        (fun h => absurd h (by decide)) (.inl hwrites)
    · exact globalStep_setDone hpc (fun _ => rfl) rfl nofun
        (fun _ => hsame) (.inl hwrites)
    -- the slot and the binding agree outside the window
    · have hbound : s.bound = c.expected := by
        rw [← hslot.slot_eq_bound hlock (i := i) (by rw [hpc]; rfl) (by rw [hpc]; rfl)]
        exact not_not.mp hstale
      exact .move i _ _ hpc (fun _ => rfl) nofun nofun rfl
        nofun nofun (.inr rfl) (.inl rfl) nofun
        ⟨hok, hbound, hsame⟩ hwrites
  | setState c =>
    rw [hpc] at hwrites hok
    rw [hpc, setStep] at h
    split at h
    · rename_i hnone
      obtain rfl := Option.some.inj h
      refine .move i _ _ hpc (fun _ => rfl) nofun nofun rfl
        nofun ?_ (.inr rfl) (.inl rfl) nofun hok hwrites
      intro x hx
      -- an unbinding has no flag to look at
      rw [show c.replacement = some x from hx] at hnone
      cases hnone
    · split_ifs at h <;> obtain rfl := Option.some.inj h
      · exact .move i _ _ hpc (fun _ => rfl) nofun nofun rfl
          nofun nofun (.inr rfl) (.inl rfl) nofun hok hwrites
      · exact globalStep_setDone hpc (fun _ => rfl) rfl
          nofun (fun h => absurd h (by decide)) (.inl hwrites)
  | setFlag c =>
    rw [hpc] at hwrites hok
    rw [hpc, setStep] at h
    split at h
    · rename_i hnone
      obtain rfl := Option.some.inj h
      refine .move i _ _ hpc (fun _ => rfl) nofun nofun rfl
        nofun ?_ (.inr rfl) (.inl rfl) nofun hok hwrites
      intro x hx
      rw [show c.replacement = some x from hx] at hnone
      cases hnone
    · rename_i x hx
      split_ifs at h with hflag <;> obtain rfl := Option.some.inj h
      · exact globalStep_setDone hpc (fun _ => rfl) rfl
          nofun (fun h => absurd h (by decide)) (.inl hwrites)
      · refine .move i _ _ hpc (fun _ => rfl) nofun nofun rfl
          nofun ?_ (.inr rfl) (.inl rfl) nofun hok hwrites
        intro y hy
        obtain rfl : x = y := Option.some.inj (hx.symm.trans hy)
        exact .inr (by simpa using hflag)
  -- the phase is closed by an exchange
  | setClose c =>
    rw [hpc] at hwrites hok
    rw [hpc, setStep] at h
    split_ifs at h with hmax hcas <;> obtain rfl := Option.some.inj h
    · exact globalStep_setDone hpc (fun _ => rfl) rfl
        nofun (fun h => absurd h (by decide)) (.inl hwrites)
    · exact .close i c hpc hmax hcas
    · exact .move i _ _ hpc (fun _ => rfl) nofun nofun rfl
        nofun nofun (.inr rfl) (.inl rfl) nofun hok hwrites
  | setCloseFailed c =>
    rw [hpc] at hwrites
    rw [hpc, setStep] at h
    obtain rfl := Option.some.inj h
    exact globalStep_setDone hpc (fun _ => rfl) rfl nofun
      (fun h => absurd h (lockErrorOrEio_ne_zero s)) (.inl hwrites)
  -- the write lock, with its rollback
  | setWrlock c =>
    rw [hpc] at hwrites hok
    rw [hpc, setStep] at h
    split_ifs at h with herr hfree <;> obtain rfl := Option.some.inj h
    · exact .move i _ _ hpc (fun _ => rfl) nofun nofun rfl
        (fun _ => .inl rfl) (fun x hx => .inl hx) (.inr rfl)
        (.inl rfl) nofun ⟨hok, herr⟩ hwrites
    · exact .wrlock i c hpc hfree.1 hfree.2
  | setRollback c err =>
    rw [hpc] at hwrites hok
    rw [hpc, setStep] at h
    split_ifs at h with hcas <;> obtain rfl := Option.some.inj h
    · have hrestore : withPhase (updatingTicket c.observed) (phaseOf c.observed) = c.observed :=
        withPhase_phaseOf c.observed .stopping
      rw [hrestore]
      exact .rollback i c err hpc hcas
    · have hpoison : s.lockError ≠ 0 := hticket.broken (hok.1.ticket.resolve_left hcas)
      exact globalStep_setDone hpc (fun _ => rfl) rfl (fun _ => hpoison)
        (fun h => absurd h (by have := hok.2; omega)) (.inr (.inr ⟨hpoison, _, _, hwrites⟩))
  -- the second look at the error
  | setWriteCheck c =>
    rw [hpc] at hwrites hok
    rw [hpc, setStep] at h
    split_ifs at h with hpoison <;> obtain rfl := Option.some.inj h
    · exact .move i _ _ hpc (fun _ => rfl) nofun (fun _ => rfl)
        rfl (fun _ => .inr hpoison) nofun (.inr rfl) (.inr rfl) nofun
        ⟨⟨fun h => absurd h (by simpa using hpoison), nofun⟩, fun _ _ => rfl⟩
        (.inr (.inr ⟨hpoison, _, _, hwrites⟩))
    · exact .move i _ _ hpc (fun _ => rfl) nofun (fun _ => rfl)
        rfl (fun _ => .inl rfl) (fun x hx => .inl hx) (.inr rfl)
        (.inl rfl) nofun hok hwrites
  -- the three writes of a change
  | setBorrow c =>
    rw [hpc] at hok
    rw [hpc, setStep] at h
    split at h
    · rename_i hnone
      obtain rfl := Option.some.inj h
      exact .move i _ _ hpc (fun _ => rfl) nofun (fun _ => rfl)
        rfl (fun _ => .inl rfl) nofun (.inr hnone) (.inl rfl) nofun
        hok trivial
    · rename_i x hx
      obtain rfl := Option.some.inj h
      exact .borrow i c x hpc hx
  | setStore c =>
    rw [hpc, setStep] at h
    obtain rfl := Option.some.inj h
    exact .store i c hpc
  | setCommit c =>
    rw [hpc] at hok
    rw [hpc, setStep] at h
    split_ifs at h with hcas <;> obtain rfl := Option.some.inj h
    · exact .commit i c hpc hcas
    -- the exchange fails only when the state has been poisoned
    · exact .move i _ _ hpc (fun _ => rfl) nofun (fun _ => rfl)
        rfl (fun _ => .inr (hticket.broken (hok.ticket.resolve_left hcas))) nofun
        (.inl rfl) (.inl rfl) nofun hok.toVerified trivial
  | setRestore c =>
    rw [hpc, setStep] at h
    obtain rfl := Option.some.inj h
    exact .restore i c hpc
  | setCommitFailed c =>
    rw [hpc, setStep] at h
    obtain rfl := Option.some.inj h
    exact .move i _ _ hpc (fun _ => rfl) nofun (fun _ => rfl)
      rfl nofun nofun (.inl rfl) (.inr rfl) nofun
      ⟨⟨fun h => absurd h (lockErrorOrEio_ne_zero s), nofun⟩, nofun⟩ trivial
  | _ =>
    rw [hpc] at h
    cases h

/-- A reader that gives up before or after taking the read lock. -/
theorem globalStep_pinDone {pc₀ : GlobalPc Λ} {locked : Bool} {rc : ℤ} (hpc : s.pc i = pc₀)
    (hlocked : locked = true → pc₀.read = true) (hwindow : pc₀.window = none)
    (hupdating : pc₀.updating = false) : GlobalStep s (s.pinDone i locked rc) := by
  refine .move i _ _ hpc nofun ?_ ?_ hwindow.symm (fun h => by rw [hupdating] at h; cases h) nofun
    (.inr rfl) (.inr rfl) nofun ⟨trivial, fun _ _ => rfl⟩ trivial
  · intro h
    exact hlocked (by simpa [GlobalPc.read, CallEnd.isReader] using h)
  · intro h
    simp [GlobalPc.write, CallEnd.isReader] at h

/-- The steps of a reader. -/
theorem globalStep_of_pin (hok : ThreadOk s (s.pc i))
    (hwrites : WritesOk s.lockError (s.writes i) (s.pc i))
    (h : pinStep s i ch (s.pc i) = some s') : GlobalStep s s' := by
  cases hpc : s.pc i with
  -- the entry of a reader
  | pinBegin =>
    rw [hpc] at hwrites
    rw [hpc, pinStep] at h
    split_ifs at h <;> obtain rfl := Option.some.inj h
    · exact .move i _ _ hpc nofun nofun nofun rfl nofun nofun (.inr rfl) (.inr rfl) nofun trivial
        trivial
    · exact globalStep_pinDone hpc nofun rfl rfl
    · exact .move i _ _ hpc nofun nofun nofun rfl nofun nofun (.inr rfl) (.inr rfl) nofun trivial
        hwrites
  -- the phase, then the read lock
  | pinLoad =>
    rw [hpc] at hwrites
    rw [hpc, pinStep] at h
    split_ifs at h with hrun <;> obtain rfl := Option.some.inj h
    · exact .move i _ _ hpc nofun nofun nofun rfl nofun nofun (.inr rfl) (.inr rfl) nofun hrun
        hwrites
    · exact globalStep_pinDone hpc nofun rfl rfl
    · exact .move i _ _ hpc nofun nofun nofun rfl nofun nofun (.inr rfl) (.inr rfl) nofun trivial
        hwrites
    · exact globalStep_pinDone hpc nofun rfl rfl
  | pinBroken =>
    rw [hpc, pinStep] at h
    obtain rfl := Option.some.inj h
    exact globalStep_pinDone hpc nofun rfl rfl
  | pinRdlock t =>
    rw [hpc, pinStep] at h
    split_ifs at h with herr hfree <;> obtain rfl := Option.some.inj h
    · exact globalStep_pinDone hpc nofun rfl rfl
    · exact .rdlock i t hpc hfree
  | pinCheck t =>
    rw [hpc] at hok hwrites
    rw [hpc, pinStep] at h
    split_ifs at h <;> obtain rfl := Option.some.inj h
    · exact globalStep_pinDone hpc (fun _ => rfl) rfl rfl
    · exact .move i _ _ hpc nofun (fun _ => rfl) nofun rfl nofun nofun (.inr rfl) (.inr rfl) nofun
        hok hwrites
  -- the second check is the one that pins
  | pinRecheck t =>
    rw [hpc] at hwrites
    rw [hpc, pinStep] at h
    split_ifs at h with hstale <;> obtain rfl := Option.some.inj h
    · exact globalStep_pinDone hpc (fun _ => rfl) rfl rfl
    · refine .move i _ _ hpc nofun (fun _ => rfl) nofun rfl nofun nofun (.inr rfl) (.inr rfl) ?_
        trivial hwrites
      intro t' ht'
      obtain rfl : t = t' := Option.some.inj ht'
      exact .inr ⟨not_not.mp hstale, rfl, rfl⟩
  | pinSlot t =>
    rw [hpc] at hwrites
    rw [hpc, pinStep] at h
    split_ifs at h <;> obtain rfl := Option.some.inj h
    · exact globalStep_pinDone hpc (fun _ => rfl) rfl rfl
    · exact .move i _ _ hpc nofun (fun _ => rfl) nofun rfl nofun nofun (.inr rfl) (.inr rfl)
        (fun _ ht => .inl ht) trivial hwrites
  -- the read lock is given back
  | pinned t =>
    rw [hpc, pinStep] at h
    obtain rfl := Option.some.inj h
    exact .move i _ _ hpc nofun (fun _ => rfl) nofun rfl nofun nofun (.inr rfl) (.inr rfl)
      (fun _ ht => .inl ht) ⟨trivial, fun _ _ => rfl⟩ trivial
  | _ =>
    rw [hpc] at h
    cases h

omit [DecidableEq ι] [DecidableEq Λ] in
/-- A call whose unlock failed has not returned 0. -/
theorem CallEnd.Ok.failed {d : CallEnd Λ} {rc err : ℤ} (h : d.Ok s rc) (herr : err ≠ 0) :
    d.Ok s (-err) := by
  cases d with
  | reader t => trivial
  | set c o => exact ⟨fun h0 => absurd h0 (by omega), h.2⟩

omit [DecidableEq ι] [DecidableEq Λ] in
theorem CallEnd.Ok.of_rc {d : CallEnd Λ} {rc rc' : ℤ} (h : d.Ok s rc) (hrc : rc' = 0 → rc = 0) :
    d.Ok s rc' := by
  cases d with
  | reader t => trivial
  | set c o => exact ⟨fun h0 => h.1 (hrc h0), h.2⟩

/-- The steps of `finish_result` and `global_lock_poison`. -/
theorem globalStep_of_finish (hok : ThreadOk s (s.pc i))
    (hwrites : WritesOk s.lockError (s.writes i) (s.pc i))
    (h : finishStep s i ch (s.pc i) = some s') : GlobalStep s s' := by
  cases hpc : s.pc i with
  -- the three releases of the end
  | unlockLifetime scope =>
    rw [hpc] at hok hwrites
    rw [hpc, finishStep] at h
    split_ifs at h with hlocked herr hreleased <;> obtain rfl := Option.some.inj h
    · exact .unlockLifetime i scope _ hpc hlocked (.inr ⟨_, herr, rfl⟩)
    · exact .move i _ _ hpc nofun nofun nofun rfl nofun nofun (.inr rfl) (.inr rfl)
        (fun _ ht => .inl ht) ⟨hok.done.failed herr, herr⟩ hwrites
    · exact .unlockLifetime i scope _ hpc hlocked (.inl rfl)
    · exact .move i _ _ hpc (fun h => h) nofun nofun rfl nofun nofun (.inl rfl) (.inr rfl)
        (fun _ ht => .inl ht) hok hwrites
  | unlockControl scope =>
    rw [hpc] at hok hwrites
    rw [hpc, finishStep] at h
    split_ifs at h with hlocked herr hreleased <;> obtain rfl := Option.some.inj h
    · exact .unlockControl i scope _ hpc hlocked (.inr ⟨_, herr, rfl⟩)
    · exact .move i _ _ hpc nofun nofun nofun rfl nofun nofun (.inr rfl) (.inr rfl)
        (fun _ ht => .inl ht) ⟨hok.done.failed herr, herr⟩ hwrites
    · exact .unlockControl i scope _ hpc hlocked (.inl rfl)
    · exact .move i _ _ hpc nofun nofun nofun rfl nofun nofun (.inl rfl) (.inr rfl)
        (fun _ ht => .inl ht) hok hwrites
  | clearBorrow scope =>
    rw [hpc] at hok hwrites
    -- an error of the call is not overwritten by that of the gate
    have hrc : (if scope.rc ≠ 0 then scope.rc else -ch.err) = 0 → scope.rc = 0 := by
      intro h0
      by_contra hne
      rw [if_pos hne] at h0
      exact hne h0
    rw [hpc, finishStep] at h
    cases hx : scope.releaseBorrow with
    | none =>
      rw [hx] at h
      obtain rfl := Option.some.inj h
      exact .move i _ _ hpc nofun nofun nofun rfl nofun nofun (.inr rfl) (.inr rfl)
        (fun _ ht => .inl ht) (hok.done.of_rc hrc) hwrites
    | some x =>
      rw [hx] at h
      obtain rfl := Option.some.inj h
      exact .clear i scope x _ hpc hx hrc
  -- the two halves of the poison
  | poisonError scope err =>
    rw [hpc, finishStep] at h
    obtain rfl := Option.some.inj h
    exact .poisonError i scope err hpc
  | poisonLoad scope err =>
    rw [hpc] at hok hwrites
    rw [hpc, finishStep] at h
    obtain rfl := Option.some.inj h
    exact .move i _ _ hpc nofun nofun nofun rfl nofun nofun (.inr rfl) (.inr rfl)
      (fun _ ht => .inl ht) ⟨hok.1, hok.2, fun h => h⟩ hwrites
  | poisonTicket scope err t =>
    rw [hpc] at hok hwrites
    rw [hpc, finishStep] at h
    split_ifs at h with hbroken hcas <;> obtain rfl := Option.some.inj h
    · exact .move i _ _ hpc nofun nofun nofun rfl nofun nofun (.inr rfl) (.inr rfl)
        (fun _ ht => .inl ht) ⟨hok.1, hok.2.2 hbroken⟩ hwrites
    · obtain rfl := hcas.1
      exact .poisonTicket i scope err hpc
    · exact .move i _ _ hpc nofun nofun nofun rfl nofun nofun (.inr rfl) (.inr rfl)
        -- a failed exchange looks at the ticket again
        (fun _ ht => .inl ht) ⟨hok.1, hok.2.1, fun h => h⟩ hwrites
  | _ =>
    rw [hpc] at h
    cases h

/-- Every step of the binding is one of the listed effects. -/
theorem globalStep_of_next (hlock : LockInv s) (hticket : TicketInv s) (hslot : SlotInv s)
    (hwrites : ∀ i, WritesOk s.lockError (s.writes i) (s.pc i)) {a : GlobalAction ι Λ}
    (h : globalNext s a = some s') (hhost : HostSerialises s a s') : GlobalStep s s' := by
  -- the calls enter at `idle`
  cases a with
  | callSet i e r =>
    rw [globalNext] at h
    split at h
    · rename_i hpc
      split_ifs at h with hbind
      obtain rfl := Option.some.inj h
      exact .call i _ hpc (.inl ⟨e, r, rfl, hbind⟩)
    · contradiction
  | callReader i =>
    rw [globalNext] at h
    split at h
    · rename_i hpc
      obtain rfl := Option.some.inj h
      exact .call i _ hpc (.inr rfl)
    · contradiction
  -- a place belongs to one of the three parts
  | step i ch =>
    rw [globalNext] at h
    rcases Option.or_eq_some_iff.mp h with hset | ⟨-, h⟩
    · exact globalStep_of_set hlock hticket hslot (hwrites i) hset
    · rcases Option.or_eq_some_iff.mp h with hpin | ⟨-, hfinish⟩
      · exact globalStep_of_pin (hticket.thread i) (hwrites i) hpin
      · exact globalStep_of_finish (hticket.thread i) (hwrites i) hfinish
  | ret i =>
    rw [globalNext] at h
    split at h
    · rename_i d rc hpc
      obtain rfl := Option.some.inj h
      exact .move i _ _ hpc nofun nofun nofun rfl nofun nofun (.inr rfl) (.inr rfl) nofun trivial
        trivial
    · contradiction
  | create x =>
    rw [globalNext] at h
    split_ifs at h with hdead
    obtain rfl := Option.some.inj h
    exact .create x (by simpa using hdead)
  | state x b =>
    obtain rfl := Option.some.inj h
    exact .state x b
  -- the gate of `destroy` has looked at the flag
  | destroy x =>
    rw [globalNext] at h
    split_ifs at h with hgate
    obtain rfl := Option.some.inj h
    refine .destroy x ?_ hhost
    by_contra hflag
    have hzero := hgate.2
    rw [loggerDestroyGate, if_pos (by simpa using hflag)] at hzero
    exact absurd hzero (by decide)
  | dispose x =>
    rw [globalNext] at h
    split_ifs at h with hdestroying
    obtain rfl := Option.some.inj h
    exact .dispose x hdestroying

end CLogger
