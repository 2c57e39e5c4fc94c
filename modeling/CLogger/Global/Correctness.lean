import CLogger.Global.Borrow

/-!
# Correctness of the default binding

For every interleaving, with arbitrary failures of locks and unlocks: a pinned reader works on the
instance bound at the generation it loaded, and nobody can destroy that instance
(`DefaultSlotSafety`); `logger_default_set` is a compare-and-set on the history of bindings, and a
poisoned binding stays poisoned (`DefaultSetAtomicity`).
-/

namespace CLogger

variable {ι Λ : Type} {s s' : GlobalSys ι Λ}

section Writes

theorem EarlyWrites.mono {e e' : ℤ} {w : List (GlobalWrite Λ)} (h : EarlyWrites e w)
    (he : e ≠ 0 → e' ≠ 0) : EarlyWrites e' w := by
  rcases h with h | h | ⟨herr, h⟩
  · exact .inl h
  · exact .inr (.inl h)
  · exact .inr (.inr ⟨he herr, h⟩)

theorem CallEnd.WritesOk.mono {e e' : ℤ} {w : List (GlobalWrite Λ)} {d : CallEnd Λ}
    (h : d.WritesOk e w) (he : e ≠ 0 → e' ≠ 0) : d.WritesOk e' w := by
  cases d with
  | reader t => trivial
  | set c o =>
    cases o with
    | early => exact EarlyWrites.mono h he
    | unpublished => trivial
    | committed => trivial

theorem WritesOk.mono {e e' : ℤ} {w : List (GlobalWrite Λ)} {pc : GlobalPc Λ}
    (h : WritesOk e w pc) (he : e ≠ 0 → e' ≠ 0) : WritesOk e' w pc := by
  cases pc <;> first
    | exact h
    | exact CallEnd.WritesOk.mono h he

theorem WritesOk.of_done {e : ℤ} {w : List (GlobalWrite Λ)} {pc : GlobalPc Λ} {d : CallEnd Λ}
    (h : WritesOk e w pc) (hd : pc.done = some d) : d.WritesOk e w := by
  cases pc <;> first
    | cases hd; done
    | have hw : CallEnd.WritesOk e w _ := h
      rwa [Option.some.inj hd] at hw

/-- The writes of every call in progress fit its control state. -/
def WriteInv (s : GlobalSys ι Λ) : Prop := ∀ i, WritesOk s.lockError (s.writes i) (s.pc i)

variable [DecidableEq ι]

/-- A step of one thread, with the writes of the other calls unchanged. -/
theorem WriteInv.update (h : WriteInv s) {i : ι} {pc : GlobalPc Λ}
    (hpc : s'.pc = Function.update s.pc i pc) (hother : ∀ j, j ≠ i → s'.writes j = s.writes j)
    (herr : s.lockError ≠ 0 → s'.lockError ≠ 0)
    (hself : WritesOk s'.lockError (s'.writes i) pc) : WriteInv s' := by
  intro j
  rw [hpc]
  refine forall_pc_update (P := fun j pc => WritesOk s'.lockError (s'.writes j) pc) hself ?_ j
  intro j hj
  rw [hother j hj]
  exact (h j).mono herr

/-- Every step keeps `WriteInv`. -/
theorem WriteInv.step [DecidableEq Λ] (h : WriteInv s) (hticket : TicketInv s)
    (hstep : GlobalStep s s') : WriteInv s' := by
  have hlog : ∀ i (w : GlobalWrite Λ) j, j ≠ i → s.log i w j = s.writes j :=
    fun i w j hj => Function.update_of_ne hj _ _
  have hlogself : ∀ i (w : GlobalWrite Λ), s.log i w i = s.writes i ++ [w] :=
    fun i w => Function.update_self _ _ _
  cases hstep with
  -- a call begins with an empty log
  | call i pc hfrom hto =>
    refine h.update rfl (fun j hj => Function.update_of_ne hj _ _) id ?_
    have hnil : Function.update s.writes i [] i = [] := Function.update_self _ _ _
    rcases hto with ⟨e, r, rfl, -⟩ | rfl
    · exact hnil
    · exact hnil
  -- a step that writes nothing keeps the log
  | move i pc₀ pc hpc hcontrol hread hwrite hwindow hupdating hunflagged hborrow hbinding hpinned
      hthread hwrites => exact h.update rfl (fun _ _ => rfl) id hwrites
  | lock i c hpc hfree =>
    have hw := h i
    rw [hpc] at hw
    exact h.update rfl (fun _ _ => rfl) id hw
  | close i c hpc hmax hsame =>
    -- the first write of a call closes the phase
    have hw : s.writes i = [] := by
      have hi := h i
      rwa [hpc] at hi
    refine h.update rfl (hlog i _) id ?_
    exact (hlogself i _).trans (by rw [hw]; rfl)
  | wrlock i c hpc hwriter hreaders =>
    have hw := h i
    rw [hpc] at hw
    exact h.update rfl (fun _ _ => rfl) id hw
  | rollback i c err hpc hsame =>
    -- the second one reopens it
    have hw : s.writes i = [.ticket c.observed (updatingTicket c.observed)] := by
      have hi := h i
      rwa [hpc] at hi
    refine h.update rfl (hlog i _) id
      (.inr (.inl ⟨c.observed, updatingTicket c.observed, ?_⟩))
    exact (hlogself i _).trans (by rw [hw]; rfl)
  -- from here on the call does not count as one that ended early
  | borrow i c x hpc hx => exact h.update rfl (hlog i _) id trivial
  | store i c hpc => exact h.update rfl (hlog i _) id trivial
  | commit i c hpc hsame => exact h.update rfl (hlog i _) id trivial
  | restore i c hpc => exact h.update rfl (hlog i _) id trivial
  | rdlock i t hpc hwriter =>
    have hw := h i
    rw [hpc] at hw
    exact h.update rfl (fun _ _ => rfl) id hw
  | unlockLifetime i scope pc hpc hlocked hto =>
    have hw := h i
    rw [hpc] at hw
    refine h.update rfl (fun _ _ => rfl) id ?_
    rcases hto with rfl | ⟨err, -, rfl⟩
    · exact hw
    · exact hw
  | unlockControl i scope pc hpc hlocked hto =>
    have hw := h i
    rw [hpc] at hw
    refine h.update rfl (fun _ _ => rfl) id ?_
    rcases hto with rfl | ⟨err, -, rfl⟩
    · exact hw
    · exact hw
  | clear i scope x rc hpc hx hrc =>
    -- A call with a flag to clear did not end before its commit.
    have hok := hticket.thread i
    rw [hpc] at hok
    refine h.update rfl (hlog i _) id ?_
    cases hdone : scope.done with
    | reader t => trivial
    | set c o =>
      cases o with
      | early =>
        rw [hok.clean c hdone] at hx
        cases hx
      | unpublished => trivial
      | committed => trivial
  | poisonError i scope err hpc =>
    have hw := h i
    rw [hpc] at hw
    have hok := hticket.thread i
    rw [hpc] at hok
    -- the first error stays
    have herr : (if s.lockError = 0 then err else s.lockError) ≠ 0 := by
      split
      · exact hok.2
      · assumption
    exact h.update rfl (fun _ _ => rfl) (fun _ => herr) (CallEnd.WritesOk.mono hw fun _ => herr)
  | poisonTicket i scope err hpc =>
    have hw := h i
    rw [hpc] at hw
    exact h.update rfl (fun _ _ => rfl) id hw
  | create x hdead => exact h
  | state x b => exact h
  | destroy x hflag hbinding => exact h
  | dispose x hdestroying => exact h

end Writes

/-- The invariants of the default binding. -/
structure GlobalInv (s : GlobalSys ι Λ) : Prop where
  lock : LockInv s
  ticket : TicketInv s
  slot : SlotInv s
  pin : PinInv s
  borrow : BorrowInv s
  writes : WriteInv s

theorem GlobalInv.init (ι Λ : Type) : GlobalInv (GlobalSys.init ι Λ) where
  lock := ⟨nofun, nofun, nofun, fun h => absurd rfl h⟩
  ticket := by
    have hphase : phaseOf 0#64 = GlobalPhase.idle.code := by decide
    have hne : ∀ p : GlobalPhase, p ≠ .idle → phaseOf 0#64 ≠ p.code := fun p hp heq =>
      hp (GlobalPhase.code_inj.mp (heq.symm.trans hphase))
    have hgen : 1 = (generationOf 0#64).toNat + 1 := by decide
    exact ⟨⟨.idle, hphase⟩, fun h => absurd h (hne .broken nofun), hgen,
      fun h => absurd h (hne .running nofun), fun h => absurd h (hne .stopping nofun),
      fun _ => trivial⟩
  slot := ⟨nofun, fun _ => rfl⟩
  pin := nofun
  borrow := by
    have hnone : ∀ o x, ¬(GlobalSys.init ι Λ).Holds o x := by
      rintro (_ | i) x ho
      · cases ho
      · cases ho
    exact ⟨exclusive_of_unique fun x o o' ho => absurd ho (hnone o x),
      fun o x ho => absurd ho (hnone o x), fun o x ho => absurd ho (hnone o x), nofun, nofun⟩
  writes _ := trivial

variable [DecidableEq ι] [DecidableEq Λ]

/-- Every step of the threads and of a host that keeps its promise is one of the listed effects. -/
theorem GlobalInv.globalStep (h : GlobalInv s) {a : GlobalAction ι Λ}
    (hnext : globalNext s a = some s') (hhost : HostSerialises s a s') : GlobalStep s s' :=
  globalStep_of_next h.lock h.ticket h.slot h.writes hnext hhost

theorem GlobalInv.step (h : GlobalInv s) (hstep : GlobalStep s s') : GlobalInv s' where
  lock := h.lock.step hstep
  ticket := h.ticket.step h.lock hstep
  slot := h.slot.step h.lock h.ticket hstep
  pin := h.pin.step h.lock h.ticket hstep
  borrow := h.borrow.step h.lock h.ticket hstep
  writes := h.writes.step h.ticket hstep

/-- The invariants hold in every reachable state. -/
theorem GlobalReachable.inv (h : GlobalReachable s) : GlobalInv s := by
  refine TransitionSystem.Reachable.invariant (I := GlobalInv) (.init ι Λ) ?_ h
  intro s a s' _ hinv hnext hhost
  exact hinv.step (hinv.globalStep hnext hhost)

/-- The history of bindings only grows, and a broken ticket never changes. -/
theorem GlobalStep.history (hinv : GlobalInv s) (hstep : GlobalStep s s') :
    s.bindings <+: s'.bindings ∧
      (phaseOf s.ticket = GlobalPhase.broken.code →
        s'.ticket = s.ticket ∧ s'.bindings = s.bindings) := by
  have hcalm : ∀ c : SetCall Λ, s.ticket = updatingTicket c.observed →
      phaseOf s.ticket ≠ GlobalPhase.broken.code := by
    intro c hsame
    rw [hsame, updatingTicket_phase]
    exact phase_ne_broken nofun
  cases hstep with
  | close i c hpc hmax hsame =>
    refine ⟨List.prefix_rfl, fun hbroken => ?_⟩
    have hok := hinv.ticket.thread i
    rw [hpc] at hok
    rw [hsame] at hbroken
    rcases hok.phase with hp | hp <;> rw [hp] at hbroken <;>
      exact absurd hbroken (phase_ne_broken nofun)
  | rollback i c err hpc hsame => exact ⟨List.prefix_rfl, fun hb => absurd hb (hcalm c hsame)⟩
  | commit i c hpc hsame => exact ⟨List.prefix_append _ _, fun hb => absurd hb (hcalm c hsame)⟩
  | poisonTicket i scope err hpc =>
    refine ⟨List.prefix_rfl, fun hbroken => ⟨?_, rfl⟩⟩
    refine ticket_ext ?_ (generationOf_withPhase s.ticket .broken)
    rw [hbroken]
    exact phaseOf_withPhase s.ticket .broken
  | _ => exact ⟨List.prefix_rfl, fun _ => ⟨rfl, rfl⟩⟩

/-- The lock error is set once. -/
theorem GlobalStep.lockError_eq (hstep : GlobalStep s s') (h : s.lockError ≠ 0) :
    s'.lockError = s.lockError := by
  cases hstep with
  | poisonError i scope err hpc => exact if_neg h
  | _ => rfl

/-- Along a run the history grows, a set lock error stays, and a broken ticket stays with the
history as it is. -/
theorem GlobalReachable.run (h : GlobalReachable s)
    (hrun : TransitionSystem.Reachable globalNext HostSerialises s s') :
    s.bindings <+: s'.bindings ∧ (s.lockError ≠ 0 → s'.lockError = s.lockError) ∧
      (phaseOf s.ticket = GlobalPhase.broken.code →
        s'.ticket = s.ticket ∧ s'.bindings = s.bindings) := by
  refine TransitionSystem.Reachable.invariant (I := fun s' => s.bindings <+: s'.bindings ∧
    (s.lockError ≠ 0 → s'.lockError = s.lockError) ∧
      (phaseOf s.ticket = GlobalPhase.broken.code →
        s'.ticket = s.ticket ∧ s'.bindings = s.bindings))
    ⟨List.prefix_rfl, fun _ => rfl, fun _ => ⟨rfl, rfl⟩⟩ ?_ hrun
  rintro t a t' hr ⟨hhist, herr, hbroken⟩ hnext hhost
  have hreach : GlobalReachable t := h.trans hr
  have hinv := hreach.inv
  have hstep := hinv.globalStep hnext hhost
  obtain ⟨hgrow, hkeep⟩ := hstep.history hinv
  refine ⟨hhist.trans hgrow, fun h0 => ?_, fun hb => ?_⟩
  · rw [hstep.lockError_eq (by rw [herr h0]; exact h0), herr h0]
  · obtain ⟨ht, hbind⟩ := hbroken hb
    obtain ⟨ht', hbind'⟩ := hkeep (by rw [ht]; exact hb)
    exact ⟨ht'.trans ht, hbind'.trans hbind⟩

section Slot

/-- Thread `i` is a reader that has found its ticket `t` unchanged under the read lock, in
particular one whose `pin` returned 0, and it still holds the lock. -/
def GlobalSys.Pinned (s : GlobalSys ι Λ) (i : ι) (t : GlobalTicket) : Prop :=
  (s.pc i).pinnedTicket = some t ∧ i ∈ s.readers

omit [DecidableEq ι] [DecidableEq Λ] in
/-- While somebody reads, the slot is the committed binding. -/
theorem GlobalInv.slot_eq_bound (h : GlobalInv s) {i : ι} (hi : i ∈ s.readers) :
    s.slot = s.bound := by
  refine h.slot.bound fun j => ?_
  cases hj : (s.pc j).window with
  | none => rfl
  | some c =>
    have hw : (s.pc j).write = true := by
      cases hpc : s.pc j <;> rw [hpc] at hj <;> first
        | rfl
        | cases hj
    have hempty := h.lock.exclusion (by rw [h.lock.write j hw]; exact nofun)
    rw [hempty] at hi
    exact absurd hi (Finset.notMem_empty i)

omit [DecidableEq ι] [DecidableEq Λ] in
/-- The instance in the slot is the committed binding or the replacement of a committing call, and
either way its flag is held. -/
theorem GlobalInv.holds_slot (h : GlobalInv s) {x : Λ} (hx : s.slot = some x) :
    s.Holds none x ∨ ∃ j c, (s.pc j).window = some c ∧ s.Holds (some j) x := by
  by_cases hwin : ∀ j, (s.pc j).window = none
  · left
    rw [GlobalSys.Holds, ← h.slot.bound hwin]
    exact hx
  · right
    push Not at hwin
    obtain ⟨j, hj⟩ := hwin
    obtain ⟨c, hc⟩ := Option.ne_none_iff_exists'.mp hj
    refine ⟨j, c, hc, ?_⟩
    rw [h.slot.window j c hc] at hx
    cases hpc : s.pc j <;> rw [hpc] at hc <;> cases hc
    · rw [GlobalSys.Holds, hpc]
      exact hx
    · rw [GlobalSys.Holds, hpc]
      exact hx

omit [DecidableEq ι] [DecidableEq Λ] in
/-- A pinned reader's instance, its generation and its flag. -/
theorem GlobalInv.pinned_slot (h : GlobalInv s) {i : ι} {t : GlobalTicket} (hpin : s.Pinned i t) :
    ∃ x, s.slot = some x ∧ s.bindings[(generationOf t).toNat]? = some (some x) ∧
      s.borrowed x = true ∧ s.alive x = true ∧ loggerDestroyGate s x = -ebusy := by
  obtain ⟨-, hgen, hsome⟩ := h.pin i t hpin.1 hpin.2
  obtain ⟨x, hx⟩ := Option.ne_none_iff_exists'.mp hsome
  have hhold : s.Holds none x := hx
  have hflag := h.borrow.flag none x hhold
  refine ⟨x, (h.slot_eq_bound hpin.2).trans hx, ?_, hflag, (h.borrow.alive none x hhold).1, ?_⟩
  · -- The generation of the ticket is the last one of the history.
    have hlast : s.bindings.length - 1 = (generationOf s.ticket).toNat := by
      rw [h.ticket.generation, Nat.add_sub_cancel]
    rw [GlobalSys.bound, List.getLast?_eq_getElem?, hlast] at hx
    rw [hgen]
    exact Option.join_eq_some_iff.mp hx
  · rw [loggerDestroyGate, if_pos hflag]

/-- While somebody reads, the slot does not change. -/
theorem GlobalStep.slot_eq (hinv : GlobalInv s) (hstep : GlobalStep s s') {i : ι}
    (hi : i ∈ s.readers) : s'.slot = s.slot := by
  have hno : ∀ j, (s.pc j).write = true → False := by
    intro j hj
    have hempty := hinv.lock.exclusion (by rw [hinv.lock.write j hj]; exact nofun)
    rw [hempty] at hi
    exact absurd hi (Finset.notMem_empty i)
  cases hstep with
  | store j c hpc => exact (hno j (by rw [hpc]; rfl)).elim
  | restore j c hpc => exact (hno j (by rw [hpc]; rfl)).elim
  | _ => rfl

/-- What readers of the default binding can rely on. -/
structure DefaultSlotSafety (s : GlobalSys ι Λ) : Prop where
  /-- A pinned reader finds the instance bound at the generation of its ticket; the instance is
  alive and borrowed, so that `logger_destroy` refuses it. -/
  pinned : ∀ i t, s.Pinned i t → ∃ x, s.slot = some x ∧
    s.bindings[(generationOf t).toNat]? = some (some x) ∧ s.borrowed x = true ∧
      s.alive x = true ∧ loggerDestroyGate s x = -ebusy
  /-- The slot does not change under a pinned reader. -/
  stable : ∀ i t a s', s.Pinned i t → globalNext s a = some s' → HostSerialises s a s' →
    s'.slot = s.slot
  /-- Whatever stands in the slot is borrowed. -/
  slot_borrowed : ∀ x, s.slot = some x → s.borrowed x = true
  /-- Once `logger_default_set(old, new)` has returned 0 with `old ≠ new`, its binding follows the
  old one in the history, and neither now nor later is a reader pinned on the old generation. -/
  replaced : ∀ i c o, s.pc i = .returned (.set c o) 0 → c.expected ≠ c.replacement →
    s.bindings[(generationOf c.observed).toNat]? = some c.expected ∧
    s.bindings[(generationOf c.observed).toNat + 1]? = some c.replacement ∧
    ∀ s' j t, TransitionSystem.Reachable globalNext HostSerialises s s' → s'.Pinned j t →
      (generationOf c.observed).toNat < (generationOf t).toNat
  /-- The flag that `finish_result` is about to clear protects neither the slot, nor the committed
  binding, nor a binding in progress. -/
  clearing : ∀ i scope x, s.pc i = .clearBorrow scope → scope.releaseBorrow = some x →
    s.slot ≠ some x ∧ s.bound ≠ some x ∧ ∀ j, j ≠ i → (s.pc j).borrow ≠ some x

/-- The default slot is safe in every reachable state, whatever locks and unlocks fail. -/
theorem default_slot_safety (h : GlobalReachable s) : DefaultSlotSafety s := by
  have hinv := h.inv
  refine ⟨fun i t => hinv.pinned_slot, ?_, ?_, ?_, ?_⟩
  -- the slot of a pinned reader does not change
  · intro i t a s' hpin hnext hhost
    exact (hinv.globalStep hnext hhost).slot_eq hinv hpin.2
  -- the instance in the slot has its flag set
  · intro x hx
    rcases hinv.holds_slot hx with hhold | ⟨j, c, -, hhold⟩
    · exact hinv.borrow.flag none x hhold
    · exact hinv.borrow.flag (some j) x hhold
  -- a committed change is in the history at its generation
  · intro i c o hpc hchange
    have hok := hinv.ticket.thread i
    rw [hpc] at hok
    obtain ⟨hold, hnew⟩ := hok.2 ((hok.1 rfl).resolve_right hchange)
    refine ⟨hold, hnew, fun s' j t hrun hpin => ?_⟩
    -- The pinned ticket is of the current generation, which is past the committed change.
    have hreach : GlobalReachable s' := h.trans hrun
    have hgen := (hreach.inv.pin j t hpin.1 hpin.2).2.1
    have hlen := hreach.inv.ticket.generation
    have hlt := (List.getElem?_eq_some_iff.mp hnew).1
    have hgrow := (h.run hrun).1.length_le
    rw [hgen]
    omega
  -- the flag that is about to be cleared belongs to no one else
  · intro i scope x hpc hx
    have hhold : s.Holds (some i) x := by rw [GlobalSys.Holds, hpc]; exact hx
    have hunique : ∀ o, s.Holds o x → o = some i := fun o ho =>
      hinv.borrow.exclusive.unique x o (some i) ho hhold
    refine ⟨fun hslot => ?_, fun hbound => ?_, fun j hj hb => ?_⟩
    -- an instance in the slot is the binding's or the one of a call in its window
    · rcases hinv.holds_slot hslot with hother | ⟨j, c, hwin, hother⟩
      · cases hunique none hother
      · obtain rfl := Option.some.inj (hunique (some j) hother)
        rw [hpc] at hwin
        cases hwin
    · cases hunique none hbound
    · exact hj (Option.some.inj (hunique (some j) hb))

omit [DecidableEq ι] [DecidableEq Λ] in
theorem hostSerialises_of_ne {a : GlobalAction ι Λ} (h : ∀ x, a ≠ .destroy x)
    (s s' : GlobalSys ι Λ) : HostSerialises s a s' := by
  cases a with
  | destroy x => exact absurd rfl (h x)
  | _ => trivial

/-- A successful step with no environment decision. -/
def plainChoice : GlobalChoice := ⟨0, false, false, 0⟩

/-- Thread `false` binds an instance and thread `true` is pinned on it. -/
def bindAndPinRun : List (GlobalAction Bool Unit) :=
  .create () :: .callSet false none (some ()) :: List.replicate 17 (.step false plainChoice) ++
    .callReader true :: List.replicate 6 (.step true plainChoice)

theorem bindAndPinRun_reaches :
    ((TransitionSystem.exec globalNext (.init Bool Unit) bindAndPinRun).map fun s =>
      (s.slot, (s.pc true).pinnedTicket, decide (true ∈ s.readers), s.bindings)) =
      some (some (), some 9#64, true, [none, some ()]) := by
  decide

theorem default_slot_safety_pinned : ∃ s : GlobalSys Bool Unit, s.Pinned true 9#64 ∧
    s.slot = some () ∧ DefaultSlotSafety s := by
  obtain ⟨s, hexec, hs⟩ := Option.map_eq_some_iff.mp bindAndPinRun_reaches
  have hreach : GlobalReachable s := TransitionSystem.reachable_of_exec
    (fun a ha s s' => hostSerialises_of_ne (by
      rintro x rfl
      simp [bindAndPinRun] at ha) s s') hexec
  simp only [Prod.mk.injEq, decide_eq_true_eq] at hs
  exact ⟨s, ⟨hs.2.1, hs.2.2.1⟩, hs.1, default_slot_safety hreach⟩

end Slot

section Set

/-- A step that logs no write leaves slot, borrow flags and ticket alone, poison apart. -/
theorem GlobalStep.of_writes_eq (hstep : GlobalStep s s') (h : s'.writes = s.writes) :
    s'.slot = s.slot ∧ (∀ x, s.alive x = true → s'.borrowed x = s.borrowed x) ∧
      (s'.ticket = s.ticket ∨ s'.ticket = withPhase s.ticket GlobalPhase.broken.code) := by
  have hlog : ∀ i (w : GlobalWrite Λ), s.log i w ≠ s.writes := by
    intro i w heq
    have := congrFun heq i
    rw [GlobalSys.log, Function.update_self] at this
    simp at this
  cases hstep with
  | close i c hpc hmax hsame => exact absurd h (hlog i _)
  | rollback i c err hpc hsame => exact absurd h (hlog i _)
  | borrow i c x hpc hx => exact absurd h (hlog i _)
  | store i c hpc => exact absurd h (hlog i _)
  | commit i c hpc hsame => exact absurd h (hlog i _)
  | restore i c hpc => exact absurd h (hlog i _)
  | clear i scope x rc hpc hx hrc => exact absurd h (hlog i _)
  | poisonTicket i scope err hpc => exact ⟨rfl, fun _ _ => rfl, .inr rfl⟩
  | create x hdead =>
    refine ⟨rfl, fun y hy => ?_, .inl rfl⟩
    have hne : y ≠ x := by
      rintro rfl
      rw [hy] at hdead
      cases hdead
    exact Function.update_of_ne hne _ _
  | _ => exact ⟨rfl, fun _ _ => rfl, .inl rfl⟩

/-- The write `w` leads from `s` to `s'`: it changes its own variable, and keeps the other two. -/
def GlobalWrite.Leads (s s' : GlobalSys ι Λ) : GlobalWrite Λ → Prop
  | .ticket old new =>
    s.ticket = old ∧ s'.ticket = new ∧ s'.slot = s.slot ∧ s'.borrowed = s.borrowed
  | .slot value => s'.slot = value ∧ s'.ticket = s.ticket ∧ s'.borrowed = s.borrowed
  | .borrowed x value => s'.borrowed = Function.update s.borrowed x value ∧
      s'.ticket = s.ticket ∧ s'.slot = s.slot

/-- The write that a step adds to a log is what the step does. -/
theorem GlobalStep.leads (hstep : GlobalStep s s') {i : ι} {w : GlobalWrite Λ}
    (h : s'.writes i = s.writes i ++ [w]) : w.Leads s s' := by
  have hkept : s.writes i ≠ s.writes i ++ [w] := by simp
  have hlog (j : ι) (w' : GlobalWrite Λ) (heq : s.log j w' i = s.writes i ++ [w]) : w' = w := by
    by_cases hij : i = j
    · rw [GlobalSys.log, hij, Function.update_self] at heq
      simpa using heq
    · rw [GlobalSys.log, Function.update_of_ne hij] at heq
      exact absurd heq hkept
  cases hstep with
  | call j pc hfrom hto =>
    change Function.update s.writes j [] i = s.writes i ++ [w] at h
    by_cases hij : i = j
    · rw [hij, Function.update_self] at h
      simp at h
    · rw [Function.update_of_ne hij] at h
      exact absurd h hkept
  | close j c hpc hmax hsame => exact hlog j _ h ▸ ⟨hsame, rfl, rfl, rfl⟩
  | rollback j c err hpc hsame => exact hlog j _ h ▸ ⟨hsame, rfl, rfl, rfl⟩
  | borrow j c x hpc hx => exact hlog j _ h ▸ ⟨rfl, rfl, rfl⟩
  | store j c hpc => exact hlog j _ h ▸ ⟨rfl, rfl, rfl⟩
  | commit j c hpc hsame => exact hlog j _ h ▸ ⟨hsame, rfl, rfl, rfl⟩
  | restore j c hpc => exact hlog j _ h ▸ ⟨rfl, rfl, rfl⟩
  | clear j scope x rc hpc hx hrc => exact hlog j _ h ▸ ⟨rfl, rfl, rfl⟩
  | _ => exact absurd h hkept

/-- The generation changes only in a commit, and there by one. -/
theorem GlobalStep.generation (hinv : GlobalInv s) (hstep : GlobalStep s s') :
    (s'.bindings = s.bindings ∧ generationOf s'.ticket = generationOf s.ticket) ∨
      ∃ i c, s.pc i = .setCommit c ∧ s.bound = c.expected ∧ c.seen = s.bindings.length ∧
        s'.bindings = s.bindings ++ [c.replacement] ∧ s'.slot = c.replacement ∧
          (generationOf s'.ticket).toNat = (generationOf s.ticket).toNat + 1 := by
  cases hstep with
  | close i c hpc hmax hsame =>
    exact .inl ⟨rfl, (updatingTicket_generation c.observed).trans (by rw [hsame])⟩
  | rollback i c err hpc hsame =>
    refine .inl ⟨rfl, ?_⟩
    rw [hsame]
    exact (updatingTicket_generation c.observed).symm
  | commit i c hpc hsame =>
    have hok : c.Updating s := by
      have hthread := hinv.ticket.thread i
      rwa [hpc] at hthread
    refine .inr ⟨i, c, hpc, hok.bound, hok.seen_eq, rfl,
      hinv.slot.window i c (by rw [hpc]; rfl), ?_⟩
    rw [hsame, updatingTicket_generation]
    exact generationOf_nextTicket _ hok.not_max
  | poisonTicket i scope err hpc => exact .inl ⟨rfl, generationOf_withPhase s.ticket .broken⟩
  | _ => exact .inl ⟨rfl, rfl⟩

/-- What `logger_default_set` guarantees as a compare-and-set. -/
structure DefaultSetAtomicity (s : GlobalSys ι Λ) : Prop where
  /-- The generation counts the committed changes. -/
  generation : s.bindings.length = (generationOf s.ticket).toNat + 1
  /-- A step changes the binding only as the commit of a call that expected the current binding,
  with no other change since the call observed the ticket; the generation grows by exactly one. -/
  commit : ∀ a s', globalNext s a = some s' → HostSerialises s a s' →
    (s'.bindings = s.bindings ∧ generationOf s'.ticket = generationOf s.ticket) ∨
      ∃ i c, s.pc i = .setCommit c ∧ s.bound = c.expected ∧ c.seen = s.bindings.length ∧
        s'.bindings = s.bindings ++ [c.replacement] ∧ s'.slot = c.replacement ∧
          (generationOf s'.ticket).toNat = (generationOf s.ticket).toNat + 1
  /-- At the last generation the call ends with `-EOVERFLOW`. -/
  exhausted : ∀ i c ch s', s.pc i = .setClose c → generationOf c.observed = generationMax →
    globalNext s (.step i ch) = some s' → s' = s.setDone i c true (-eoverflow)
  /-- Every write of a call to slot, borrow flags and ticket is in its log, poison apart. -/
  logged : ∀ a s', globalNext s a = some s' → HostSerialises s a s' → s'.writes = s.writes →
    s'.slot = s.slot ∧ (∀ x, s.alive x = true → s'.borrowed x = s.borrowed x) ∧
      (s'.ticket = s.ticket ∨ s'.ticket = withPhase s.ticket GlobalPhase.broken.code)
  /-- What is added to a log is the write that the step does. -/
  entry : ∀ a s' i w, globalNext s a = some s' → HostSerialises s a s' →
    s'.writes i = s.writes i ++ [w] → w.Leads s s'
  /-- A call that ends before its commit has written neither slot nor borrow flags, and without
  poison it has put back the ticket it closed. -/
  early : ∀ i c, (s.pc i).done = some (.set c .early) →
    (∀ w ∈ s.writes i, ∃ a b, w = .ticket a b) ∧
      (s.lockError = 0 → s.writes i = [] ∨ ∃ a b, s.writes i = [.ticket a b, .ticket b a])
  /-- Without poison the phase is `STOPPING` only while a call holds the control mutex. -/
  stopping : s.lockError = 0 → phaseOf s.ticket = GlobalPhase.stopping.code →
    ∃ i, s.control = some i ∧ (s.pc i).updating = true
  /-- Once set, the lock error never changes. -/
  lock_error : s.lockError ≠ 0 → ∀ s',
    TransitionSystem.Reachable globalNext HostSerialises s s' → s'.lockError = s.lockError
  /-- When a poisoning call has returned, the ticket is broken. -/
  poisoned : ∀ i d rc, s.pc i = .poisoned d rc → phaseOf s.ticket = GlobalPhase.broken.code
  /-- A broken ticket is never left, and no change is committed any more. -/
  broken : phaseOf s.ticket = GlobalPhase.broken.code → ∀ s',
    TransitionSystem.Reachable globalNext HostSerialises s s' →
      s'.ticket = s.ticket ∧ s'.bindings = s.bindings
  /-- With a broken ticket no reader is admitted, neither at its first look at the ticket nor at
  the second. -/
  closed : phaseOf s.ticket = GlobalPhase.broken.code → ∀ i ch s' t,
    globalNext s (.step i ch) = some s' →
      (s.pc i = .pinLoad → s'.pc i = .pinBroken) ∧
        (s.pc i = .pinRecheck t → phaseOf t = GlobalPhase.running.code ∧
          s' = s.pinDone i true (-eshutdown))

omit [DecidableEq Λ] in
theorem move_pc (s : GlobalSys ι Λ) (i : ι) (pc : GlobalPc Λ) : (s.move i pc).pc i = pc :=
  Function.update_self _ _ _

/-- `logger_default_set` is a compare-and-set on the history of bindings in every reachable state,
whatever locks and unlocks fail. -/
theorem default_set_atomicity (h : GlobalReachable s) : DefaultSetAtomicity s := by
  have hinv := h.inv
  refine ⟨hinv.ticket.generation, ?_, ?_, ?_, ?_, ?_, ?_, ?_, ?_, ?_, ?_⟩
  · intro a s' hnext hhost
    exact (hinv.globalStep hnext hhost).generation hinv
  -- the largest generation is an overflow
  · intro i c ch s' hpc hmax hnext
    rw [globalNext, hpc, setStep, if_pos hmax] at hnext
    exact (Option.some.inj hnext).symm
  · intro a s' hnext hhost
    exact (hinv.globalStep hnext hhost).of_writes_eq
  · intro a s' i w hnext hhost
    exact (hinv.globalStep hnext hhost).leads
  -- what a call that ended early has written
  · intro i c hdone
    have hearly : EarlyWrites s.lockError (s.writes i) := (hinv.writes i).of_done hdone
    rcases hearly with hnil | ⟨a, b, hw⟩ | ⟨herr, a, b, hw⟩
    · rw [hnil]
      exact ⟨fun _ hmem => absurd hmem List.not_mem_nil, fun _ => .inl rfl⟩
    · rw [hw]
      exact ⟨by simp, fun _ => .inr ⟨a, b, rfl⟩⟩
    · rw [hw]
      exact ⟨by simp, fun h0 => absurd h0 herr⟩
  -- without an error the phase is stopping only during a change
  · intro h0 hstop
    exact (hinv.ticket.stopping hstop).resolve_left (not_not.mpr h0)
  -- an error stays, and so does a broken phase
  · intro herr s' hrun
    exact (h.run hrun).2.1 herr
  · intro i d rc hpc
    have hok := hinv.ticket.thread i
    rw [hpc] at hok
    exact hok.2
  · intro hbroken s' hrun
    exact (h.run hrun).2.2 hbroken
  -- a broken state answers every change and every reader with an error
  · intro hbroken i ch s' t hnext
    have hne : ∀ p : GlobalPhase, p ≠ .broken → phaseOf s.ticket ≠ p.code := fun p hp heq =>
      hp (GlobalPhase.code_inj.mp (heq.symm.trans hbroken))
    -- a new reader finds the phase broken
    refine ⟨fun hpc => ?_, fun hpc => ?_⟩
    · rw [globalNext, hpc] at hnext
      simp only [setStep, pinStep, Option.none_or, if_neg (hne .running (by rintro ⟨⟩)),
        if_neg (hne .stopping (by rintro ⟨⟩)), if_pos hbroken, Option.some_or,
        Option.some.injEq] at hnext
      rw [← hnext]
      exact move_pc s i _
    -- a reader that has its ticket finds it stale
    · have hok : phaseOf t = GlobalPhase.running.code := by
        have hthread := hinv.ticket.thread i
        rwa [hpc] at hthread
      have hstale : s.ticket ≠ t := fun heq => hne .running (by rintro ⟨⟩) (heq ▸ hok)
      rw [globalNext, hpc] at hnext
      simp only [setStep, pinStep, Option.none_or, if_pos hstale, Option.some_or,
        Option.some.injEq] at hnext
      exact ⟨hok, hnext.symm⟩

theorem default_set_atomicity_bound : ∃ s : GlobalSys Bool Unit,
    s.bindings = [none, some ()] ∧ DefaultSetAtomicity s := by
  obtain ⟨s, hexec, hs⟩ := Option.map_eq_some_iff.mp bindAndPinRun_reaches
  have hreach : GlobalReachable s := TransitionSystem.reachable_of_exec
    (fun a ha s s' => hostSerialises_of_ne (by
      rintro x rfl
      simp [bindAndPinRun] at ha) s s') hexec
  simp only [Prod.mk.injEq] at hs
  exact ⟨s, hs.2.2.2, default_set_atomicity hreach⟩

end Set

end CLogger
