import CLogger.Global.Steps

/-!
# The invariants of the default binding

Each invariant is kept by every step of `GlobalStep`. A step changes the control state of one thread
and at most one of the four words (ticket, slot, borrow flag, lock), and the thread that changes the
binding holds the control mutex and the write lock, so that what the other threads know stays true.
-/

namespace CLogger

variable {ι Λ : Type} {s s' : GlobalSys ι Λ}

section Locks

variable [DecidableEq ι]

/-- A property of all control states after one thread moved. -/
theorem forall_pc_update {P : ι → GlobalPc Λ → Prop} {f : ι → GlobalPc Λ} {i : ι} {pc : GlobalPc Λ}
    (hself : P i pc) (hother : ∀ j, j ≠ i → P j (f j)) (j : ι) :
    P j (Function.update f i pc j) := by
  by_cases hj : j = i
  · subst hj
    rw [Function.update_self]
    exact hself
  · rw [Function.update_of_ne hj]
    exact hother j hj

/-- Only the thread that moves takes or releases a lock. -/
theorem LockInv.update (h : LockInv s) {i : ι} {pc : GlobalPc Λ}
    (hpc : s'.pc = Function.update s.pc i pc) (hcontrol : pc.control = true → s'.control = some i)
    (hcontrol' : ∀ j, j ≠ i → s.control = some j → s'.control = some j)
    (hread : pc.read = true → i ∈ s'.readers)
    (hread' : ∀ j, j ≠ i → j ∈ s.readers → j ∈ s'.readers)
    (hwrite : pc.write = true → s'.writer = some i)
    (hwrite' : ∀ j, j ≠ i → s.writer = some j → s'.writer = some j)
    (hexcl : s'.writer ≠ none → s'.readers = ∅) : LockInv s' where
  control := by
    rw [hpc]
    exact forall_pc_update (P := fun j pc => pc.control = true → s'.control = some j) hcontrol
      fun j hj hc => hcontrol' j hj (h.control j hc)
  read := by
    rw [hpc]
    exact forall_pc_update (P := fun j pc => pc.read = true → j ∈ s'.readers) hread
      fun j hj hr => hread' j hj (h.read j hr)
  write := by
    rw [hpc]
    exact forall_pc_update (P := fun j pc => pc.write = true → s'.writer = some j) hwrite
      fun j hj hw => hwrite' j hj (h.write j hw)
  exclusion := hexcl

/-- A step that touches no lock. -/
theorem LockInv.keep (h : LockInv s) {i : ι} {pc : GlobalPc Λ}
    (hpc : s'.pc = Function.update s.pc i pc) (hc : s'.control = s.control)
    (hr : s'.readers = s.readers) (hw : s'.writer = s.writer)
    (hcontrol : pc.control = true → (s.pc i).control = true)
    (hread : pc.read = true → (s.pc i).read = true)
    (hwrite : pc.write = true → (s.pc i).write = true) : LockInv s' := by
  refine h.update hpc (fun h' => ?_) (fun j _ hj => hc ▸ hj) (fun h' => ?_) (fun j _ hj => hr ▸ hj)
    (fun h' => ?_) (fun j _ hj => hw ▸ hj) (hw ▸ hr ▸ h.exclusion)
  · rw [hc]
    exact h.control i (hcontrol h')
  · rw [hr]
    exact h.read i (hread h')
  · rw [hw]
    exact h.write i (hwrite h')

/-- Every step keeps `LockInv`. -/
theorem LockInv.step [DecidableEq Λ] (h : LockInv s) (hstep : GlobalStep s s') : LockInv s' := by
  cases hstep with
  -- a call begins without a lock
  | call i pc hfrom hto =>
    refine h.keep rfl rfl rfl rfl ?_ ?_ ?_
    all_goals
      rcases hto with ⟨e, r, rfl, -⟩ | rfl
      · exact nofun
      · exact nofun
  | move i pc₀ pc hpc hcontrol hread hwrite hwindow hupdating hunflagged hborrow hbinding hpinned =>
    subst hpc
    exact h.keep rfl rfl rfl rfl hcontrol hread hwrite
  -- the mutex was free, so no other call relies on it
  | lock i c hpc hfree =>
    refine h.update rfl (fun _ => rfl) ?_ nofun (fun _ _ hj => hj) nofun (fun _ _ hj => hj)
      h.exclusion
    intro j _ hj
    rw [hfree] at hj
    cases hj
  | close i c hpc hmax hticket =>
    exact h.keep rfl rfl rfl rfl (fun _ => by rw [hpc]; rfl) nofun nofun
  -- the write lock was free as well, and there was no reader
  | wrlock i c hpc hwriter hreaders =>
    refine h.update rfl (fun _ => h.control i (by rw [hpc]; rfl)) (fun _ _ hj => hj) nofun
      (fun _ _ hj => hj) (fun _ => rfl) ?_ (fun _ => hreaders)
    intro j _ hj
    rw [hwriter] at hj
    cases hj
  | rollback i c err hpc hticket =>
    exact h.keep rfl rfl rfl rfl (fun _ => by rw [hpc]; rfl) nofun nofun
  | borrow i c x hpc hx =>
    exact h.keep rfl rfl rfl rfl (fun _ => by rw [hpc]; rfl) nofun (fun _ => by rw [hpc]; rfl)
  | store i c hpc =>
    exact h.keep rfl rfl rfl rfl (fun _ => by rw [hpc]; rfl) nofun (fun _ => by rw [hpc]; rfl)
  | commit i c hpc hticket =>
    exact h.keep rfl rfl rfl rfl (fun _ => by rw [hpc]; rfl) nofun (fun _ => by rw [hpc]; rfl)
  | restore i c hpc =>
    exact h.keep rfl rfl rfl rfl (fun _ => by rw [hpc]; rfl) nofun (fun _ => by rw [hpc]; rfl)
  -- a reader joins the others, and there is no writer
  | rdlock i t hpc hwriter =>
    exact h.update rfl nofun (fun _ _ hj => hj) (fun _ => Finset.mem_insert_self _ _)
      (fun _ _ hj => Finset.mem_insert_of_mem hj) nofun (fun _ _ hj => hj)
      (fun hw => absurd hwriter hw)
  -- what is released is the lock of this thread
  | unlockLifetime i scope pc hpc hlocked hto =>
    have hread : pc.read = false := by
      rcases hto with rfl | ⟨err, -, rfl⟩
      · rfl
      · rfl
    have hwrite : pc.write = false := by
      rcases hto with rfl | ⟨err, -, rfl⟩
      · rfl
      · rfl
    refine h.update rfl (fun h' => ?_) (fun _ _ hj => hj) (by rw [hread]; exact nofun)
      (fun j hj hj' => Finset.mem_erase.mpr ⟨hj, hj'⟩) (by rw [hwrite]; exact nofun) ?_ ?_
    · refine h.control i ?_
      rw [hpc]
      rcases hto with rfl | ⟨err, -, rfl⟩
      · exact h'
      · cases h'
    -- another writer is still the writer
    · intro j hj hw
      have hne : s.writer ≠ some i := by
        rw [hw]
        exact fun heq => hj (Option.some.inj heq)
      exact (if_neg hne).trans hw
    -- with a writer left there was no reader
    · intro hw
      have hold : s.writer ≠ none := by
        intro hnone
        apply hw
        exact (if_neg (by rw [hnone]; exact nofun)).trans hnone
      exact (congrArg (Finset.erase · i) (h.exclusion hold)).trans (Finset.erase_empty i)
  -- the mutex is released by its holder
  | unlockControl i scope pc hpc hlocked hto =>
    have hcontrol : s.control = some i := h.control i (by rw [hpc]; exact hlocked)
    refine h.update rfl ?_ ?_ ?_ (fun _ _ hj => hj) ?_ (fun _ _ hj => hj) h.exclusion
    · rcases hto with rfl | ⟨err, -, rfl⟩
      · exact nofun
      · exact nofun
    · intro j hj hj'
      rw [hcontrol] at hj'
      exact absurd (Option.some.inj hj').symm hj
    · rcases hto with rfl | ⟨err, -, rfl⟩
      · exact nofun
      · exact nofun
    · rcases hto with rfl | ⟨err, -, rfl⟩
      · exact nofun
      · exact nofun
  | clear i scope x rc hpc hx hrc => exact h.keep rfl rfl rfl rfl nofun nofun nofun
  | poisonError i scope err hpc => exact h.keep rfl rfl rfl rfl nofun nofun nofun
  | poisonTicket i scope err hpc => exact h.keep rfl rfl rfl rfl nofun nofun nofun
  | create x hdead => exact ⟨h.control, h.read, h.write, h.exclusion⟩
  | state x b => exact ⟨h.control, h.read, h.write, h.exclusion⟩
  | destroy x hflag hbinding => exact ⟨h.control, h.read, h.write, h.exclusion⟩
  | dispose x hdestroying => exact ⟨h.control, h.read, h.write, h.exclusion⟩

end Locks

/-- Two threads are not in the control section at once. -/
theorem LockInv.control_unique (h : LockInv s) {i j : ι} (hi : (s.pc i).control = true)
    (hj : (s.pc j).control = true) : j = i := by
  have := (h.control j hj).symm.trans (h.control i hi)
  exact Option.some.inj this

section Ticket

theorem getElem?_of_append {α : Type*} {l l' : List α} (h : l <+: l') {k : ℕ} {a : α}
    (hk : l[k]? = some a) : l'[k]? = some a := by
  obtain ⟨r, rfl⟩ := h
  rw [List.getElem?_append_left (List.getElem?_eq_some_iff.mp hk).1]
  exact hk

theorem CallEnd.Ok.mono {d : CallEnd Λ} {rc : ℤ} (h : d.Ok s rc)
    (hlen : s.bindings <+: s'.bindings) : d.Ok s' rc := by
  cases d with
  | reader t => trivial
  | set c o =>
    refine ⟨h.1, fun ho => ⟨?_, ?_⟩⟩
    · exact getElem?_of_append hlen (h.2 ho).old
    · exact getElem?_of_append hlen (h.2 ho).new

theorem SetCall.Observed.mono {c : SetCall Λ} (h : c.Observed s)
    (hlen : s.bindings <+: s'.bindings) (herr : s.lockError ≠ 0 → s'.lockError ≠ 0) :
    c.Observed s' :=
  ⟨h.seen, h.seen_le.trans hlen.length_le, h.not_stopping, h.valid, fun hb => herr (h.broken hb)⟩

theorem SetCall.Checked.congr {c : SetCall Λ} (h : c.Checked s) (hb : s'.bindings = s.bindings) :
    c.Checked s' := by
  refine ⟨h.seen, by rw [hb]; exact h.seen_eq, h.phase, fun hr => ?_⟩
  rw [GlobalSys.bound, hb]
  exact h.running hr

theorem SetCall.Verified.congr {c : SetCall Λ} (h : c.Verified s) (hb : s'.bindings = s.bindings) :
    c.Verified s' :=
  ⟨h.toChecked.congr hb, by rw [GlobalSys.bound, hb]; exact h.bound, h.change⟩

theorem SetCall.Updating.congr {c : SetCall Λ} (h : c.Updating s) (hb : s'.bindings = s.bindings)
    (ht : s'.ticket = s.ticket ∨ phaseOf s'.ticket = GlobalPhase.broken.code) : c.Updating s' := by
  refine ⟨h.toVerified.congr hb, h.not_max, ?_⟩
  rcases ht with ht | ht
  · rw [ht]
    exact h.ticket
  · exact .inr ht

/-- What a thread knows survives a step in which the history and the error only grow, a broken
ticket stays broken, and neither history nor ticket changes behind the holder of the control
mutex, poison apart. -/
theorem ThreadOk.mono {pc : GlobalPc Λ} (h : ThreadOk s pc)
    (hlen : s.bindings <+: s'.bindings) (herr : s.lockError ≠ 0 → s'.lockError ≠ 0)
    (hbroken : phaseOf s.ticket = GlobalPhase.broken.code →
      phaseOf s'.ticket = GlobalPhase.broken.code)
    (hcontrol : pc.control = true → s'.bindings = s.bindings ∧
      (s'.ticket = s.ticket ∨ phaseOf s'.ticket = GlobalPhase.broken.code)) : ThreadOk s' pc := by
  -- a call outside the mutex has only seen what others may add to
  cases pc with
  | setLock c => exact SetCall.Observed.mono h hlen herr
  | setLockCheck c => exact SetCall.Observed.mono h hlen herr
  | setCurrent c => exact ⟨h.1.mono hlen herr, h.2⟩
  -- under the mutex the history does not change
  | setSlot c => exact SetCall.Checked.congr h (hcontrol rfl).1
  | setState c => exact SetCall.Verified.congr h (hcontrol rfl).1
  | setFlag c => exact SetCall.Verified.congr h (hcontrol rfl).1
  | setClose c => exact SetCall.Verified.congr h (hcontrol rfl).1
  | setCloseFailed c => exact SetCall.Verified.congr h (hcontrol rfl).1
  | setRestore c => exact SetCall.Verified.congr h (hcontrol rfl).1
  | setCommitFailed c => exact SetCall.Verified.congr h (hcontrol rfl).1
  -- poison is the one change of the ticket that a holder may see
  | setWrlock c => exact SetCall.Updating.congr h (hcontrol rfl).1 (hcontrol rfl).2
  | setRollback c err => exact ⟨h.1.congr (hcontrol rfl).1 (hcontrol rfl).2, h.2⟩
  | setWriteCheck c => exact SetCall.Updating.congr h (hcontrol rfl).1 (hcontrol rfl).2
  | setBorrow c => exact SetCall.Updating.congr h (hcontrol rfl).1 (hcontrol rfl).2
  | setStore c => exact SetCall.Updating.congr h (hcontrol rfl).1 (hcontrol rfl).2
  | setCommit c => exact SetCall.Updating.congr h (hcontrol rfl).1 (hcontrol rfl).2
  -- after the check only the end of the call is known
  | unlockLifetime scope => exact ⟨h.done.mono hlen, h.clean⟩
  | unlockControl scope => exact ⟨h.done.mono hlen, h.clean⟩
  | clearBorrow scope => exact ⟨h.done.mono hlen, h.clean⟩
  | poisonError scope err => exact ⟨h.1.mono hlen, h.2⟩
  | poisonLoad scope err => exact ⟨h.1.mono hlen, herr h.2⟩
  | poisonTicket scope err t => exact ⟨h.1.mono hlen, herr h.2.1, fun ht => hbroken (h.2.2 ht)⟩
  | returned d rc => exact CallEnd.Ok.mono h hlen
  | poisoned d rc => exact ⟨h.1.mono hlen, hbroken h.2⟩
  | pinRdlock t => exact h
  | pinCheck t => exact h
  | pinRecheck t => exact h
  | _ => trivial

/-- A step that keeps ticket, history and error keeps what every thread knows. -/
theorem ThreadOk.congr {pc : GlobalPc Λ} (h : ThreadOk s pc) (hb : s'.bindings = s.bindings)
    (ht : s'.ticket = s.ticket) (he : s'.lockError = s.lockError) : ThreadOk s' pc :=
  h.mono (by rw [hb]) (by rw [he]; exact id) (by rw [ht]; exact id) fun _ => ⟨hb, .inl ht⟩

variable [DecidableEq ι]

/-- A step that keeps ticket, history, error and control mutex keeps `TicketInv`. -/
theorem TicketInv.keep (h : TicketInv s) {i : ι} {pc : GlobalPc Λ}
    (hpc : s'.pc = Function.update s.pc i pc) (ht : s'.ticket = s.ticket)
    (hb : s'.bindings = s.bindings) (he : s'.lockError = s.lockError)
    (hc : s'.control = s.control)
    (hupdating : (s.pc i).updating = true → pc.updating = true ∨ s.lockError ≠ 0)
    (hthread : ThreadOk s pc) : TicketInv s' where
  valid := by rw [ht]; exact h.valid
  broken := by rw [ht, he]; exact h.broken
  generation := by rw [ht, hb]; exact h.generation
  running := by rw [GlobalSys.bound, ht, hb]; exact h.running
  stopping hs := by
    rw [ht] at hs
    rw [he, hc, hpc]
    rcases h.stopping hs with herr | ⟨j, hj, hup⟩
    · exact .inl herr
    · by_cases hji : j = i
      · subst hji
        rcases hupdating hup with hup' | herr
        · exact .inr ⟨j, hj, by rw [Function.update_self]; exact hup'⟩
        · exact .inl herr
      · exact .inr ⟨j, hj, by rw [Function.update_of_ne hji]; exact hup⟩
  thread := by
    rw [hpc]
    exact forall_pc_update (P := fun _ pc => ThreadOk s' pc) (hthread.congr hb ht he)
      fun j _ => (h.thread j).congr hb ht he

omit [DecidableEq ι] in
/-- The host's steps touch nothing of `TicketInv`. -/
theorem TicketInv.host (h : TicketInv s) (hpc : s'.pc = s.pc) (ht : s'.ticket = s.ticket)
    (hb : s'.bindings = s.bindings) (he : s'.lockError = s.lockError)
    (hc : s'.control = s.control) : TicketInv s' where
  valid := by rw [ht]; exact h.valid
  broken := by rw [ht, he]; exact h.broken
  generation := by rw [ht, hb]; exact h.generation
  running := by rw [GlobalSys.bound, ht, hb]; exact h.running
  stopping := by rw [ht, he, hc, hpc]; exact h.stopping
  thread j := by rw [hpc]; exact (h.thread j).congr hb ht he

theorem updatingTicket_phase (t : GlobalTicket) :
    phaseOf (updatingTicket t) = GlobalPhase.stopping.code := phaseOf_withPhase t .stopping

theorem updatingTicket_generation (t : GlobalTicket) :
    generationOf (updatingTicket t) = generationOf t := generationOf_withPhase t .stopping

theorem phase_ne_broken {p : GlobalPhase} (h : p ≠ .broken) :
    p.code ≠ GlobalPhase.broken.code := fun heq => h (GlobalPhase.code_inj.mp heq)

/-- The threads after a step of the holder of the control mutex that changed ticket or history. -/
theorem TicketInv.thread_update (h : TicketInv s) (hlock : LockInv s) {i : ι} {pc : GlobalPc Λ}
    (hpc : s'.pc = Function.update s.pc i pc) (hi : (s.pc i).control = true)
    (hlen : s.bindings <+: s'.bindings) (he : s'.lockError = s.lockError)
    (hbroken : phaseOf s.ticket ≠ GlobalPhase.broken.code) (hself : ThreadOk s' pc) (j : ι) :
    ThreadOk s' (s'.pc j) := by
  rw [hpc]
  refine forall_pc_update (P := fun _ pc => ThreadOk s' pc) hself ?_ j
  intro j hj
  exact (h.thread j).mono hlen (by rw [he]; exact id) (fun hb => absurd hb hbroken)
    fun hc => absurd (hlock.control_unique hi hc) hj

/-- Closing admission. -/
theorem TicketInv.close (h : TicketInv s) (hlock : LockInv s) {i : ι} {c : SetCall Λ}
    (hpc : s.pc i = .setClose c) (hmax : generationOf c.observed ≠ generationMax)
    (hticket : s.ticket = c.observed) (s' : GlobalSys ι Λ)
    (ht : s'.ticket = updatingTicket c.observed)
    (hpc' : s'.pc = Function.update s.pc i (.setWrlock c)) (hb : s'.bindings = s.bindings)
    (he : s'.lockError = s.lockError) (hc : s'.control = s.control) : TicketInv s' := by
  have hphase : phaseOf s'.ticket = GlobalPhase.stopping.code := by
    rw [ht, updatingTicket_phase]
  have hok : c.Verified s := by
    have hthread := h.thread i
    rwa [hpc] at hthread
  have hi : (s.pc i).control = true := by rw [hpc]; rfl
  have hself : ThreadOk s' (.setWrlock c) := ⟨hok.congr hb, hmax, .inl ht⟩
  refine ⟨⟨.stopping, hphase⟩, ?_, ?_, ?_, ?_, ?_⟩
  · intro hb'
    exact absurd (hphase.symm.trans hb') (phase_ne_broken nofun)
  · rw [hb, h.generation, ht, updatingTicket_generation, hticket]
  · intro hr
    have := GlobalPhase.code_inj.mp (hphase.symm.trans hr)
    cases this
  · intro _
    refine .inr ⟨i, by rw [hc]; exact hlock.control i hi, ?_⟩
    rw [hpc', Function.update_self]
    rfl
  · refine h.thread_update hlock hpc' hi (by rw [hb]) he ?_ hself
    rw [hticket]
    rcases hok.phase with hp | hp <;> rw [hp] <;> exact phase_ne_broken nofun

/-- Reopening admission without a change. -/
theorem TicketInv.rollback (h : TicketInv s) (hlock : LockInv s) {i : ι} {c : SetCall Λ} {err : ℤ}
    (hpc : s.pc i = .setRollback c err) (hticket : s.ticket = updatingTicket c.observed)
    (s' : GlobalSys ι Λ) (ht : s'.ticket = c.observed)
    (hpc' : s'.pc = Function.update s.pc i
      (.unlockLifetime ⟨true, false, none, -err, .set c .early⟩))
    (hb : s'.bindings = s.bindings) (he : s'.lockError = s.lockError) : TicketInv s' := by
  have hok := h.thread i
  rw [hpc] at hok
  have hi : (s.pc i).control = true := by rw [hpc]; rfl
  obtain ⟨hup, herr⟩ := hok
  refine ⟨?_, ?_, ?_, ?_, ?_, ?_⟩
  · rw [ht]
    rcases hup.phase with hp | hp
    · exact ⟨.idle, hp⟩
    · exact ⟨.running, hp⟩
  · rw [ht]
    intro hbroken
    rcases hup.phase with hp | hp <;> rw [hp] at hbroken <;>
      exact absurd hbroken (phase_ne_broken nofun)
  · rw [hb, h.generation, ht, hticket, updatingTicket_generation]
  · rw [ht, GlobalSys.bound, hb]
    exact hup.running
  · rw [ht]
    intro hstop
    rcases hup.phase with hp | hp <;> rw [hp] at hstop <;>
      cases GlobalPhase.code_inj.mp hstop
  · refine h.thread_update hlock hpc' hi (by rw [hb]) he ?_ ?_
    · rw [hticket, updatingTicket_phase]
      exact phase_ne_broken nofun
    · exact ⟨⟨fun h0 => absurd h0 (by simpa using herr), nofun⟩, fun _ _ => rfl⟩

omit [DecidableEq ι] in
theorem bound_append {r : Option Λ} (hb : s'.bindings = s.bindings ++ [r]) : s'.bound = r := by
  rw [GlobalSys.bound, hb, List.getLast?_append]
  rfl

/-- Publishing a binding: the next generation. -/
theorem TicketInv.commit (h : TicketInv s) (hlock : LockInv s) {i : ι} {c : SetCall Λ}
    (hpc : s.pc i = .setCommit c) (hticket : s.ticket = updatingTicket c.observed)
    (s' : GlobalSys ι Λ) (ht : s'.ticket = nextTicket c.observed (bindingPhase c.replacement))
    (hpc' : s'.pc = Function.update s.pc i
      (.unlockLifetime ⟨true, true, c.expected, 0, .set c .committed⟩))
    (hb : s'.bindings = s.bindings ++ [c.replacement]) (he : s'.lockError = s.lockError) :
    TicketInv s' := by
  -- the call knows its generation and its binding
  have hup := h.thread i
  rw [hpc] at hup
  have hi : (s.pc i).control = true := by rw [hpc]; rfl
  -- the phase is that of the new binding
  have hphase : phaseOf s'.ticket = (bindingPhase c.replacement).code := by
    rw [ht, phaseOf_nextTicket _ hup.not_max]
  have hne : ∀ p : GlobalPhase, phaseOf s'.ticket = p.code → p = bindingPhase c.replacement := by
    intro p hp
    exact GlobalPhase.code_inj.mp (hp.symm.trans hphase)
  have hlen : s'.bindings.length = s.bindings.length + 1 := by
    rw [hb, List.length_append, List.length_singleton]
  refine ⟨⟨_, hphase⟩, ?_, ?_, ?_, ?_, ?_⟩
  -- a binding is never broken or stopping
  · intro hbroken
    have := hne .broken hbroken
    cases hr : c.replacement <;> rw [hr] at this <;> cases this
  -- the generation is the next one
  · rw [hlen, ht, generationOf_nextTicket _ hup.not_max, hup.seen, hup.seen_eq]
  · intro hrun
    have := hne .running hrun
    rw [bound_append hb]
    intro hnone
    rw [hnone] at this
    cases this
  · intro hstop
    have := hne .stopping hstop
    cases hr : c.replacement <;> rw [hr] at this <;> cases this
  · refine h.thread_update hlock hpc' hi (by rw [hb]; exact List.prefix_append _ _) he ?_ ?_
    · rw [hticket, updatingTicket_phase]
      exact phase_ne_broken nofun
    · -- The observed generation is the last one before this commit.
      have hlast : (generationOf c.observed).toNat + 1 = s.bindings.length :=
        hup.seen.trans hup.seen_eq
      refine ⟨⟨fun _ => .inl rfl, fun _ => ⟨?_, ?_⟩⟩, nofun⟩
      · have hold := hup.bound
        rw [GlobalSys.bound, List.getLast?_eq_getElem?, ← hlast, Nat.add_sub_cancel] at hold
        have hlt : (generationOf c.observed).toNat < s.bindings.length := by omega
        rw [List.getElem?_eq_getElem hlt] at hold
        rw [hb, List.getElem?_append_left hlt, List.getElem?_eq_getElem hlt]
        exact congrArg some hold
      · rw [hb, hlast, List.getElem?_concat_length]

/-- Setting the lock error. -/
theorem TicketInv.poisonError (h : TicketInv s) {i : ι} {scope : GlobalScope Λ} {err : ℤ}
    (hpc : s.pc i = .poisonError scope err) (s' : GlobalSys ι Λ)
    (he : s'.lockError = if s.lockError = 0 then err else s.lockError)
    (hpc' : s'.pc = Function.update s.pc i (.poisonLoad scope err)) (ht : s'.ticket = s.ticket)
    (hb : s'.bindings = s.bindings) : TicketInv s' := by
  have hok := h.thread i
  rw [hpc] at hok
  have herr : s'.lockError ≠ 0 := by
    rw [he]
    split
    · exact hok.2
    · assumption
  refine ⟨by rw [ht]; exact h.valid, fun _ => herr, by rw [ht, hb]; exact h.generation, ?_,
    fun _ => .inl herr, ?_⟩
  · rw [ht, GlobalSys.bound, hb]
    exact h.running
  · rw [hpc']
    refine forall_pc_update (P := fun _ pc => ThreadOk s' pc) ⟨hok.1.mono (by rw [hb]), herr⟩ ?_
    intro j _
    exact (h.thread j).mono (by rw [hb]) (fun _ => herr) (by rw [ht]; exact id)
      fun _ => ⟨hb, .inl ht⟩

/-- Breaking the ticket. -/
theorem TicketInv.poisonTicket (h : TicketInv s) {i : ι} {scope : GlobalScope Λ} {err : ℤ}
    {t : GlobalTicket} (hpc : s.pc i = .poisonTicket scope err t) (s' : GlobalSys ι Λ)
    (ht : s'.ticket = withPhase s.ticket GlobalPhase.broken.code)
    (hpc' : s'.pc = Function.update s.pc i (.poisoned scope.done (-err)))
    (hb : s'.bindings = s.bindings) (he : s'.lockError = s.lockError) : TicketInv s' := by
  have hok := h.thread i
  rw [hpc] at hok
  have hphase : phaseOf s'.ticket = GlobalPhase.broken.code := by rw [ht, phaseOf_withPhase]
  refine ⟨⟨.broken, hphase⟩, fun _ => by rw [he]; exact hok.2.1, ?_, ?_, ?_, ?_⟩
  · rw [hb, h.generation, ht, generationOf_withPhase]
  · intro hrun
    cases GlobalPhase.code_inj.mp (hphase.symm.trans hrun)
  · intro hstop
    cases GlobalPhase.code_inj.mp (hphase.symm.trans hstop)
  · rw [hpc']
    refine forall_pc_update (P := fun _ pc => ThreadOk s' pc) ⟨hok.1.mono (by rw [hb]), hphase⟩ ?_
    intro j _
    exact (h.thread j).mono (by rw [hb]) (by rw [he]; exact id) (fun _ => hphase)
      fun _ => ⟨hb, .inr hphase⟩

/-- Every step keeps `TicketInv`. -/
theorem TicketInv.step [DecidableEq Λ] (h : TicketInv s) (hlock : LockInv s)
    (hstep : GlobalStep s s') : TicketInv s' := by
  cases hstep with
  | call i pc hfrom hto =>
    refine h.keep rfl rfl rfl rfl rfl (by rw [hfrom]; exact nofun) ?_
    rcases hto with ⟨e, r, rfl, -⟩ | rfl
    · trivial
    · trivial
  | move i pc₀ pc hpc hcontrol hread hwrite hwindow hupdating hunflagged hborrow hbinding hpinned
      hthread =>
    subst hpc
    exact h.keep rfl rfl rfl rfl rfl hupdating hthread
  | lock i c hpc hfree =>
    have hok := h.thread i
    rw [hpc] at hok
    -- nobody holds the mutex, so a stopping phase is that of an error
    refine ⟨h.valid, h.broken, h.generation, h.running, ?_, ?_⟩
    · intro hstop
      rcases h.stopping hstop with herr | ⟨j, hj, -⟩
      · exact .inl herr
      · rw [hfree] at hj
        cases hj
    · refine forall_pc_update (P := fun _ pc => ThreadOk _ pc) ?_ ?_
      · exact SetCall.Observed.mono hok List.prefix_rfl id
      · exact fun j _ => (h.thread j).congr rfl rfl rfl
  | close i c hpc hmax hticket => exact h.close hlock hpc hmax hticket _ rfl rfl rfl rfl rfl
  | wrlock i c hpc hwriter hreaders =>
    have hok := h.thread i
    rw [hpc] at hok
    exact h.keep rfl rfl rfl rfl rfl (fun _ => .inl rfl) hok
  | rollback i c err hpc hticket => exact h.rollback hlock hpc hticket _ rfl rfl rfl rfl
  | borrow i c x hpc hx =>
    have hok := h.thread i
    rw [hpc] at hok
    exact h.keep rfl rfl rfl rfl rfl (fun _ => .inl rfl) hok
  | store i c hpc =>
    have hok := h.thread i
    rw [hpc] at hok
    exact h.keep rfl rfl rfl rfl rfl (fun _ => .inl rfl) hok
  | commit i c hpc hticket => exact h.commit hlock hpc hticket _ rfl rfl rfl rfl
  | restore i c hpc =>
    have hok := h.thread i
    rw [hpc] at hok
    exact h.keep rfl rfl rfl rfl rfl (by rw [hpc]; exact nofun) hok
  | rdlock i t hpc hwriter =>
    have hok := h.thread i
    rw [hpc] at hok
    exact h.keep rfl rfl rfl rfl rfl (by rw [hpc]; exact nofun) hok
  | unlockLifetime i scope pc hpc hlocked hto =>
    have hok := h.thread i
    rw [hpc] at hok
    refine h.keep rfl rfl rfl rfl rfl (by rw [hpc]; exact nofun) ?_
    rcases hto with rfl | ⟨err, herr, rfl⟩
    · exact hok
    · exact ⟨hok.done.failed herr, herr⟩
  | unlockControl i scope pc hpc hlocked hto =>
    have hok := h.thread i
    rw [hpc] at hok
    refine ⟨h.valid, h.broken, h.generation, h.running, ?_, ?_⟩
    · -- Only the holder of the mutex can be updating, and this call is not.
      intro hstop
      rcases h.stopping hstop with herr | ⟨j, hj, hup⟩
      · exact .inl herr
      · rw [hlock.control i (by rw [hpc]; exact hlocked)] at hj
        obtain rfl := Option.some.inj hj
        rw [hpc] at hup
        cases hup
    · refine forall_pc_update (P := fun _ pc => ThreadOk _ pc) ?_ ?_
      · rcases hto with rfl | ⟨err, herr, rfl⟩
        · exact ⟨hok.done.mono List.prefix_rfl, hok.clean⟩
        · exact ⟨(hok.done.failed herr).mono List.prefix_rfl, herr⟩
      · exact fun j _ => (h.thread j).congr rfl rfl rfl
  | clear i scope x rc hpc hx hrc =>
    have hok := h.thread i
    rw [hpc] at hok
    exact h.keep rfl rfl rfl rfl rfl (by rw [hpc]; exact nofun) (hok.done.of_rc hrc)
  | poisonError i scope err hpc => exact h.poisonError hpc _ rfl rfl rfl rfl
  | poisonTicket i scope err hpc => exact h.poisonTicket hpc _ rfl rfl rfl rfl
  | create x hdead => exact h.host rfl rfl rfl rfl rfl
  | state x b => exact h.host rfl rfl rfl rfl rfl
  | destroy x hflag hbinding => exact h.host rfl rfl rfl rfl rfl
  | dispose x hdestroying => exact h.host rfl rfl rfl rfl rfl

end Ticket

section Slot

variable [DecidableEq ι]

/-- A step that keeps slot, history and publication windows keeps `SlotInv`. -/
theorem SlotInv.keep (h : SlotInv s) {i : ι} {pc : GlobalPc Λ}
    (hpc : s'.pc = Function.update s.pc i pc) (hslot : s'.slot = s.slot)
    (hb : s'.bindings = s.bindings) (hwindow : pc.window = (s.pc i).window) : SlotInv s' := by
  have hsame : ∀ j, (s'.pc j).window = (s.pc j).window := by
    rw [hpc]
    exact forall_pc_update (P := fun j pc => pc.window = (s.pc j).window) hwindow fun _ _ => rfl
  refine ⟨fun j c hj => ?_, fun hnone => ?_⟩
  · rw [hslot]
    exact h.window j c (hsame j ▸ hj)
  · rw [hslot, GlobalSys.bound, hb]
    exact h.bound fun j => hsame j ▸ hnone j

omit [DecidableEq ι] in
/-- After a step of the holder of the control mutex no other thread is in its window. -/
theorem LockInv.window_none (hlock : LockInv s) {i j : ι} (hi : (s.pc i).control = true)
    (hj : j ≠ i) : (s.pc j).window = none := by
  cases hw : (s.pc j).window with
  | none => rfl
  | some c => exact absurd (hlock.control_unique hi (GlobalPc.control_of_window hw)) hj

/-- The holder of the control mutex enters its window with its replacement in the slot. -/
theorem SlotInv.enter (hlock : LockInv s) {i : ι} {pc : GlobalPc Λ} {c : SetCall Λ}
    (hpc : s'.pc = Function.update s.pc i pc) (hi : (s.pc i).control = true)
    (hwindow : pc.window = some c) (hslot : s'.slot = c.replacement) : SlotInv s' := by
  constructor
  · rw [hpc, hslot]
    refine forall_pc_update (P := fun _ pc => ∀ c', pc.window = some c' →
      c.replacement = c'.replacement) ?_ ?_
    · intro c' hc'
      rw [hwindow] at hc'
      rw [Option.some.inj hc']
    · intro j hj c' hc'
      rw [hlock.window_none hi hj] at hc'
      cases hc'
  · intro hnone
    have hself := hnone i
    rw [hpc, Function.update_self, hwindow] at hself
    cases hself

/-- The holder of the control mutex leaves its window with the slot equal to the binding. -/
theorem SlotInv.leave (hlock : LockInv s) {i : ι} {pc : GlobalPc Λ}
    (hpc : s'.pc = Function.update s.pc i pc) (hi : (s.pc i).control = true)
    (hwindow : pc.window = none) (hslot : s'.slot = s'.bound) : SlotInv s' := by
  have hnone : ∀ j, (s'.pc j).window = none := by
    rw [hpc]
    exact forall_pc_update (P := fun _ pc => pc.window = none) hwindow
      fun j hj => hlock.window_none hi hj
  refine ⟨fun j c hj => ?_, fun _ => hslot⟩
  rw [hnone j] at hj
  cases hj

/-- Every step keeps `SlotInv`. -/
theorem SlotInv.step [DecidableEq Λ] (h : SlotInv s) (hlock : LockInv s) (hticket : TicketInv s)
    (hstep : GlobalStep s s') : SlotInv s' := by
  cases hstep with
  | call i pc hfrom hto =>
    refine h.keep rfl rfl rfl ?_
    rw [hfrom]
    rcases hto with ⟨e, r, rfl, -⟩ | rfl
    · rfl
    · rfl
  -- most steps do not touch the slot
  | move i pc₀ pc hpc hcontrol hread hwrite hwindow =>
    subst hpc
    exact h.keep rfl rfl rfl hwindow
  | lock i c hpc hfree => exact h.keep rfl rfl rfl (by rw [hpc]; rfl)
  | close i c hpc hmax hticket => exact h.keep rfl rfl rfl (by rw [hpc]; rfl)
  | wrlock i c hpc hwriter hreaders => exact h.keep rfl rfl rfl (by rw [hpc]; rfl)
  | rollback i c err hpc hticket => exact h.keep rfl rfl rfl (by rw [hpc]; rfl)
  | borrow i c x hpc hx => exact h.keep rfl rfl rfl (by rw [hpc]; rfl)
  -- the window opens when the slot is stored
  | store i c hpc => exact SlotInv.enter hlock (c := c) rfl (by rw [hpc]; rfl) rfl rfl
  -- it closes when the binding is the one in the slot
  | commit i c hpc hticket' =>
    refine SlotInv.leave hlock rfl (by rw [hpc]; rfl) rfl ?_
    rw [bound_append rfl]
    exact h.window i c (by rw [hpc]; rfl)
  -- or when the slot is taken back
  | restore i c hpc =>
    have hok := hticket.thread i
    rw [hpc] at hok
    exact SlotInv.leave hlock rfl (by rw [hpc]; rfl) rfl hok.bound.symm
  | rdlock i t hpc hwriter => exact h.keep rfl rfl rfl (by rw [hpc]; rfl)
  | unlockLifetime i scope pc hpc hlocked hto =>
    refine h.keep rfl rfl rfl ?_
    rw [hpc]
    rcases hto with rfl | ⟨err, -, rfl⟩
    · rfl
    · rfl
  | unlockControl i scope pc hpc hlocked hto =>
    refine h.keep rfl rfl rfl ?_
    rw [hpc]
    rcases hto with rfl | ⟨err, -, rfl⟩
    · rfl
    · rfl
  | clear i scope x rc hpc hx hrc => exact h.keep rfl rfl rfl (by rw [hpc]; rfl)
  | poisonError i scope err hpc => exact h.keep rfl rfl rfl (by rw [hpc]; rfl)
  | poisonTicket i scope err hpc => exact h.keep rfl rfl rfl (by rw [hpc]; rfl)
  | create x hdead => exact ⟨h.window, h.bound⟩
  | state x b => exact ⟨h.window, h.bound⟩
  | destroy x hflag hbinding => exact ⟨h.window, h.bound⟩
  | dispose x hdestroying => exact ⟨h.window, h.bound⟩

end Slot

section Pin

/-- A reader that has found its ticket unchanged and still holds the read lock is on a running
binding of the current generation, which has an instance. -/
def PinInv (s : GlobalSys ι Λ) : Prop :=
  ∀ i t, (s.pc i).pinnedTicket = some t → i ∈ s.readers →
    phaseOf t = GlobalPhase.running.code ∧ generationOf t = generationOf s.ticket ∧ s.bound ≠ none

variable [DecidableEq ι]

/-- A step that keeps the generation and pins nobody keeps `PinInv`. -/
theorem PinInv.keep (h : PinInv s) {i : ι} {pc : GlobalPc Λ}
    (hpc : s'.pc = Function.update s.pc i pc)
    (hreaders : ∀ j, j ≠ i → j ∈ s'.readers → j ∈ s.readers)
    (hgen : generationOf s'.ticket = generationOf s.ticket) (hb : s'.bindings = s.bindings)
    (hself : ∀ t, pc.pinnedTicket = some t → i ∈ s'.readers →
      phaseOf t = GlobalPhase.running.code ∧ generationOf t = generationOf s.ticket ∧
        s.bound ≠ none) : PinInv s' := by
  intro j
  rw [hpc, hgen, GlobalSys.bound, hb]
  refine forall_pc_update (P := fun j pc => ∀ t, pc.pinnedTicket = some t → j ∈ s'.readers →
    phaseOf t = GlobalPhase.running.code ∧ generationOf t = generationOf s.ticket ∧
      s.bound ≠ none) hself ?_ j
  exact fun j hj t ht hr => h j t ht (hreaders j hj hr)

/-- Every step keeps `PinInv`. -/
theorem PinInv.step [DecidableEq Λ] (h : PinInv s) (hlock : LockInv s) (hticket : TicketInv s)
    (hstep : GlobalStep s s') : PinInv s' := by
  cases hstep with
  | call i pc hfrom hto =>
    refine h.keep rfl (fun _ _ hj => hj) rfl rfl ?_
    rcases hto with ⟨e, r, rfl, -⟩ | rfl
    · exact nofun
    · exact nofun
  | move i pc₀ pc hpc hcontrol hread hwrite hwindow hupdating hunflagged hborrow hbinding hpinned =>
    -- a reader is pinned by its second check, under the read lock
    refine h.keep rfl (fun _ _ hj => hj) rfl rfl ?_
    intro t ht hi
    rcases hpinned t ht with hold | ⟨hsame, rfl, -⟩
    · exact h i t (by rw [hpc]; exact hold) hi
    · have hok := hticket.thread i
      rw [hpc] at hok
      exact ⟨hok, by rw [hsame], hticket.running (hsame ▸ hok)⟩
  | lock i c hpc hfree => exact h.keep rfl (fun _ _ hj => hj) rfl rfl nofun
  -- a change of the phase keeps the generation
  | close i c hpc hmax hsame =>
    refine h.keep rfl (fun _ _ hj => hj) ?_ rfl nofun
    exact (updatingTicket_generation c.observed).trans (by rw [hsame])
  | wrlock i c hpc hwriter hreaders => exact h.keep rfl (fun _ _ hj => hj) rfl rfl nofun
  | rollback i c err hpc hsame =>
    refine h.keep rfl (fun _ _ hj => hj) ?_ rfl nofun
    rw [hsame]
    exact (updatingTicket_generation c.observed).symm
  | borrow i c x hpc hx => exact h.keep rfl (fun _ _ hj => hj) rfl rfl nofun
  | store i c hpc => exact h.keep rfl (fun _ _ hj => hj) rfl rfl nofun
  | commit i c hpc hsame =>
    -- The committing call holds the write lock, so there is no reader.
    have hnone : s.readers = ∅ := by
      refine hlock.exclusion ?_
      rw [hlock.write i (by rw [hpc]; rfl)]
      exact nofun
    intro j t ht hj
    rw [show j ∈ s.readers ↔ j ∈ (∅ : Finset ι) by rw [hnone]] at hj
    exact absurd hj (Finset.notMem_empty j)
  | restore i c hpc => exact h.keep rfl (fun _ _ hj => hj) rfl rfl nofun
  | rdlock i t hpc hwriter =>
    refine h.keep rfl (fun j hj hr => ?_) rfl rfl nofun
    exact (Finset.mem_insert.mp hr).resolve_left hj
  | unlockLifetime i scope pc hpc hlocked hto =>
    refine h.keep rfl (fun j _ hr => Finset.mem_of_mem_erase hr) rfl rfl ?_
    intro t _ hi
    exact absurd hi (Finset.notMem_erase i _)
  | unlockControl i scope pc hpc hlocked hto =>
    refine h.keep rfl (fun _ _ hj => hj) rfl rfl ?_
    intro t ht hi
    refine h i t ?_ hi
    rw [hpc]
    rcases hto with rfl | ⟨err, -, rfl⟩
    · exact ht
    · exact ht
  | clear i scope x rc hpc hx hrc =>
    exact h.keep rfl (fun _ _ hj => hj) rfl rfl fun t ht hi => h i t (by rw [hpc]; exact ht) hi
  | poisonError i scope err hpc =>
    exact h.keep rfl (fun _ _ hj => hj) rfl rfl fun t ht hi => h i t (by rw [hpc]; exact ht) hi
  | poisonTicket i scope err hpc =>
    refine h.keep rfl (fun _ _ hj => hj) (generationOf_withPhase s.ticket .broken) rfl ?_
    exact fun t ht hi => h i t (by rw [hpc]; exact ht) hi
  | create x hdead => exact h
  | state x b => exact h
  | destroy x hflag hbinding => exact h
  | dispose x hdestroying => exact h

end Pin

end CLogger
