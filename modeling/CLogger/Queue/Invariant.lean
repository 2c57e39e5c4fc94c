import CLogger.Queue.Steps

/-!
# The position invariant of the queue

`PosInv` holds in every reachable state. Each kind of step either keeps the slots, the counters
and the held positions (`PosInv.of_same`) or moves exactly one of them: a reservation advances
`enqueue_pos`, a publication and a release change one sequence word, a completed pop advances
`dequeue_pos`.
-/

namespace CLogger

variable {ι : Type} {g : QueueGeometry} {s s' : QueueSys ι}

theorem LoadedOk.mono {pc : PushPc} (h : LoadedOk g s pc)
    (henq : s.q.enqueuePos ≤ s'.q.enqueuePos) (hhead : s.head ≤ s'.head) : LoadedOk g s' pc := by
  cases pc <;> simp only [LoadedOk] at h ⊢ <;> omega

/-- A step that keeps the slots, both counters, the reservations, the held positions and the
freed slot keeps the position invariant. -/
theorem PosInv.of_same (h : PosInv g s) (hslots : ∀ p, s'.seq g p = s.seq g p)
    (henq : s'.q.enqueuePos = s.q.enqueuePos) (hhead : s'.head = s.head)
    (hres : s'.reserved.length = s.reserved.length)
    (hheld : ∀ j, (s'.push j).held = (s.push j).held) (hloaded : ∀ j, LoadedOk g s' (s'.push j))
    (hvalid : ∀ j, (s'.push j).Valid g)
    (hpop : PopPosOk s'.q.dequeuePos (s'.Published g) s'.pop) : PosInv g s' where
  reserved_length := by rw [hres, henq, h.reserved_length]
  head_le := by rw [hhead, henq]; exact h.head_le
  tail_le := by rw [hhead, henq]; exact h.tail_le
  free p := by rw [hhead, henq, hslots]; exact h.free p
  live p := by simp only [hhead, henq, hslots, hheld]; exact h.live p
  held i p := by rw [hhead, henq, hslots, hheld]; exact h.held i p
  unique i j p := by rw [hheld, hheld]; exact h.unique i j p
  loaded := hloaded
  valid := hvalid
  pop_ok := hpop

/-- Positions of the current window with the same slot are equal. -/
theorem PosInv.eq_of_mod_eq (h : PosInv g s) {p p' : ℕ} (hp : s.head ≤ p)
    (hlt : p < s.q.enqueuePos) (hp' : s.head ≤ p') (hlt' : p' < s.head + g.cap)
    (hmod : p % g.cap = p' % g.cap) : p = p' := by
  have htail := h.tail_le
  exact g.eq_of_mod_eq hp hp' (by omega) hlt' hmod

/-- What the consumer knows about its position survives as long as published records stay
published. -/
theorem PopPosOk.mono {d : ℕ} {pub pub' : ℕ → Prop} {pc : PopPc} (h : PopPosOk d pub pc)
    (hpub : ∀ p, pub p → pub' p) : PopPosOk d pub' pc := by
  cases pc <;> first
    | exact h
    | exact ⟨h.1, hpub _ h.2⟩

theorem published_of_same (hhead : s'.head = s.head) (hslots : ∀ p, s'.seq g p = s.seq g p)
    (henq : s.q.enqueuePos ≤ s'.q.enqueuePos) {p : ℕ} (h : s.Published g p) : s'.Published g p := by
  obtain ⟨h1, h2, h3⟩ := h
  exact ⟨by omega, by omega, by rw [hslots]; exact h3⟩

theorem seq_storeSeq {i v : ℕ} (hq : s'.q = s.q.storeSeq i v) (p : ℕ) :
    s'.seq g p = if p % g.cap = i then v else s.seq g p := by
  rw [QueueSys.seq, QueueSys.seq, hq, Queue.storeSeq]
  by_cases hp : p % g.cap = i
  · simp [hp]
  · simp [hp]

theorem seq_writeRecord {i : ℕ} {w : QueueRecord → QueueRecord}
    (hq : s'.q = s.q.writeRecord i w) (p : ℕ) : s'.seq g p = s.seq g p := by
  rw [QueueSys.seq, QueueSys.seq, hq, Queue.writeRecord]
  by_cases hp : p % g.cap = i
  · simp [hp]
  · simp [Function.update_of_ne hp]

/-- The step lemma for moves of the consumer that keep the slots and the counters. -/
theorem PosInv.pop_same (h : PosInv g s) (hslots : ∀ p, s'.seq g p = s.seq g p)
    (henq : s'.q.enqueuePos = s.q.enqueuePos) (hhead : s'.head = s.head)
    (hpush : s'.push = s.push) (hres : s'.reserved = s.reserved)
    (hpop : PopPosOk s'.q.dequeuePos (s'.Published g) s'.pop) : PosInv g s' := by
  refine h.of_same hslots henq hhead (by rw [hres]) (by simp [hpush]) ?_ ?_ hpop
  · intro j
    rw [hpush]
    exact (h.loaded j).mono henq.ge hhead.ge
  · intro j
    rw [hpush]
    exact h.valid j

/-- The step lemma for moves of the consumer that change only its control state. -/
theorem PosInv.pop_move (h : PosInv g s) (pc : PopPc) (hfreed : pc.freed = s.pop.freed)
    (hpop : PopPosOk s.q.dequeuePos (s.Published g) pc) :
    PosInv g { s with pop := pc } := by
  have hhead : ({ s with pop := pc } : QueueSys ι).head = s.head := by
    rw [QueueSys.head, QueueSys.head, ← hfreed]
  refine h.pop_same (fun _ => rfl) rfl hhead rfl rfl (hpop.mono ?_)
  intro p hp
  exact published_of_same hhead (fun _ => rfl) le_rfl hp

section Update

variable [DecidableEq ι]

/-- The step lemma for moves of one producer that keep the slots and the counters. -/
theorem PosInv.push_same (h : PosInv g s) (i : ι) (pc : PushPc)
    (hpush : s'.push = Function.update s.push i pc) (hslots : ∀ p, s'.seq g p = s.seq g p)
    (henq : s'.q.enqueuePos = s.q.enqueuePos) (hdeq : s'.q.dequeuePos = s.q.dequeuePos)
    (hpop : s'.pop = s.pop) (hres : s'.reserved = s.reserved)
    (hheld : pc.held = (s.push i).held) (hloaded : LoadedOk g s pc) (hvalid : pc.Valid g) :
    PosInv g s' := by
  have hhead : s'.head = s.head := by rw [QueueSys.head, QueueSys.head, hdeq, hpop]
  refine h.of_same hslots henq hhead (by rw [hres]) ?_ ?_ ?_ ?_
  · rw [hpush, Function.forall_update_iff _ fun j (pc : PushPc) => pc.held = (s.push j).held]
    exact ⟨hheld, fun _ _ => rfl⟩
  · rw [hpush, Function.forall_update_iff _ fun j (pc : PushPc) => LoadedOk g s' pc]
    exact ⟨hloaded.mono henq.ge hhead.ge, fun j _ => (h.loaded j).mono henq.ge hhead.ge⟩
  · rw [hpush, Function.forall_update_iff _ fun j (pc : PushPc) => pc.Valid g]
    exact ⟨hvalid, fun j _ => h.valid j⟩
  · rw [hdeq, hpop]
    exact h.pop_ok.mono fun p => published_of_same hhead hslots henq.ge

/-- A reservation keeps the position invariant. -/
theorem PosInv.reserve (h : PosInv g s) (i : ι) (m : LoggerMessage) (spill : Option ℕ)
    (hpc : s.push i = .casPos m spill s.q.enqueuePos) (hlt : s.q.enqueuePos < s.head + g.cap)
    (s' : QueueSys ι)
    (hs' : s' = { s with
      q := { s.q with enqueuePos := s.q.enqueuePos + 1 }
      push := Function.update s.push i (.pack m spill s.q.enqueuePos
        (packWrites m (loggerRecordTextLength m) spill))
      reserved := s.reserved ++ [⟨i, s.calls i, m⟩] }) : PosInv g s' := by
  -- the slots and the head are as they were
  have hslots : ∀ p, s'.seq g p = s.seq g p := by subst hs'; intro p; rfl
  have henq : s'.q.enqueuePos = s.q.enqueuePos + 1 := by subst hs'; rfl
  have hhead : s'.head = s.head := by subst hs'; rfl
  have hpush : s'.push i = .pack m spill s.q.enqueuePos
      (packWrites m (loggerRecordTextLength m) spill) := by
    subst hs'
    exact Function.update_self _ _ _
  have hself : (s'.push i).held = some s.q.enqueuePos := by rw [hpush]; rfl
  have hother : ∀ j, j ≠ i → s'.push j = s.push j := by
    subst hs'
    intro j hj
    exact Function.update_of_ne hj _ _
  have hle := h.head_le
  have hnone : (s.push i).held = none := by rw [hpc]; rfl
  -- Nobody held the position before: held positions are below `enqueue_pos`.
  have hheld : ∀ j p, (s'.push j).held = some p →
      (j = i ∧ p = s.q.enqueuePos) ∨ (j ≠ i ∧ (s.push j).held = some p) := by
    intro j p hj
    by_cases hji : j = i
    · subst hji
      exact .inl ⟨rfl, by simpa [hself] using hj.symm⟩
    · exact .inr ⟨hji, by rwa [hother j hji] at hj⟩
  -- one entry more in the order of the positions
  constructor
  · subst hs'
    simp [h.reserved_length]
  · omega
  · omega
  -- the free positions are those behind the new one
  · intro p hp hlt'
    rw [hslots]
    exact h.free p (by omega) (by omega)
  -- the new position is held by its producer
  · intro p hp hlt'
    rw [hslots]
    rcases Nat.lt_or_ge p s.q.enqueuePos with hold | hnew
    · rcases h.live p (by omega) hold with ⟨j, hj⟩ | hpub
      · have hji : j ≠ i := by
          rintro rfl
          rw [hnone] at hj
          contradiction
        exact .inl ⟨j, by rw [hother j hji]; exact hj⟩
      · exact .inr hpub
    · obtain rfl : p = s.q.enqueuePos := by omega
      exact .inl ⟨i, hself⟩
  · intro j p hj
    rw [hslots, hhead, henq]
    rcases hheld j p hj with ⟨rfl, rfl⟩ | ⟨-, hj'⟩
    · exact ⟨hle, by omega, h.free _ le_rfl hlt⟩
    · obtain ⟨h1, h2, h3⟩ := h.held j p hj'
      exact ⟨h1, by omega, h3⟩
  -- two producers do not hold one position
  · intro j k p hj hk
    rcases hheld j p hj with ⟨rfl, rfl⟩ | ⟨hji, hj'⟩
    · rcases hheld k _ hk with ⟨rfl, -⟩ | ⟨-, hk'⟩
      · rfl
      · have := (h.held k _ hk').2.1
        omega
    · rcases hheld k p hk with ⟨rfl, rfl⟩ | ⟨-, hk'⟩
      · have := (h.held j _ hj').2.1
        omega
      · exact h.unique j k p hj' hk'
  -- a position that was loaded is still below the new one
  · intro j
    by_cases hji : j = i
    · subst hji
      rw [hpush]
      trivial
    · rw [hother j hji]
      exact (h.loaded j).mono (by omega) hhead.ge
  · intro j
    by_cases hji : j = i
    · subst hji
      have hval := h.valid j
      rw [hpc] at hval
      rw [hpush]
      exact hval
    · rw [hother j hji]
      exact h.valid j
  -- nothing has changed for the consumer
  · have hsame : s'.pop = s.pop := by subst hs'; rfl
    have hdeq : s'.q.dequeuePos = s.q.dequeuePos := by subst hs'; rfl
    rw [hsame, hdeq]
    exact h.pop_ok.mono fun p => published_of_same hhead hslots (by omega)

/-- A publication keeps the position invariant. -/
theorem PosInv.publish (h : PosInv g s) (i : ι) (m : LoggerMessage) (spill : Option ℕ) (p : ℕ)
    (hpc : s.push i = .pack m spill p []) (s' : QueueSys ι)
    (hs' : s' = { s with
      q := s.q.storeSeq (p % g.cap) (p + 1), push := Function.update s.push i (.returned true) }) :
    PosInv g s' := by
  have hseq : ∀ p', s'.seq g p' = if p' % g.cap = p % g.cap then p + 1 else s.seq g p' :=
    seq_storeSeq (by subst hs'; rfl)
  have henq : s'.q.enqueuePos = s.q.enqueuePos := by subst hs'; rfl
  have hhead : s'.head = s.head := by subst hs'; rfl
  have hself : s'.push i = .returned true := by subst hs'; exact Function.update_self _ _ _
  have hother : ∀ j, j ≠ i → s'.push j = s.push j := by
    subst hs'
    intro j hj
    exact Function.update_of_ne hj _ _
  have hi : (s.push i).held = some p := by rw [hpc]; rfl
  obtain ⟨hp, hlt, -⟩ := h.held i p hi
  have htail := h.tail_le
  -- the producers that hold a position are the others
  have hheld : ∀ j p', (s'.push j).held = some p' →
      j ≠ i ∧ (s.push j).held = some p' ∧ p' ≠ p := by
    intro j p' hj
    have hji : j ≠ i := by
      rintro rfl
      rw [hself] at hj
      cases hj
    rw [hother j hji] at hj
    refine ⟨hji, hj, ?_⟩
    rintro rfl
    exact hji (h.unique j i p' hj hi)
  -- Within the window only position `p` uses the slot that changed.
  have hkeep : ∀ p', s.head ≤ p' → p' < s.head + g.cap → p' ≠ p → s'.seq g p' = s.seq g p' := by
    intro p' hp' hlt' hne
    rw [hseq, if_neg]
    intro hmod
    exact hne (h.eq_of_mod_eq hp hlt hp' hlt' hmod.symm).symm
  constructor
  · subst hs'
    exact h.reserved_length
  · rw [hhead, henq]
    exact h.head_le
  · rw [hhead, henq]
    exact htail
  -- the free positions keep their words
  · intro p' hge hlt'
    rw [henq] at hge
    rw [hhead] at hlt'
    rw [hkeep p' (by omega) hlt' (by omega)]
    exact h.free p' hge hlt'
  -- the position is published now
  · intro p' hge hlt'
    rw [hhead] at hge
    rw [henq] at hlt'
    by_cases hpp : p' = p
    · subst hpp
      exact .inr (by rw [hseq, if_pos rfl])
    · rw [hkeep p' hge (by omega) hpp]
      rcases h.live p' hge hlt' with ⟨j, hj⟩ | hpub
      · have hji : j ≠ i := by
          rintro rfl
          rw [hi] at hj
          exact hpp (Option.some.inj hj).symm
        exact .inl ⟨j, by rw [hother j hji]; exact hj⟩
      · exact .inr hpub
  · intro j p' hj
    obtain ⟨-, hj', hne⟩ := hheld j p' hj
    obtain ⟨h1, h2, h3⟩ := h.held j p' hj'
    rw [hhead, henq, hkeep p' h1 (by omega) hne]
    exact ⟨h1, h2, h3⟩
  · intro j k p' hj hk
    exact h.unique j k p' (hheld j p' hj).2.1 (hheld k p' hk).2.1
  -- the producer has returned, and the others are as they were
  · intro j
    by_cases hji : j = i
    · rw [hji, hself]
      trivial
    · rw [hother j hji]
      exact (h.loaded j).mono henq.ge hhead.ge
  · intro j
    by_cases hji : j = i
    · rw [hji, hself]
      exact PushPc.valid_returned g true
    · rw [hother j hji]
      exact h.valid j
  -- more is published than before
  · have hsame : s'.pop = s.pop := by subst hs'; rfl
    have hdeq : s'.q.dequeuePos = s.q.dequeuePos := by subst hs'; rfl
    rw [hsame, hdeq]
    refine h.pop_ok.mono ?_
    rintro p' ⟨h1, h2, h3⟩
    refine ⟨by omega, by omega, ?_⟩
    by_cases hpp : p' = p
    · subst hpp
      rw [hseq, if_pos rfl]
    · rw [hkeep p' h1 (by omega) hpp]
      exact h3

omit [DecidableEq ι] in
/-- Freeing a slot for the next lap keeps the position invariant. -/
theorem PosInv.popFree (h : PosInv g s) (out : List LoggerMessage) (max : Option ℕ)
    (dst : LoggerMessage) (p : ℕ) (hpc : s.pop = .storeSeq out max dst p) (s' : QueueSys ι)
    (hs' : s' = { s with
      q := s.q.storeSeq (p % g.cap) (p + g.cap), pop := .storePos out max dst p }) :
    PosInv g s' := by
  have hseq : ∀ p', s'.seq g p' = if p' % g.cap = p % g.cap then p + g.cap else s.seq g p' :=
    seq_storeSeq (by subst hs'; rfl)
  have hpop := h.pop_ok
  rw [hpc] at hpop
  obtain ⟨hpos, hpub⟩ := hpop
  have hold : s.head = p := by
    rw [QueueSys.head, hpc, hpos]
    rfl
  have hhead : s'.head = p + 1 := by
    subst hs'
    rw [hpos]
    rfl
  have henq : s'.q.enqueuePos = s.q.enqueuePos := by subst hs'; rfl
  have hpush : s'.push = s.push := by subst hs'; rfl
  -- there are at least two slots, so a lap later is another position
  have hcap := g.two_le_cap
  have hlt := hpub.2.1
  have htail := h.tail_le
  -- Of the old window only position `p` uses the slot that changed.
  have hkeep : ∀ p', s.head ≤ p' → p' < s.head + g.cap → p' ≠ p → s'.seq g p' = s.seq g p' := by
    intro p' hp' hlt' hne
    rw [hseq, if_neg]
    intro hmod
    exact hne (h.eq_of_mod_eq hold.le hlt hp' hlt' hmod.symm).symm
  -- a published position is held by nobody
  have hheld : ∀ j p', (s.push j).held = some p' → p' ≠ p := by
    rintro j p' hj rfl
    have := (h.held j p' hj).2.2
    have := hpub.2.2
    omega
  constructor
  · subst hs'
    exact h.reserved_length
  · omega
  · omega
  -- the slot is free for the position one lap later
  · intro p' hge hlt'
    by_cases hlap : p' = p + g.cap
    · rw [hseq, if_pos (by rw [hlap, Nat.add_mod_right]), hlap]
    · rw [hkeep p' (by omega) (by omega) (by omega)]
      exact h.free p' (by omega) (by omega)
  -- the positions in the window are still held or published
  · intro p' hge hlt'
    rw [hpush, hkeep p' (by omega) (by omega) (by omega)]
    exact h.live p' (by omega) (by omega)
  · intro j p' hj
    rw [hpush] at hj
    have hne := hheld j p' hj
    obtain ⟨h1, h2, h3⟩ := h.held j p' hj
    rw [hkeep p' h1 (by omega) hne]
    exact ⟨by omega, by omega, h3⟩
  · intro j k p' hj hk
    rw [hpush] at hj hk
    exact h.unique j k p' hj hk
  · intro j
    rw [hpush]
    exact (h.loaded j).mono henq.ge (by omega)
  · intro j
    rw [hpush]
    exact h.valid j
  · subst hs'
    exact hpos

/-- Every step keeps the position invariant. -/
theorem PosInv.step (h : PosInv g s) (hstep : QueueStep g s s') : PosInv g s' := by
  have hpop := h.pop_ok
  cases hstep with
  | call i m hpc =>
    -- a call begins without a position
    refine h.push_same i _ rfl (fun _ => rfl) rfl rfl rfl rfl (by rw [hpc]; rfl) trivial ?_
    intro m' spill hframe
    cases hframe
  -- a step before the position is won
  | quiet i pc hfrom hto hblock hpending hframe hloaded hvalid =>
    exact h.push_same i pc rfl (fun _ => rfl) rfl rfl rfl rfl (hto.trans hfrom.symm) hloaded hvalid
  | take i m word bit hneeds hheld hnone hbit hclear hlt hpending =>
    exact h.push_same i _ rfl (fun _ => rfl) rfl rfl rfl rfl hheld.symm trivial hneeds
  | copy i m b hpc =>
    have hvalid := h.valid i
    rw [hpc] at hvalid
    refine h.push_same i _ rfl (fun _ => rfl) rfl rfl rfl rfl (by rw [hpc]; rfl) trivial ?_
    rintro m' spill ⟨⟩
    exact ⟨hvalid.1, by simpa using hvalid.2⟩
  | exhaust i m hpc =>
    exact h.push_same i _ rfl (fun _ => rfl) rfl rfl rfl rfl (by rw [hpc]; rfl) trivial
      (PushPc.valid_returned g false)
  | reserve i m spill hpc hlt => exact h.reserve i m spill hpc hlt _ rfl
  -- a field write does not touch the sequence words
  | write i m spill p w rest hpc =>
    have hvalid := h.valid i
    rw [hpc] at hvalid
    exact h.push_same i _ rfl (seq_writeRecord rfl) rfl rfl rfl rfl (by rw [hpc]; rfl)
      trivial hvalid
  | publish i m spill p hpc => exact h.publish i m spill p hpc _ rfl
  | giveBack i m b hpc =>
    exact h.push_same i _ rfl (fun _ => rfl) rfl rfl rfl rfl (by rw [hpc]; rfl) trivial
      (PushPc.valid_returned g false)
  -- the consumer moves without a claim
  | popQuiet pc hfrom hto hout =>
    have hfreed : ∀ pc : PopPc, pc.Unclaimed s.q.dequeuePos → pc.freed = 0 := by
      intro pc hpc
      cases pc <;> first
        | rfl
        | exact hpc.elim
    refine h.pop_move pc (by rw [hfreed pc hto, hfreed s.pop hfrom]) ?_
    cases pc <;> first
      | exact hto
      | exact hto.elim
  | popClaim out max dst hpc hpub => exact h.pop_move _ (by rw [hpc]; rfl) ⟨rfl, hpub⟩
  | popSpill out max dst p hpc =>
    rw [hpc] at hpop
    exact h.pop_move _ (by rw [hpc]; rfl) hpop
  | popRead out max dst p spill read rest hpc =>
    rw [hpc] at hpop
    exact h.pop_move _ (by rw [hpc]; rfl) hpop
  -- giving the block back changes neither positions nor words
  | popPut out max dst p spill hpc =>
    rw [hpc] at hpop
    have hslots : (s.q.spillPut spill).slots = s.q.slots := by cases spill <;> rfl
    have henq : (s.q.spillPut spill).enqueuePos = s.q.enqueuePos := by cases spill <;> rfl
    have hdeq : (s.q.spillPut spill).dequeuePos = s.q.dequeuePos := by cases spill <;> rfl
    have hseq : ∀ p', ({ s with
        q := s.q.spillPut spill, pop := .storeSeq out max dst p } : QueueSys ι).seq g p' =
        s.seq g p' := by
      intro p'
      rw [QueueSys.seq, QueueSys.seq, hslots]
    have hhead : ({ s with
        q := s.q.spillPut spill, pop := .storeSeq out max dst p } : QueueSys ι).head = s.head := by
      rw [QueueSys.head, QueueSys.head, hpc, hdeq]
      rfl
    exact h.pop_same hseq henq hhead rfl rfl
      ⟨hpop.1.trans hdeq.symm, published_of_same hhead hseq henq.ge hpop.2⟩
  | popFree out max dst p hpc => exact h.popFree out max dst p hpc _ rfl
  -- the head is stored, which has moved already
  | popAdvance out max dst p hpc =>
    rw [hpc] at hpop
    have hfreed : (popNext (out ++ [dst]) max).freed = 0 := by cases max <;> rfl
    have hhead : ({ s with
        q := { s.q with dequeuePos := p + 1 }
        pop := popNext (out ++ [dst]) max
        popped := s.popped ++ [dst] } : QueueSys ι).head = s.head := by
      rw [QueueSys.head, QueueSys.head, hpc, show s.q.dequeuePos = p from hpop.symm]
      exact congrArg (p + 1 + ·) hfreed
    refine h.pop_same (fun _ => rfl) rfl hhead rfl rfl ?_
    cases max <;> trivial

end Update

theorem PosInv.init (ι : Type) (g : QueueGeometry) : PosInv g (QueueSys.init ι) := by
  constructor
  · rfl
  · exact le_rfl
  · exact Nat.zero_le _
  · intro p _ hlt
    have hlt' : p < g.cap := by
      simpa [QueueSys.init, QueueSys.head, Queue.init, PopPc.freed] using hlt
    exact Nat.mod_eq_of_lt hlt'
  · intro p _ hlt
    exact absurd hlt (Nat.not_lt_zero p)
  · intro i p hi
    cases hi
  · intro i j p hi
    cases hi
  · intro i
    trivial
  · intro i m spill h
    cases h
  · trivial

end CLogger
