import CLogger.Queue.Invariant

/-!
# Records in their slots

What the slots hold: the record of a published position is the packed message of the producer that
reserved the position (`RecInv`), and reservations are in program order for each producer
(`OrderInv`). The record of a published position does not change while it is published.
-/

namespace CLogger

variable {ι : Type} {g : QueueGeometry} {s s' : QueueSys ι}

/-- Records being packed hold the field writes done so far; published records are packed messages;
the consumer knows the spill index of the record it unpacks. -/
structure RecInv (g : QueueGeometry) (s : QueueSys ι) : Prop where
  packing : ∀ i m spill p rest, s.push i = .pack m spill p rest →
    s.reserved[p]? = some ⟨i, s.calls i, m⟩ ∧
      ∃ old done, done ++ rest = packWrites m (loggerRecordTextLength m) spill ∧
        s.record g p = runWrites done old
  published : ∀ p, s.Published g p → ∃ res spill old, s.reserved[p]? = some res ∧
    FrameValid res.message spill ∧
      s.record g p = queueRecordPack old res.message (loggerRecordTextLength res.message) spill
  unpacking : ∀ out max dst p spill rest, s.pop = .unpack out max dst p spill rest →
    spill = (s.record g p).spillIndex

/-- A step that keeps the records, publishes nothing and starts no packing keeps `RecInv`. -/
theorem RecInv.of_same (h : RecInv g s) (hrec : ∀ p, s'.record g p = s.record g p)
    (hpub : ∀ p, s'.Published g p → s.Published g p) (hres : s'.reserved = s.reserved)
    (hpack : ∀ i m spill p rest, s'.push i = .pack m spill p rest →
      s.push i = .pack m spill p rest ∧ s'.calls i = s.calls i)
    (hpop : ∀ out max dst p spill rest, s'.pop = .unpack out max dst p spill rest →
      spill = (s.record g p).spillIndex) : RecInv g s' where
  packing i m spill p rest hi := by
    obtain ⟨hi', hcalls⟩ := hpack i m spill p rest hi
    rw [hres, hcalls, hrec]
    exact h.packing i m spill p rest hi'
  published p hp := by
    rw [hres, hrec]
    exact h.published p (hpub p hp)
  unpacking out max dst p spill rest hp := by
    rw [hrec]
    exact hpop out max dst p spill rest hp

theorem record_storeSeq {i v : ℕ} (hq : s'.q = s.q.storeSeq i v) (p : ℕ) :
    s'.record g p = s.record g p := by
  rw [QueueSys.record, QueueSys.record, hq, Queue.storeSeq]
  by_cases hp : p % g.cap = i
  · simp [hp]
  · simp [Function.update_of_ne hp]

theorem record_writeRecord {i : ℕ} {w : QueueRecord → QueueRecord}
    (hq : s'.q = s.q.writeRecord i w) (p : ℕ) :
    s'.record g p = if p % g.cap = i then w (s.record g p) else s.record g p := by
  rw [QueueSys.record, QueueSys.record, hq, Queue.writeRecord]
  by_cases hp : p % g.cap = i
  · simp [hp]
  · simp [hp]

/-- The slot of a held position is not the slot of a published one. -/
theorem PosInv.mod_ne_of_published (h : PosInv g s) {i : ι} {p p' : ℕ}
    (hi : (s.push i).held = some p) (hpub : s.Published g p') : p' % g.cap ≠ p % g.cap := by
  obtain ⟨hp, hlt, hseq⟩ := h.held i p hi
  obtain ⟨hp', hlt', hseq'⟩ := hpub
  have htail := h.tail_le
  intro hmod
  obtain rfl : p = p' := h.eq_of_mod_eq hp hlt hp' (by omega) hmod.symm
  omega

/-- The slots of two held positions differ. -/
theorem PosInv.mod_ne_of_held (h : PosInv g s) {i j : ι} {p p' : ℕ} (hij : j ≠ i)
    (hi : (s.push i).held = some p) (hj : (s.push j).held = some p') :
    p' % g.cap ≠ p % g.cap := by
  obtain ⟨hp, hlt, -⟩ := h.held i p hi
  obtain ⟨hp', hlt', -⟩ := h.held j p' hj
  have htail := h.tail_le
  intro hmod
  obtain rfl : p = p' := h.eq_of_mod_eq hp hlt hp' (by omega) hmod.symm
  exact hij (h.unique j i p hj hi)

theorem PopPc.Unclaimed.freed_eq {d : ℕ} {pc : PopPc} (h : pc.Unclaimed d) : pc.freed = 0 := by
  cases pc <;> first
    | rfl
    | exact h.elim

/-- The published positions depend only on the first unfreed position, `enqueue_pos` and the
sequence words. -/
theorem published_congr (hhead : s'.head = s.head) (hseq : ∀ p, s'.seq g p = s.seq g p)
    (henq : s'.q.enqueuePos = s.q.enqueuePos) {p : ℕ} : s'.Published g p ↔ s.Published g p := by
  rw [QueueSys.Published, QueueSys.Published, hhead, hseq, henq]

theorem published_pop_move {pc : PopPc} (hfreed : pc.freed = s.pop.freed) {p : ℕ} :
    ({ s with pop := pc } : QueueSys ι).Published g p ↔ s.Published g p := by
  have hhead : ({ s with pop := pc } : QueueSys ι).head = s.head :=
    congrArg (s.q.dequeuePos + ·) hfreed
  exact published_congr hhead (fun _ => rfl) rfl

@[simp]
theorem Queue.spillPut_enqueuePos (q : Queue) (spill : Option ℕ) :
    (q.spillPut spill).enqueuePos = q.enqueuePos := by
  cases spill <;> rfl

theorem spillPut_slots (q : Queue) (spill : Option ℕ) : (q.spillPut spill).slots = q.slots := by
  cases spill <;> rfl

theorem published_popPut {out : List LoggerMessage} {max : Option ℕ} {dst : LoggerMessage} {p : ℕ}
    {spill : Option ℕ} (hpc : s.pop = .unpack out max dst p spill []) {p' : ℕ} :
    ({ s with q := s.q.spillPut spill, pop := .storeSeq out max dst p } : QueueSys ι).Published g p'
      ↔ s.Published g p' := by
  refine published_congr ?_ (fun p => ?_) ?_
  · rw [QueueSys.head, QueueSys.head, hpc]
    cases spill <;> rfl
  · rw [QueueSys.seq, QueueSys.seq, spillPut_slots]
  · cases spill <;> rfl

theorem published_popAdvance (hpos : PosInv g s) {out : List LoggerMessage} {max : Option ℕ}
    {dst : LoggerMessage} {p : ℕ} (hpc : s.pop = .storePos out max dst p) {p' : ℕ} :
    ({ s with
        q := { s.q with dequeuePos := p + 1 }
        pop := popNext (out ++ [dst]) max
        popped := s.popped ++ [dst] } : QueueSys ι).Published g p' ↔ s.Published g p' := by
  have hpop := hpos.pop_ok
  rw [hpc] at hpop
  refine published_congr ?_ ?_ ?_
  · rw [QueueSys.head, QueueSys.head, hpc, show s.q.dequeuePos = p from hpop.symm]
    cases max <;> rfl
  · intro p
    rfl
  · rfl

/-- A publication publishes its position and no other. -/
theorem published_publish (hpos : PosInv g s) {i : ι} {p : ℕ} (hi : (s.push i).held = some p)
    (hq : s'.q = s.q.storeSeq (p % g.cap) (p + 1)) (hpop : s'.pop = s.pop) (p' : ℕ) :
    s'.Published g p' ↔ p' = p ∨ s.Published g p' := by
  obtain ⟨hp, hlt, hseqp⟩ := hpos.held i p hi
  have htail := hpos.tail_le
  have hseq : s'.seq g p' = if p' % g.cap = p % g.cap then p + 1 else s.seq g p' :=
    seq_storeSeq hq p'
  have hhead : s'.head = s.head := by rw [QueueSys.head, QueueSys.head, hpop, hq]; rfl
  have henq : s'.q.enqueuePos = s.q.enqueuePos := by rw [hq]; rfl
  by_cases hmod : p' % g.cap = p % g.cap
  · rw [if_pos hmod] at hseq
    constructor
    · rintro ⟨h1, h2, h3⟩
      exact .inl (by omega)
    · rintro (rfl | ⟨h1, h2, h3⟩)
      · exact ⟨by omega, by omega, hseq⟩
      · obtain rfl := hpos.eq_of_mod_eq h1 h2 hp (by omega) hmod
        omega
  · rw [if_neg hmod] at hseq
    constructor
    · rintro ⟨h1, h2, h3⟩
      exact .inr ⟨by omega, by omega, by omega⟩
    · rintro (rfl | ⟨h1, h2, h3⟩)
      · exact absurd rfl hmod
      · exact ⟨by omega, by omega, by omega⟩

/-- Freeing a slot ends the publication of its position and of no other. -/
theorem published_popFree (hpos : PosInv g s) {out : List LoggerMessage} {max : Option ℕ}
    {dst : LoggerMessage} {p : ℕ} (hpc : s.pop = .storeSeq out max dst p) (s' : QueueSys ι)
    (hs' : s' = { s with
      q := s.q.storeSeq (p % g.cap) (p + g.cap), pop := .storePos out max dst p }) (p' : ℕ) :
    s'.Published g p' ↔ s.Published g p' ∧ p' ≠ p := by
  have hseq : s'.seq g p' = if p' % g.cap = p % g.cap then p + g.cap else s.seq g p' :=
    seq_storeSeq (by subst hs'; rfl) p'
  have hpop := hpos.pop_ok
  rw [hpc] at hpop
  obtain ⟨hdeq, hpub⟩ := hpop
  have hold : s.head = p := by rw [QueueSys.head, hpc, hdeq]; rfl
  have hhead : s'.head = p + 1 := by subst hs'; rw [hdeq]; rfl
  have henq : s'.q.enqueuePos = s.q.enqueuePos := by subst hs'; rfl
  have htail := hpos.tail_le
  by_cases hmod : p' % g.cap = p % g.cap
  · rw [if_pos hmod] at hseq
    constructor
    · rintro ⟨h1, h2, h3⟩
      -- Only `p` itself has this slot in the window.
      have := hpos.eq_of_mod_eq hold.le hpub.2.1 (by omega) (by omega) hmod.symm
      omega
    · rintro ⟨⟨h1, h2, h3⟩, hne⟩
      exact absurd (hpos.eq_of_mod_eq hold.le hpub.2.1 h1 (by omega) hmod.symm).symm hne
  · rw [if_neg hmod] at hseq
    constructor
    · rintro ⟨h1, h2, h3⟩
      exact ⟨⟨by omega, by omega, by omega⟩, by omega⟩
    · rintro ⟨⟨h1, h2, h3⟩, hne⟩
      exact ⟨by omega, by omega, by omega⟩

variable [DecidableEq ι]

/-- A moved producer packs nothing it did not pack before. -/
theorem pack_of_update {i : ι} {pc : PushPc} (hpc : pc.held = none) {j : ι} {m : LoggerMessage}
    {spill : Option ℕ} {p : ℕ} {rest : List (QueueRecord → QueueRecord)}
    (h : Function.update s.push i pc j = .pack m spill p rest) :
    j ≠ i ∧ s.push j = .pack m spill p rest := by
  by_cases hj : j = i
  · subst hj
    rw [Function.update_self] at h
    rw [h] at hpc
    cases hpc
  · rw [Function.update_of_ne hj] at h
    exact ⟨hj, h⟩

/-- A reservation keeps `RecInv`: the new entry is the record to be packed. -/
theorem RecInv.reserve (h : RecInv g s) (hpos : PosInv g s) (i : ι) (m : LoggerMessage)
    (spill : Option ℕ) (hlt : s.q.enqueuePos < s.head + g.cap) (s' : QueueSys ι)
    (hs' : s' = { s with
      q := { s.q with enqueuePos := s.q.enqueuePos + 1 }
      push := Function.update s.push i (.pack m spill s.q.enqueuePos
        (packWrites m (loggerRecordTextLength m) spill))
      reserved := s.reserved ++ [⟨i, s.calls i, m⟩] }) : RecInv g s' := by
  -- no slot is written, and the order gets one entry
  have hrec : ∀ p, s'.record g p = s.record g p := by subst hs'; intro p; rfl
  have hother : ∀ j, j ≠ i → s'.push j = s.push j := by
    subst hs'
    intro j hj
    exact Function.update_of_ne hj _ _
  have hold : ∀ {p : ℕ} {r}, s.reserved[p]? = some r → s'.reserved[p]? = some r := by
    intro p r hr
    subst hs'
    rw [List.getElem?_append_left (List.getElem?_eq_some_iff.mp hr).1]
    exact hr
  constructor
  -- the new producer has its fields to write
  · intro j m' spill' p rest hj
    rw [hrec]
    by_cases hji : j = i
    · subst hji
      have hself : s'.push j = .pack m spill s.q.enqueuePos
          (packWrites m (loggerRecordTextLength m) spill) := by
        subst hs'
        exact Function.update_self _ _ _
      rw [hself] at hj
      obtain ⟨rfl, rfl, rfl, rfl⟩ := PushPc.pack.inj hj
      refine ⟨?_, s.record g _, [], rfl, rfl⟩
      subst hs'
      simp [← hpos.reserved_length]
    -- the others write what they did
    · have hj' : s.push j = .pack m' spill' p rest := by
        rw [← hother j hji]
        exact hj
      obtain ⟨hr, hw⟩ := h.packing j m' spill' p rest hj'
      refine ⟨?_, hw⟩
      have hcalls : s'.calls = s.calls := by subst hs'; rfl
      rw [hcalls]
      exact hold hr
  -- the new position is not published yet
  · rintro p ⟨hp, hlt', hseq⟩
    have hseq' : s'.seq g p = s.seq g p := by subst hs'; rfl
    have hhead : s'.head = s.head := by subst hs'; rfl
    have henq : s'.q.enqueuePos = s.q.enqueuePos + 1 := by subst hs'; rfl
    have hne : p ≠ s.q.enqueuePos := by
      rintro rfl
      have := hpos.free _ le_rfl hlt
      omega
    obtain ⟨r, spill', old, hr, hvalid, hpack⟩ :=
      h.published p ⟨by omega, by omega, by rw [← hseq']; exact hseq⟩
    exact ⟨r, spill', old, hold hr, hvalid, by rw [hrec]; exact hpack⟩
  -- the consumer reads as before
  · intro out max dst p spill' rest hp
    rw [hrec]
    exact h.unpacking out max dst p spill' rest (by subst hs'; exact hp)

/-- A field write keeps `RecInv`: it changes only the slot its producer holds. -/
theorem RecInv.write (h : RecInv g s) (hpos : PosInv g s) (i : ι) (m : LoggerMessage)
    (spill : Option ℕ) (p : ℕ) (w : QueueRecord → QueueRecord)
    (rest : List (QueueRecord → QueueRecord)) (hpc : s.push i = .pack m spill p (w :: rest))
    (s' : QueueSys ι)
    (hs' : s' = { s with
      q := s.q.writeRecord (p % g.cap) w
      push := Function.update s.push i (.pack m spill p rest) }) : RecInv g s' := by
  have hi : (s.push i).held = some p := by rw [hpc]; rfl
  have hrec : ∀ p', s'.record g p' =
      if p' % g.cap = p % g.cap then w (s.record g p') else s.record g p' :=
    record_writeRecord (by subst hs'; rfl)
  have hother : ∀ j, j ≠ i → s'.push j = s.push j := by
    subst hs'
    intro j hj
    exact Function.update_of_ne hj _ _
  -- what is published after the step was published before it
  have hpub : ∀ p', s'.Published g p' → s.Published g p' := by
    intro p' hp'
    have hseq : s'.seq g p' = s.seq g p' := seq_writeRecord (by subst hs'; rfl) p'
    subst hs'
    exact ⟨hp'.1, hp'.2.1, hseq ▸ hp'.2.2⟩
  -- a published record is not the one written to
  have hkeep : ∀ p', s.Published g p' → s'.record g p' = s.record g p' := by
    intro p' hp'
    rw [hrec, if_neg (hpos.mod_ne_of_published hi hp')]
  constructor
  -- one write is done
  · intro j m' spill' p' rest' hj
    by_cases hji : j = i
    · subst hji
      have hself : s'.push j = .pack m spill p rest := by
        subst hs'
        exact Function.update_self _ _ _
      rw [hself] at hj
      obtain ⟨rfl, rfl, rfl, rfl⟩ := PushPc.pack.inj hj
      obtain ⟨hr, old, done, hdone, hrun⟩ := h.packing j m spill p (w :: rest) hpc
      refine ⟨by subst hs'; exact hr, old, done ++ [w], by rw [← hdone]; simp, ?_⟩
      rw [hrec, if_pos rfl, hrun, runWrites_append]
      rfl
    · have hj' : s.push j = .pack m' spill' p' rest' := by
        rw [← hother j hji]
        exact hj
      have hheld : (s.push j).held = some p' := by rw [hj']; rfl
      obtain ⟨hr, hw⟩ := h.packing j m' spill' p' rest' hj'
      rw [hrec, if_neg (hpos.mod_ne_of_held hji hi hheld)]
      exact ⟨by subst hs'; exact hr, hw⟩
  -- the published records are untouched
  · intro p' hp'
    obtain ⟨r, spill', old, hr, hvalid, hpack⟩ := h.published p' (hpub p' hp')
    exact ⟨r, spill', old, by subst hs'; exact hr, hvalid,
      by rw [hkeep p' (hpub p' hp')]; exact hpack⟩
  -- so is the record that is being read
  · intro out max dst p' spill' rest' hp'
    have hpop : s.pop = .unpack out max dst p' spill' rest' := by subst hs'; exact hp'
    have hok := hpos.pop_ok
    rw [hpop] at hok
    rw [hkeep p' hok.2]
    exact h.unpacking out max dst p' spill' rest' hpop

/-- A publication keeps `RecInv`: all fields of the record have been written. -/
theorem RecInv.publish (h : RecInv g s) (hpos : PosInv g s) (i : ι) (m : LoggerMessage)
    (spill : Option ℕ) (p : ℕ) (hpc : s.push i = .pack m spill p []) (s' : QueueSys ι)
    (hs' : s' = { s with
      q := s.q.storeSeq (p % g.cap) (p + 1), push := Function.update s.push i (.returned true) }) :
    RecInv g s' := by
  have hi : (s.push i).held = some p := by rw [hpc]; rfl
  have hrec : ∀ p', s'.record g p' = s.record g p' := record_storeSeq (by subst hs'; rfl)
  have hpub : ∀ p', s'.Published g p' ↔ p' = p ∨ s.Published g p' :=
    published_publish hpos hi (by subst hs'; rfl) (by subst hs'; rfl)
  -- the producer has left the record, and the others go on
  constructor
  · intro j m' spill' p' rest' hj
    obtain ⟨hji, hj'⟩ := pack_of_update (s := s) (i := i) rfl
      (by subst hs'; exact hj)
    obtain ⟨hr, hw⟩ := h.packing j m' spill' p' rest' hj'
    rw [hrec]
    exact ⟨by subst hs'; exact hr, hw⟩
  -- all writes are done, so the record is the packed one
  · intro p' hp'
    rw [hrec]
    rcases (hpub p').mp hp' with rfl | hold
    · obtain ⟨hr, old, done, hdone, hrun⟩ := h.packing i m spill p' [] hpc
      have hvalid := hpos.valid i
      rw [hpc] at hvalid
      rw [List.append_nil] at hdone
      exact ⟨⟨i, s.calls i, m⟩, spill, old, by subst hs'; exact hr, hvalid m spill rfl,
        by rw [hrun, hdone]; rfl⟩
    · obtain ⟨r, spill', old, hr, hvalid, hpack⟩ := h.published p' hold
      exact ⟨r, spill', old, by subst hs'; exact hr, hvalid, hpack⟩
  · intro out max dst p' spill' rest' hp'
    rw [hrec]
    exact h.unpacking out max dst p' spill' rest' (by subst hs'; exact hp')

/-- A move of a producer that packs nothing, changes no slot and reserves nothing keeps `RecInv`. -/
theorem RecInv.push_same (h : RecInv g s) (i : ι) (pc : PushPc)
    (hpush : s'.push = Function.update s.push i pc) (hheld : pc.held = none)
    (hslots : s'.q.slots = s.q.slots) (henq : s'.q.enqueuePos = s.q.enqueuePos)
    (hhead : s'.head = s.head) (hres : s'.reserved = s.reserved)
    (hcalls : ∀ j, j ≠ i → s'.calls j = s.calls j) (hpop : s'.pop = s.pop) : RecInv g s' := by
  have hseq : ∀ p, s.seq g p = s'.seq g p := fun p => by rw [QueueSys.seq, QueueSys.seq, hslots]
  refine h.of_same (fun p => by rw [QueueSys.record, QueueSys.record, hslots])
    (fun p => published_of_same hhead.symm hseq henq.le) hres ?_ ?_
  · intro j m spill p rest hj
    obtain ⟨hji, hj'⟩ := pack_of_update (s := s) hheld (by rw [← hpush]; exact hj)
    exact ⟨hj', hcalls j hji⟩
  · intro out max dst p spill rest hp
    exact h.unpacking out max dst p spill rest (hpop ▸ hp)

omit [DecidableEq ι] in
/-- A move of the consumer that changes no record and unpacks nothing new keeps `RecInv`. -/
theorem RecInv.pop_same (h : RecInv g s) (hrec : ∀ p, s'.record g p = s.record g p)
    (hpub : ∀ p, s'.Published g p → s.Published g p) (hres : s'.reserved = s.reserved)
    (hpush : s'.push = s.push) (hcalls : s'.calls = s.calls)
    (hpop : ∀ out max dst p spill rest, s'.pop = .unpack out max dst p spill rest →
      spill = (s.record g p).spillIndex) : RecInv g s' := by
  refine h.of_same hrec hpub hres ?_ hpop
  intro i m spill p rest hi
  exact ⟨hpush ▸ hi, congrFun hcalls i⟩

/-- Every step keeps `RecInv`. -/
theorem RecInv.step (h : RecInv g s) (hpos : PosInv g s) (hstep : QueueStep g s s') :
    RecInv g s' := by
  cases hstep with
  -- the steps that write no record
  | call i m hpc =>
    exact h.push_same i _ rfl rfl rfl rfl rfl rfl (fun j hj => Function.update_of_ne hj _ _) rfl
  | quiet i pc hfrom hto hblock hpending hframe hloaded hvalid =>
    exact h.push_same i pc rfl hto rfl rfl rfl rfl (fun _ _ => rfl) rfl
  | take i m word bit hneeds hheld hnone hbit hclear hlt hpending =>
    exact h.push_same i _ rfl rfl rfl rfl rfl rfl (fun _ _ => rfl) rfl
  | copy i m b hpc => exact h.push_same i _ rfl rfl rfl rfl rfl rfl (fun _ _ => rfl) rfl
  | exhaust i m hpc => exact h.push_same i _ rfl rfl rfl rfl rfl rfl (fun _ _ => rfl) rfl
  | reserve i m spill hpc hlt => exact h.reserve hpos i m spill hlt _ rfl
  | write i m spill p w rest hpc => exact h.write hpos i m spill p w rest hpc _ rfl
  | publish i m spill p hpc => exact h.publish hpos i m spill p hpc _ rfl
  | giveBack i m b hpc => exact h.push_same i _ rfl rfl rfl rfl rfl rfl (fun _ _ => rfl) rfl
  -- the consumer moves between records
  | popQuiet pc hfrom hto hout =>
    refine h.pop_same (fun _ => rfl)
      (fun _ => (published_pop_move (hto.freed_eq.trans hfrom.freed_eq.symm)).mp) rfl rfl rfl ?_
    intro out max dst p spill rest hp
    obtain rfl : pc = _ := hp
    exact hto.elim
  | popClaim out max dst hpc hpub =>
    exact h.pop_same (fun _ => rfl) (fun _ => (published_pop_move (by rw [hpc]; rfl)).mp)
      rfl rfl rfl (fun _ _ _ _ _ _ hp => by cases hp)
  -- it begins with nothing read
  | popSpill out max dst p hpc =>
    refine h.pop_same (fun _ => rfl) (fun _ => (published_pop_move (by rw [hpc]; rfl)).mp)
      rfl rfl rfl ?_
    rintro out' max' dst' p' spill' rest' ⟨⟩
    rfl
  -- it reads one field more
  | popRead out max dst p spill read rest hpc =>
    refine h.pop_same (fun _ => rfl) (fun _ => (published_pop_move (by rw [hpc]; rfl)).mp)
      rfl rfl rfl ?_
    rintro out' max' dst' p' spill' rest' ⟨⟩
    exact h.unpacking out max dst p spill (read :: rest) hpc
  | popPut out max dst p spill hpc =>
    refine h.pop_same (fun p => by rw [QueueSys.record, QueueSys.record, spillPut_slots])
      (fun _ => (published_popPut hpc).mp) rfl rfl rfl (fun _ _ _ _ _ _ hp => by cases hp)
  -- a freed slot is not published any more
  | popFree out max dst p hpc =>
    refine h.pop_same (record_storeSeq rfl) ?_ rfl rfl rfl (fun _ _ _ _ _ _ hp => by cases hp)
    intro p' hp'
    exact (published_popFree hpos hpc _ rfl p').mp hp' |>.1
  | popAdvance out max dst p hpc =>
    refine h.pop_same (fun _ => rfl) (fun _ => (published_popAdvance hpos hpc).mp) rfl rfl rfl ?_
    intro out' max' dst' p' spill' rest' hp'
    cases max <;> cases hp'

omit [DecidableEq ι] in
theorem RecInv.init (g : QueueGeometry) : RecInv g (QueueSys.init ι) where
  packing i m spill p rest hi := by cases hi
  published p hp := absurd hp.2.1 (Nat.not_lt_zero p)
  unpacking out max dst p spill rest hp := by cases hp

/-- Reservations of one producer are in the order of its calls, at most one for each call. -/
structure OrderInv (s : QueueSys ι) : Prop where
  order : s.reserved.Pairwise fun a b => a.producer = b.producer → a.call < b.call
  calls : ∀ r ∈ s.reserved, r.call ≤ s.calls r.producer
  pending : ∀ r ∈ s.reserved, (s.push r.producer).pending = true → r.call < s.calls r.producer

omit [DecidableEq ι] in
/-- A step that reserves nothing and starts no call keeps `OrderInv`. -/
theorem OrderInv.of_same (h : OrderInv s) (hres : s'.reserved = s.reserved)
    (hcalls : s'.calls = s.calls)
    (hpending : ∀ i, (s'.push i).pending = true → (s.push i).pending = true) : OrderInv s' where
  order := by rw [hres]; exact h.order
  calls r hr := by rw [hcalls]; exact h.calls r (hres ▸ hr)
  pending r hr hp := by rw [hcalls]; exact h.pending r (hres ▸ hr) (hpending _ hp)

/-- A move of a producer that reserves nothing and starts no call keeps `OrderInv`. -/
theorem OrderInv.push_same (h : OrderInv s) (i : ι) (pc : PushPc)
    (hpush : s'.push = Function.update s.push i pc) (hres : s'.reserved = s.reserved)
    (hcalls : s'.calls = s.calls) (hpc : pc.pending = true → (s.push i).pending = true) :
    OrderInv s' := by
  refine h.of_same hres hcalls ?_
  rw [hpush, Function.forall_update_iff _ fun j (pc : PushPc) =>
    pc.pending = true → (s.push j).pending = true]
  exact ⟨hpc, fun _ _ hj => hj⟩

/-- A new call is later than every reservation of its producer. -/
theorem OrderInv.call (h : OrderInv s) (i : ι) (pc : PushPc) (s' : QueueSys ι)
    (hs' : s' = { s with
      push := Function.update s.push i pc
      calls := Function.update s.calls i (s.calls i + 1) }) : OrderInv s' := by
  have hres : s'.reserved = s.reserved := by subst hs'; rfl
  have hself : s'.calls i = s.calls i + 1 := by subst hs'; exact Function.update_self _ _ _
  have hcalls : ∀ j, j ≠ i → s'.calls j = s.calls j := by
    subst hs'
    intro j hj
    exact Function.update_of_ne hj _ _
  have hother : ∀ j, j ≠ i → s'.push j = s.push j := by
    subst hs'
    intro j hj
    exact Function.update_of_ne hj _ _
  refine ⟨by rw [hres]; exact h.order, fun r hr => ?_, fun r hr hp => ?_⟩ <;> rw [hres] at hr
  · by_cases hri : r.producer = i
    · rw [hri, hself]
      exact (hri ▸ h.calls r hr).trans (Nat.le_succ _)
    · rw [hcalls _ hri]
      exact h.calls r hr
  · by_cases hri : r.producer = i
    · rw [hri, hself]
      exact Nat.lt_succ_of_le (hri ▸ h.calls r hr)
    · rw [hcalls _ hri]
      rw [hother _ hri] at hp
      exact h.pending r hr hp

/-- A reservation comes after the earlier ones of its producer. -/
theorem OrderInv.reserve (h : OrderInv s) (i : ι) (m : LoggerMessage) (pc : PushPc)
    (hfrom : (s.push i).pending = true) (hto : pc.pending = false) (s' : QueueSys ι)
    (hpush : s'.push = Function.update s.push i pc)
    (hres : s'.reserved = s.reserved ++ [⟨i, s.calls i, m⟩]) (hcalls : s'.calls = s.calls) :
    OrderInv s' := by
  refine ⟨?_, fun r hr => ?_, fun r hr hp => ?_⟩
  · rw [hres, List.pairwise_append]
    refine ⟨h.order, List.pairwise_singleton _ _, fun a ha b hb hab => ?_⟩
    obtain rfl := List.mem_singleton.mp hb
    obtain rfl : a.producer = i := hab
    exact h.pending a ha hfrom
  · rw [hcalls]
    rw [hres, List.mem_append, List.mem_singleton] at hr
    rcases hr with hr | rfl
    · exact h.calls r hr
    · exact le_rfl
  · rw [hcalls]
    have hne : r.producer ≠ i := by
      intro hri
      rw [hpush, hri, Function.update_self, hto] at hp
      cases hp
    rw [hpush, Function.update_of_ne hne] at hp
    rw [hres, List.mem_append, List.mem_singleton] at hr
    rcases hr with hr | rfl
    · exact h.pending r hr hp
    · exact absurd rfl hne

/-- Every step keeps `OrderInv`. -/
theorem OrderInv.step (h : OrderInv s) (hstep : QueueStep g s s') : OrderInv s' := by
  cases hstep with
  | call i m hpc => exact h.call i (.enter m) _ rfl
  | quiet i pc hfrom hto hblock hpending hframe hloaded hvalid =>
    exact h.push_same i pc rfl rfl rfl hpending
  | take i m word bit hneeds hheld hnone hbit hclear hlt hpending =>
    exact h.push_same i _ rfl rfl rfl fun _ => hpending
  | copy i m b hpc => exact h.push_same i _ rfl rfl rfl fun _ => by rw [hpc]; rfl
  | exhaust i m hpc => exact h.push_same i _ rfl rfl rfl fun hp => by cases hp
  | reserve i m spill hpc hlt => exact h.reserve i m _ (by rw [hpc]; rfl) rfl _ rfl rfl rfl
  | write i m spill p w rest hpc => exact h.push_same i _ rfl rfl rfl fun hp => by cases hp
  | publish i m spill p hpc => exact h.push_same i _ rfl rfl rfl fun hp => by cases hp
  | giveBack i m b hpc => exact h.push_same i _ rfl rfl rfl fun hp => by cases hp
  | popQuiet pc hfrom hto hout => exact h.of_same rfl rfl fun _ hp => hp
  | popClaim out max dst hpc hpub => exact h.of_same rfl rfl fun _ hp => hp
  | popSpill out max dst p hpc => exact h.of_same rfl rfl fun _ hp => hp
  | popRead out max dst p spill read rest hpc => exact h.of_same rfl rfl fun _ hp => hp
  | popPut out max dst p spill hpc => exact h.of_same rfl rfl fun _ hp => hp
  | popFree out max dst p hpc => exact h.of_same rfl rfl fun _ hp => hp
  | popAdvance out max dst p hpc => exact h.of_same rfl rfl fun _ hp => hp

omit [DecidableEq ι] in
theorem OrderInv.init : OrderInv (QueueSys.init ι) where
  order := List.Pairwise.nil
  calls r hr := by cases hr
  pending r hr := by cases hr

end CLogger
