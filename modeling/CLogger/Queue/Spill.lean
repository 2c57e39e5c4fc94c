import CLogger.Lib.Ownership
import CLogger.Queue.Records

/-!
# Ownership of the spill blocks

A spill block belongs to a producer from the compare-and-swap that set its bit to the publication
of the slot (or to the give-back on a full queue), then to the published slot, then to the consumer
from the moment it claims the slot until it clears the bit. `SpillInv` says that the bits set are
exactly the blocks owned and that no block has two owners; `TextInv` that an owned block that can
be read holds the text stored for it.
-/

namespace CLogger

open Ownership

variable {ι : Type} {g : QueueGeometry} {s s' : QueueSys ι}

/-- The position the consumer has claimed and not yet freed. -/
def PopPc.claimed : PopPc → Option ℕ
  | .readSpill _ _ _ pos => some pos
  | .unpack _ _ _ pos _ _ => some pos
  | .storeSeq _ _ _ pos => some pos
  | _ => none

/-- The claimed position while the consumer may still read its spill block. -/
def PopPc.reading : PopPc → Option ℕ
  | .readSpill _ _ _ pos => some pos
  | .unpack _ _ _ pos _ _ => some pos
  | _ => none

/-- Who can own a spill block. -/
inductive SpillOwner (ι : Type) where
  /-- A push in progress. -/
  | producer (i : ι)
  /-- The published slot of a position that the consumer has not claimed. -/
  | slot (p : ℕ)
  /-- The consumer, until it clears the bit. -/
  | consumer

/-- The owner `o` owns spill block `b`. -/
def QueueSys.Owns (g : QueueGeometry) (s : QueueSys ι) : SpillOwner ι → ℕ → Prop
  | .producer i, b => (s.push i).block = some b
  | .slot p, b => s.Published g p ∧ (s.record g p).spillIndex = some b ∧ s.pop.claimed ≠ some p
  | .consumer, b => ∃ p, s.pop.reading = some p ∧ (s.record g p).spillIndex = some b

/-- The bits set are exactly the owned blocks, no block has two owners, and all of them exist. -/
structure SpillInv (g : QueueGeometry) (s : QueueSys ι) : Prop where
  exclusive : Exclusive (fun b => BitWords.bitAt s.q.spillUsed b = true) (s.Owns g)
  bound : ∀ b, BitWords.bitAt s.q.spillUsed b = true → b < g.spillCap

/-- Ownership depends only on the blocks of the producers, the published records and the position
of the consumer. -/
theorem owns_congr (hblock : ∀ i, (s'.push i).block = (s.push i).block)
    (hpub : ∀ p, s'.Published g p ↔ s.Published g p)
    (hrec : ∀ p, s.Published g p → s'.record g p = s.record g p)
    (hclaimed : s'.pop.claimed = s.pop.claimed) (hreading : s'.pop.reading = s.pop.reading)
    (hread : ∀ p, s.pop.reading = some p → s.Published g p) (o : SpillOwner ι) (b : ℕ) :
    s'.Owns g o b ↔ s.Owns g o b := by
  cases o with
  | producer i => rw [QueueSys.Owns, QueueSys.Owns, hblock]
  | slot p =>
    rw [QueueSys.Owns, QueueSys.Owns, hpub, hclaimed]
    refine and_congr_right fun hp => ?_
    rw [hrec p hp]
  | consumer =>
    rw [QueueSys.Owns, QueueSys.Owns, hreading]
    refine exists_congr fun p => and_congr_right fun hp => ?_
    rw [hrec p (hread p hp)]

/-- The consumer reads only published slots. -/
theorem PosInv.published_of_reading (h : PosInv g s) {p : ℕ} (hp : s.pop.reading = some p) :
    s.Published g p := by
  have hok := h.pop_ok
  cases hpc : s.pop <;> rw [hpc] at hok hp <;> cases hp
  · exact hok.2
  · exact hok.2

/-- The consumer claims only published slots. -/
theorem PosInv.published_of_claimed (h : PosInv g s) {p : ℕ} (hp : s.pop.claimed = some p) :
    s.Published g p := by
  have hok := h.pop_ok
  cases hpc : s.pop <;> rw [hpc] at hok hp <;> cases hp
  · exact hok.2
  · exact hok.2
  · exact hok.2

theorem PopPc.Unclaimed.claimed_eq {d : ℕ} {pc : PopPc} (h : pc.Unclaimed d) :
    pc.claimed = none := by
  cases pc <;> first
    | rfl
    | exact h.elim

theorem PopPc.Unclaimed.reading_eq {d : ℕ} {pc : PopPc} (h : pc.Unclaimed d) :
    pc.reading = none := by
  cases pc <;> first
    | rfl
    | exact h.elim

/-- A step that keeps the bitmap and all owners keeps `SpillInv`. -/
theorem SpillInv.of_same (h : SpillInv g s) (hused : s'.q.spillUsed = s.q.spillUsed)
    (howns : ∀ o b, s'.Owns g o b ↔ s.Owns g o b) : SpillInv g s' where
  exclusive := h.exclusive.congr (fun b => by rw [hused]) howns
  bound b hb := h.bound b (hused ▸ hb)

/-- A move of the consumer between states that claim and read the same position. -/
theorem SpillInv.pop_same (h : SpillInv g s) (hpos : PosInv g s)
    (hused : s'.q.spillUsed = s.q.spillUsed) (hpush : s'.push = s.push)
    (hpub : ∀ p, s'.Published g p ↔ s.Published g p) (hslots : s'.q.slots = s.q.slots)
    (hclaimed : s'.pop.claimed = s.pop.claimed) (hreading : s'.pop.reading = s.pop.reading) :
    SpillInv g s' := by
  refine h.of_same hused (owns_congr (fun i => by rw [hpush]) hpub ?_ hclaimed hreading ?_)
  · intro p _
    rw [QueueSys.record, QueueSys.record, hslots]
  · exact fun p => hpos.published_of_reading

theorem published_writeRecord {i : ℕ} {w : QueueRecord → QueueRecord}
    (hq : s'.q = s.q.writeRecord i w) (hpop : s'.pop = s.pop) {p : ℕ} :
    s'.Published g p ↔ s.Published g p := by
  refine published_congr ?_ (seq_writeRecord hq) ?_
  · rw [QueueSys.head, QueueSys.head, hq, hpop]
    rfl
  · rw [hq]
    rfl

/-- A reservation publishes nothing. -/
theorem published_reserve (hpos : PosInv g s) (hlt : s.q.enqueuePos < s.head + g.cap)
    (hq : s'.q = { s.q with enqueuePos := s.q.enqueuePos + 1 }) (hpop : s'.pop = s.pop) (p : ℕ) :
    s'.Published g p ↔ s.Published g p := by
  have hhead : s'.head = s.head := by rw [QueueSys.head, QueueSys.head, hpop, hq]
  have hseq : s'.seq g p = s.seq g p := by rw [QueueSys.seq, QueueSys.seq, hq]
  have henq : s'.q.enqueuePos = s.q.enqueuePos + 1 := by rw [hq]
  constructor
  · rintro ⟨h1, h2, h3⟩
    have hne : p ≠ s.q.enqueuePos := by
      rintro rfl
      have := hpos.free _ le_rfl hlt
      omega
    exact ⟨by omega, by omega, by omega⟩
  · rintro ⟨h1, h2, h3⟩
    exact ⟨by omega, by omega, by omega⟩

variable [DecidableEq ι]

/-- The blocks of the producers after one of them moved. -/
theorem block_update {i : ι} {pc : PushPc} (hpush : s'.push = Function.update s.push i pc)
    (hblock : pc.block = (s.push i).block) (j : ι) : (s'.push j).block = (s.push j).block := by
  rw [hpush]
  by_cases hj : j = i
  · rw [hj, Function.update_self, hblock]
  · rw [Function.update_of_ne hj]

/-- A move of a producer that keeps its block, the bitmap and what is published. -/
theorem SpillInv.push_same (h : SpillInv g s) (hpos : PosInv g s) (i : ι) (pc : PushPc)
    (hpush : s'.push = Function.update s.push i pc) (hblock : pc.block = (s.push i).block)
    (hused : s'.q.spillUsed = s.q.spillUsed) (hpub : ∀ p, s'.Published g p ↔ s.Published g p)
    (hrec : ∀ p, s.Published g p → s'.record g p = s.record g p) (hpop : s'.pop = s.pop) :
    SpillInv g s' := by
  refine h.of_same hused (owns_congr (block_update hpush hblock) hpub hrec ?_ ?_ ?_)
  · rw [hpop]
  · rw [hpop]
  · exact fun p => hpos.published_of_reading

/-- Ownership after a producer has moved and, of the queue, only the blocks and their bits have
changed: the producer owns the block of its new state, and all others what they owned. -/
theorem owns_producer_moved {i : ι} {pc : PushPc} {q : Queue}
    (hs' : s' = { s with q := q, push := Function.update s.push i pc })
    (hslots : q.slots = s.q.slots) (henq : q.enqueuePos = s.q.enqueuePos)
    (hdeq : q.dequeuePos = s.q.dequeuePos) (o : SpillOwner ι) (b : ℕ) :
    s'.Owns g o b ↔
      (o = .producer i ∧ pc.block = some b) ∨ (o ≠ .producer i ∧ s.Owns g o b) := by
  subst hs'
  have hrec (p : ℕ) : QueueSys.record g { s with q := q, push := Function.update s.push i pc } p =
      s.record g p := by
    rw [QueueSys.record, QueueSys.record, hslots]
  have hpub (p : ℕ) : QueueSys.Published g { s with
      q := q, push := Function.update s.push i pc } p ↔ s.Published g p := by
    refine published_congr ?_ (fun p => ?_) henq
    · rw [QueueSys.head, QueueSys.head, hdeq]
    · unfold QueueSys.seq
      rw [hslots]
  cases o with
  | producer j =>
    simp only [QueueSys.Owns, SpillOwner.producer.injEq]
    by_cases hj : j = i <;> simp [hj]
  | slot p => simp [QueueSys.Owns, hrec, hpub]
  | consumer => simp [QueueSys.Owns, hrec]

/-- Taking a free block. -/
theorem SpillInv.take (h : SpillInv g s) (i : ι) (m : LoggerMessage) (word bit : ℕ)
    (hnone : (s.push i).block = none) (hbit : bit < 32)
    (hclear : BitWords.bitAt s.q.spillUsed (word * 32 + bit) = false)
    (hlt : word * 32 + bit < g.spillCap) (s' : QueueSys ι)
    (hs' : s' = { s with
      q := { s.q with spillUsed := BitWords.setBit s.q.spillUsed word bit }
      push := Function.update s.push i (.spillCopy m (word * 32 + bit)) }) : SpillInv g s' := by
  have hused : ∀ b, BitWords.bitAt s'.q.spillUsed b = true ↔
      b = word * 32 + bit ∨ BitWords.bitAt s.q.spillUsed b = true := by
    rw [hs']
    exact BitWords.bitAt_setBit hbit
  -- The producer has owned no block.
  have hother : ∀ o b, s.Owns g o b → o ≠ .producer i := by
    rintro o b ho rfl
    rw [QueueSys.Owns, hnone] at ho
    cases ho
  constructor
  · refine h.exclusive.acquire (.producer i) (word * 32 + bit) (by simp [hclear]) hused ?_
    intro o b
    rw [owns_producer_moved hs' rfl rfl rfl, PushPc.block, Option.some.injEq, eq_comm (a := b),
      and_iff_right_of_imp (hother o b)]
  · intro b hb
    rcases (hused b).mp hb with rfl | hb
    · exact hlt
    · exact h.bound b hb

/-- Giving a block back on a full queue. -/
theorem SpillInv.giveBack (h : SpillInv g s) (i : ι) (b₀ : ℕ) (pc : PushPc)
    (hown : (s.push i).block = some b₀) (hpc : pc.block = none) (s' : QueueSys ι)
    (hs' : s' = { s with q := s.q.clearSpill b₀, push := Function.update s.push i pc }) :
    SpillInv g s' := by
  have hused : ∀ b, BitWords.bitAt s'.q.spillUsed b = true ↔
      b ≠ b₀ ∧ BitWords.bitAt s.q.spillUsed b = true := by
    rw [hs']
    exact BitWords.bitAt_clearBit (by decide) _ _
  -- The producer has owned this block and no other, and nobody else has.
  have hother : ∀ o b, s.Owns g o b → (o ≠ .producer i ↔ b ≠ b₀) := by
    refine fun o b ho => not_congr ⟨?_, ?_⟩
    · rintro rfl
      exact Option.some.inj (ho.symm.trans hown)
    · rintro rfl
      exact h.exclusive.unique b o (.producer i) ho hown
  constructor
  · refine h.exclusive.release b₀ hused fun o b => ?_
    rw [owns_producer_moved hs' rfl rfl rfl, hpc]
    simp only [reduceCtorEq, and_false, false_or]
    exact and_congr_left (hother o b)
  · intro b hb
    exact h.bound b ((hused b).mp hb).2

/-- A publication hands the block of its producer to the slot. -/
theorem SpillInv.publish (h : SpillInv g s) (hpos : PosInv g s) (i : ι) (p : ℕ)
    (hi : (s.push i).held = some p) (hrecp : (s.record g p).spillIndex = (s.push i).block)
    (s' : QueueSys ι)
    (hs' : s' = { s with
      q := s.q.storeSeq (p % g.cap) (p + 1), push := Function.update s.push i (.returned true) }) :
    SpillInv g s' := by
  have hpub : ∀ p', s'.Published g p' ↔ p' = p ∨ s.Published g p' :=
    published_publish hpos hi (by subst hs'; rfl) (by subst hs'; rfl)
  have hrec : ∀ p', s'.record g p' = s.record g p' := record_storeSeq (by subst hs'; rfl)
  have hpush : s'.push = Function.update s.push i (.returned true) := by subst hs'; rfl
  have hpop : s'.pop = s.pop := by subst hs'; rfl
  -- the position was held until now
  have hnot : ¬s.Published g p := by
    intro hp
    have h1 := (hpos.held i p hi).2.2
    have h2 := hp.2.2
    omega
  -- the consumer has not claimed it, for it was not published
  have hclaimed : s.pop.claimed ≠ some p := fun hp => hnot (hpos.published_of_claimed hp)
  have hused : s'.q.spillUsed = s.q.spillUsed := by subst hs'; rfl
  constructor
  -- the block goes from the producer to the slot
  · refine h.exclusive.transfer (.producer i) (.slot p) (fun b => by rw [hused]) ?_
    intro o b
    cases o with
    | producer j =>
      simp only [QueueSys.Owns, hpush, reduceCtorEq, false_and, false_or, ne_eq,
        SpillOwner.producer.injEq]
      by_cases hj : j = i
      · rw [hj, Function.update_self]
        simp [PushPc.block]
      · rw [Function.update_of_ne hj]
        simp [hj]
    | slot p' =>
      simp only [QueueSys.Owns, hpub, hrec, hpop, SpillOwner.slot.injEq, ne_eq, reduceCtorEq,
        not_false_eq_true, true_and]
      constructor
      · rintro ⟨rfl | hp', hb, hc⟩
        · exact .inl ⟨rfl, hrecp ▸ hb⟩
        · exact .inr ⟨hp', hb, hc⟩
      · rintro (⟨rfl, hb⟩ | ⟨hp', hb, hc⟩)
        · exact ⟨.inl rfl, hrecp ▸ hb, hclaimed⟩
        · exact ⟨.inr hp', hb, hc⟩
    -- the consumer owns what it did
    | consumer => simp [QueueSys.Owns, hrec, hpop]
  · intro b hb
    exact h.bound b (hused ▸ hb)

omit [DecidableEq ι] in
/-- The consumer takes over the block of the slot it claims. -/
theorem SpillInv.popClaim (h : SpillInv g s) (p : ℕ) (pc : PopPc) (hpub : s.Published g p)
    (hnone : s.pop.claimed = none) (hread : s.pop.reading = none) (hclaimed : pc.claimed = some p)
    (hreading : pc.reading = some p) (hfreed : pc.freed = s.pop.freed) :
    SpillInv g { s with pop := pc } := by
  have hpub' : ∀ p', ({ s with pop := pc } : QueueSys ι).Published g p' ↔ s.Published g p' :=
    fun _ => published_pop_move hfreed
  refine ⟨h.exclusive.transfer (.slot p) .consumer (fun _ => Iff.rfl) ?_, h.bound⟩
  intro o b
  cases o with
  | producer j => simp [QueueSys.Owns]
  | slot p' =>
    simp only [QueueSys.Owns, hpub', hclaimed, hnone, reduceCtorEq, false_and, false_or, ne_eq,
      SpillOwner.slot.injEq, Option.some.injEq, not_false_eq_true, and_true]
    refine ⟨fun ⟨hp', hb, hne⟩ => ⟨fun heq => hne heq.symm, hp', hb⟩, ?_⟩
    exact fun ⟨hne, hp', hb⟩ => ⟨hp', hb, fun heq => hne heq.symm⟩
  | consumer =>
    simp only [QueueSys.Owns, hreading, hread, hnone, reduceCtorEq, false_and, exists_false,
      and_false, or_false, true_and, ne_eq, not_false_eq_true, and_true, Option.some.injEq]
    constructor
    · rintro ⟨p', rfl, hb⟩
      exact ⟨hpub, hb⟩
    · rintro ⟨-, hb⟩
      exact ⟨p, rfl, hb⟩

omit [DecidableEq ι] in
/-- The consumer returns the block of the record it has unpacked. -/
theorem SpillInv.popPut (h : SpillInv g s) {out : List LoggerMessage} {max : Option ℕ}
    {dst : LoggerMessage} {p : ℕ} {spill : Option ℕ} (hpc : s.pop = .unpack out max dst p spill [])
    (hspill : spill = (s.record g p).spillIndex) :
    SpillInv g { s with q := s.q.spillPut spill, pop := .storeSeq out max dst p } := by
  -- nothing else is seen of the step
  have hpub : ∀ p', ({ s with
      q := s.q.spillPut spill, pop := .storeSeq out max dst p } : QueueSys ι).Published g p' ↔
      s.Published g p' := fun _ => published_popPut hpc
  have hrec : ∀ p', ({ s with
      q := s.q.spillPut spill, pop := .storeSeq out max dst p } : QueueSys ι).record g p' =
      s.record g p' := fun p' => by rw [QueueSys.record, QueueSys.record, spillPut_slots]
  -- the block is the consumer's until now
  have hcons : ∀ b, s.Owns g .consumer b ↔ spill = some b := by
    intro b
    simp [QueueSys.Owns, hpc, PopPc.reading, hspill]
  have hslot : ∀ p' b, ({ s with
      q := s.q.spillPut spill, pop := .storeSeq out max dst p } : QueueSys ι).Owns g (.slot p') b ↔
      s.Owns g (.slot p') b := by
    intro p' b
    simp only [QueueSys.Owns, hpub, hrec, hpc]
    rfl
  -- afterwards the consumer owns none
  have hgone : ∀ b, ¬({ s with
      q := s.q.spillPut spill, pop := .storeSeq out max dst p } : QueueSys ι).Owns g
      .consumer b := by
    rintro b ⟨p', hp', -⟩
    cases hp'
  -- a short record has no block to return
  cases spill with
  | none =>
    refine h.of_same rfl ?_
    intro o b
    cases o with
    | producer i => rfl
    | slot p' => exact hslot p' b
    | consumer => simpa [hcons] using hgone b
  -- a long one clears its bit
  | some b₀ =>
    have hused : ∀ b, BitWords.bitAt (s.q.clearSpill b₀).spillUsed b = true ↔
        b ≠ b₀ ∧ BitWords.bitAt s.q.spillUsed b = true :=
      fun b => BitWords.bitAt_clearBit (by decide) _ _ _
    refine ⟨h.exclusive.release b₀ hused ?_, fun b hb => h.bound b ((hused b).mp hb).2⟩
    intro o b
    have hother : ∀ o, s.Owns g o b₀ → o = .consumer := fun o ho =>
      h.exclusive.unique b₀ o .consumer ho ((hcons b₀).mpr rfl)
    cases o with
    | producer i =>
      refine ⟨fun hb => ⟨?_, hb⟩, fun hb => hb.2⟩
      rintro rfl
      cases hother (.producer i) hb
    | slot p' =>
      rw [hslot p' b]
      refine ⟨fun hb => ⟨?_, hb⟩, fun hb => hb.2⟩
      rintro rfl
      cases hother _ hb
    | consumer =>
      refine ⟨fun hb => absurd hb (hgone b), fun hb => ?_⟩
      exact absurd (Option.some.inj ((hcons b).mp hb.2)).symm hb.1

omit [DecidableEq ι] in
/-- Freeing a slot, whose block has been returned before, changes no owner. -/
theorem SpillInv.popFree (h : SpillInv g s) (hpos : PosInv g s) {out : List LoggerMessage}
    {max : Option ℕ} {dst : LoggerMessage} {p : ℕ} (hpc : s.pop = .storeSeq out max dst p)
    (s' : QueueSys ι)
    (hs' : s' = { s with
      q := s.q.storeSeq (p % g.cap) (p + g.cap), pop := .storePos out max dst p }) :
    SpillInv g s' := by
  have hpub := published_popFree hpos hpc s' hs'
  have hrec : ∀ p', s'.record g p' = s.record g p' := record_storeSeq (by subst hs'; rfl)
  have hpop : s'.pop = .storePos out max dst p := by subst hs'; rfl
  refine h.of_same (by subst hs'; rfl) ?_
  intro o b
  cases o with
  | producer i =>
    subst hs'
    rfl
  | slot p' =>
    simp only [QueueSys.Owns, hpub, hpc, hpop, hrec, PopPc.claimed, ne_eq, Option.some.injEq,
      reduceCtorEq, not_false_eq_true, and_true]
    refine ⟨fun ⟨⟨hp', hne⟩, hb⟩ => ⟨hp', hb, fun heq => hne heq.symm⟩, ?_⟩
    exact fun ⟨hp', hb, hne⟩ => ⟨⟨hp', fun heq => hne heq.symm⟩, hb⟩
  | consumer => simp [QueueSys.Owns, hpc, hpop, PopPc.reading]

/-- Every step keeps `SpillInv`. -/
theorem SpillInv.step (h : SpillInv g s) (hpos : PosInv g s) (hrec : RecInv g s)
    (hstep : QueueStep g s s') : SpillInv g s' := by
  cases hstep with
  -- the steps that take and give no block
  | call i m hpc =>
    exact h.push_same hpos i _ rfl (by rw [hpc]; rfl) rfl (fun _ => Iff.rfl) (fun _ _ => rfl) rfl
  | quiet i pc hfrom hto hblock hpending hframe hloaded hvalid =>
    exact h.push_same hpos i pc rfl hblock rfl (fun _ => Iff.rfl) (fun _ _ => rfl) rfl
  | take i m word bit hneeds hheld hnone hbit hclear hlt hpending =>
    exact h.take i m word bit hnone hbit hclear hlt _ rfl
  | copy i m b hpc =>
    exact h.push_same hpos i _ rfl (by rw [hpc]; rfl) rfl (fun _ => Iff.rfl) (fun _ _ => rfl) rfl
  | exhaust i m hpc =>
    exact h.push_same hpos i _ rfl (by rw [hpc]; rfl) rfl (fun _ => Iff.rfl) (fun _ _ => rfl) rfl
  | reserve i m spill hpc hlt =>
    exact h.push_same hpos i _ rfl (by rw [hpc]; rfl) rfl (published_reserve hpos hlt rfl rfl)
      (fun _ _ => rfl) rfl
  | write i m spill p w rest hpc =>
    have hi : (s.push i).held = some p := by rw [hpc]; rfl
    refine h.push_same hpos i _ rfl (by rw [hpc]; rfl) rfl
      (fun _ => by apply published_writeRecord <;> rfl) ?_ rfl
    intro p' hp'
    rw [record_writeRecord rfl, if_neg (hpos.mod_ne_of_published hi hp')]
  -- the slot names the block its producer has filled
  | publish i m spill p hpc =>
    obtain ⟨-, old, done, hdone, hrun⟩ := hrec.packing i m spill p [] hpc
    refine h.publish hpos i p (by rw [hpc]; rfl) ?_ _ rfl
    rw [hrun, hpc]
    rw [List.append_nil] at hdone
    rw [hdone]
    exact queueRecordPack_spillIndex old m _ spill
  | giveBack i m b hpc => exact h.giveBack i b _ (by rw [hpc]; rfl) rfl _ rfl
  | popQuiet pc hfrom hto hout =>
    exact h.pop_same hpos rfl rfl
      (fun _ => published_pop_move (hto.freed_eq.trans hfrom.freed_eq.symm)) rfl
      (hto.claimed_eq.trans hfrom.claimed_eq.symm) (hto.reading_eq.trans hfrom.reading_eq.symm)
  -- the claim hands the block of the slot to the consumer
  | popClaim out max dst hpc hpub =>
    exact h.popClaim s.q.dequeuePos _ hpub (by rw [hpc]; rfl) (by rw [hpc]; rfl) rfl rfl
      (by rw [hpc]; rfl)
  | popSpill out max dst p hpc =>
    exact h.pop_same hpos rfl rfl (fun _ => published_pop_move (by rw [hpc]; rfl)) rfl
      (by rw [hpc]; rfl) (by rw [hpc]; rfl)
  | popRead out max dst p spill read rest hpc =>
    exact h.pop_same hpos rfl rfl (fun _ => published_pop_move (by rw [hpc]; rfl)) rfl
      (by rw [hpc]; rfl) (by rw [hpc]; rfl)
  | popPut out max dst p spill hpc =>
    exact h.popPut hpc (hrec.unpacking out max dst p spill [] hpc)
  | popFree out max dst p hpc => exact h.popFree hpos hpc _ rfl
  -- the head does not matter here
  | popAdvance out max dst p hpc =>
    refine h.pop_same hpos rfl rfl (fun _ => published_popAdvance hpos hpc) rfl ?_ ?_
    · rw [hpc]
      cases max <;> rfl
    · rw [hpc]
      cases max <;> rfl

end CLogger
