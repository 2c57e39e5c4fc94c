import CLogger.Lib.BitWords
import CLogger.Queue.Model

/-!
# The steps of the queue, in unbounded positions

`PosInv` relates the sequence word of every slot to the two counters and to the positions held by
producers. Under it, and while loaded positions are recent, every comparison of wrapped counters
decides the order of the counters themselves. `QueueStep` lists what a step can then do, one
constructor for each kind of effect; all later invariants are proved from this list.
-/

namespace CLogger

open WrapCounter

namespace QueueGeometry

variable (g : QueueGeometry)

theorem two_le_cap : 2 ≤ g.cap := by
  obtain ⟨k, hk, hcap⟩ := g.cap_pow
  rw [hcap]
  calc 2 = 2 ^ 1 := rfl
    _ ≤ 2 ^ k := Nat.pow_le_pow_right (by omega) hk

theorem slotIndex_eq (pos : ℕ) : g.slotIndex pos = pos % g.cap := by
  obtain ⟨k, -, hcap⟩ := g.cap_pow
  have hfits := g.cap_fits
  rw [hcap] at hfits
  rw [slotIndex, g.mask_eq, hcap, wrap_land_mask hfits]

/-- Counters at most one lap apart are close. -/
theorem close_of_le {a b : ℕ} (hab : a ≤ b + g.cap) (hba : b ≤ a + g.cap) : g.width.Close a b := by
  have hfits := g.cap_fits
  cases hw : g.width with
  | unbounded => trivial
  | bits w =>
    rw [hw] at hfits
    simp only [Width.Fits] at hfits
    have hpos : 0 < w := by
      by_contra h
      obtain rfl : w = 0 := by omega
      have := g.two_le_cap
      simp at hfits
      omega
    have hhalf := half_max hpos
    have := Nat.two_pow_pos (w - 1)
    exact ⟨by omega, by omega⟩

/-- A sequence word within reach of `enqueue_pos` is close to a recent position. -/
theorem close_of_recent {n seq pos : ℕ} (hrecent : Recent g n pos) (hseq : seq ≤ n + g.cap)
    (hpos : pos ≤ seq + g.cap) : g.width.Close seq pos := by
  have hfits := g.cap_fits
  unfold Recent at hrecent
  cases hw : g.width with
  | unbounded => trivial
  | bits w =>
    rw [hw] at hfits hrecent
    simp only [Width.Fits] at hfits hrecent
    have hpos' : 0 < w := by
      by_contra h
      obtain rfl : w = 0 := by omega
      have := g.two_le_cap
      simp at hfits
      omega
    have hhalf := half_max hpos'
    have := Nat.two_pow_pos (w - 1)
    exact ⟨by omega, by omega⟩

/-- Two positions of one window of `cap` positions that share a slot are equal. -/
theorem eq_of_mod_eq {h p p' : ℕ} (hp : h ≤ p) (hp' : h ≤ p') (hlt : p < h + g.cap)
    (hlt' : p' < h + g.cap) (hmod : p % g.cap = p' % g.cap) : p = p' := by
  have h1 := Nat.div_add_mod p g.cap
  have h2 := Nat.div_add_mod p' g.cap
  rcases Nat.lt_trichotomy (p / g.cap) (p' / g.cap) with hdiv | hdiv | hdiv
  · have := Nat.mul_le_mul_left g.cap (Nat.succ_le_of_lt hdiv)
    rw [Nat.mul_succ] at this
    omega
  · rw [← h1, ← h2, hdiv, hmod]
  · have := Nat.mul_le_mul_left g.cap (Nat.succ_le_of_lt hdiv)
    rw [Nat.mul_succ] at this
    omega

/-- Every slot belongs to exactly one position of a window of `cap` positions. -/
theorem exists_window (h p : ℕ) : ∃ p', h ≤ p' ∧ p' < h + g.cap ∧ p' % g.cap = p % g.cap := by
  have hcap := g.two_le_cap
  have hh := Nat.div_add_mod h g.cap
  have hlt : h % g.cap < g.cap := Nat.mod_lt _ (by omega)
  have hplt : p % g.cap < g.cap := Nat.mod_lt _ (by omega)
  by_cases hle : h % g.cap ≤ p % g.cap
  · refine ⟨g.cap * (h / g.cap) + p % g.cap, by omega, by omega, ?_⟩
    rw [Nat.mul_add_mod, Nat.mod_mod]
  · refine ⟨g.cap * (h / g.cap + 1) + p % g.cap, ?_, ?_, ?_⟩
    · rw [Nat.mul_add]
      omega
    · rw [Nat.mul_add]
      omega
    · rw [Nat.mul_add_mod, Nat.mod_mod]

/-- Neighbouring positions have different slots. -/
theorem succ_mod_ne (p p' : ℕ) (h : p % g.cap = p' % g.cap) : p ≠ p' + 1 := by
  rintro rfl
  have hcap := g.two_le_cap
  have hlt : p' % g.cap < g.cap := Nat.mod_lt _ (by omega)
  rw [Nat.add_mod, Nat.mod_eq_of_lt (show 1 < g.cap by omega)] at h
  by_cases hlast : p' % g.cap + 1 < g.cap
  · rw [Nat.mod_eq_of_lt hlast] at h
    omega
  · have : p' % g.cap + 1 = g.cap := by omega
    rw [this, Nat.mod_self] at h
    omega

theorem spillWords_pos : 0 < g.spillWords := by
  have hcap := g.two_le_cap
  have hspill : 2 ≤ g.spillCap := by
    rw [g.spillCap_eq, queueSpillCapacity]
    split
    · exact hcap
    · decide
  unfold spillWords loggerQueueSpillWordBits
  omega

/-- The valid mask of a bitmap word has exactly the bits of blocks below `spill_cap`. -/
theorem getLsbD_spillValidMask {word i : ℕ} (hi : i < 32) :
    (g.spillValidMask word).getLsbD i = true ↔ word * 32 + i < g.spillCap := by
  unfold spillValidMask loggerQueueSpillWordBits
  split
  · rename_i hle
    rw [BitVec.getLsbD_allOnes, decide_eq_true_eq]
    omega
  · rename_i hlt
    generalize hr : g.spillCap - word * 32 = r
    have hr32 : r < 32 := by omega
    have hnat : ((1#32 <<< r) - 1#32).toNat = 2 ^ r - 1 := by
      have hpow : 2 ^ r < 2 ^ 32 := Nat.pow_lt_pow_right (by omega) hr32
      have hpos : 0 < 2 ^ r := Nat.two_pow_pos r
      simp only [BitVec.toNat_sub, BitVec.toNat_shiftLeft, BitVec.toNat_ofNat, Nat.shiftLeft_eq]
      have h1 : 1 % 2 ^ 32 * 2 ^ r % 2 ^ 32 = 2 ^ r := by
        rw [Nat.mod_eq_of_lt (show 1 < 2 ^ 32 by omega), Nat.one_mul, Nat.mod_eq_of_lt hpow]
      rw [h1]
      omega
    rw [BitVec.getLsbD, hnat, Nat.testBit_two_pow_sub_one, decide_eq_true_eq]
    omega

end QueueGeometry

/-- The position whose slot a producer is packing. -/
def PushPc.held : PushPc → Option ℕ
  | .pack _ _ pos _ => some pos
  | _ => none

/-- The message and the spill block of a push that is past the spill pool. -/
def PushPc.frame : PushPc → Option (LoggerMessage × Option ℕ)
  | .loadPos m spill => some (m, spill)
  | .loadSeq m spill _ => some (m, spill)
  | .casPos m spill _ => some (m, spill)
  | .pack m spill _ _ => some (m, spill)
  | .giveBack m spill => some (m, spill)
  | _ => none

/-- The spill block a push owns. -/
def PushPc.block : PushPc → Option ℕ
  | .spillCopy _ index => some index
  | .loadPos _ spill => spill
  | .loadSeq _ spill _ => spill
  | .casPos _ spill _ => spill
  | .pack _ spill _ _ => spill
  | .giveBack _ spill => spill
  | _ => none

/-- The push has not reserved a position in its current call. -/
def PushPc.pending : PushPc → Bool
  | .idle => false
  | .pack .. => false
  | .returned _ => false
  | _ => true

/-- The position whose slot the consumer has freed without having advanced `dequeue_pos`. -/
def PopPc.freed : PopPc → ℕ
  | .storePos .. => 1
  | _ => 0

namespace QueueSys

variable {ι : Type} (g : QueueGeometry) (s : QueueSys ι)

/-- The first position whose slot the consumer has not freed. -/
def head : ℕ := s.q.dequeuePos + s.pop.freed

/-- The sequence word of the slot of a position. -/
def seq (p : ℕ) : ℕ := (s.q.slots (p % g.cap)).seq

/-- The record of the slot of a position. -/
def record (p : ℕ) : QueueRecord := (s.q.slots (p % g.cap)).record

/-- The record at position `p` is published and its slot not yet freed. -/
def Published (p : ℕ) : Prop := s.head ≤ p ∧ p < s.q.enqueuePos ∧ s.seq g p = p + 1

end QueueSys

/-- The text length of a message that has passed the spill pool, and its need of a block. -/
def FrameValid (m : LoggerMessage) (spill : Option ℕ) : Prop :=
  loggerRecordTextLength m < loggerMessageMax ∧
    (spill = none ↔ loggerRecordTextLength m ≤ loggerQueueInlineText)

/-- A message long enough to need a block. -/
def NeedsBlock (m : LoggerMessage) : Prop :=
  loggerRecordTextLength m < loggerMessageMax ∧ loggerQueueInlineText < loggerRecordTextLength m

/-- What the control state of a push says by itself. -/
def PushPc.Valid (g : QueueGeometry) : PushPc → Prop
  | .spillLoad m _ _ => NeedsBlock m
  | .spillCas m start n used =>
    NeedsBlock m ∧ ~~~used &&& g.spillValidMask ((start + n) % g.spillWords) ≠ 0#32
  | .spillCopy m _ => NeedsBlock m
  | pc => ∀ m spill, pc.frame = some (m, spill) → FrameValid m spill

variable {ι : Type}

theorem PushPc.valid_returned (g : QueueGeometry) (published : Bool) :
    (PushPc.returned published).Valid g := by
  intro m spill h
  cases h

theorem PushPc.valid_spillFull (g : QueueGeometry) (m : LoggerMessage) :
    (PushPc.spillFull m).Valid g := by
  intro m' spill h
  cases h

/-- What a loaded position says about the counters. -/
def LoadedOk (g : QueueGeometry) (s : QueueSys ι) : PushPc → Prop
  | .loadSeq _ _ pos => pos ≤ s.q.enqueuePos
  | .casPos _ _ pos => pos ≤ s.q.enqueuePos ∧ pos < s.head + g.cap
  | _ => True

/-- What the consumer's control state says about `dequeue_pos` and the published positions. -/
def PopPosOk (d : ℕ) (pub : ℕ → Prop) : PopPc → Prop
  | .loadSeq _ _ _ pos => pos = d
  | .readSpill _ _ _ pos => pos = d ∧ pub pos
  | .unpack _ _ _ pos _ _ => pos = d ∧ pub pos
  | .storeSeq _ _ _ pos => pos = d ∧ pub pos
  | .storePos _ _ _ pos => pos = d
  | _ => True

/-- The sequence words, the counters and the positions held by the threads. -/
structure PosInv (g : QueueGeometry) (s : QueueSys ι) : Prop where
  reserved_length : s.reserved.length = s.q.enqueuePos
  head_le : s.head ≤ s.q.enqueuePos
  tail_le : s.q.enqueuePos ≤ s.head + g.cap
  free : ∀ p, s.q.enqueuePos ≤ p → p < s.head + g.cap → s.seq g p = p
  live : ∀ p, s.head ≤ p → p < s.q.enqueuePos →
    (∃ i, (s.push i).held = some p) ∨ s.seq g p = p + 1
  held : ∀ i p, (s.push i).held = some p → s.head ≤ p ∧ p < s.q.enqueuePos ∧ s.seq g p = p
  unique : ∀ i j p, (s.push i).held = some p → (s.push j).held = some p → i = j
  loaded : ∀ i, LoadedOk g s (s.push i)
  valid : ∀ i, (s.push i).Valid g
  pop_ok : PopPosOk s.q.dequeuePos (s.Published g) s.pop

variable {g : QueueGeometry} {s s' : QueueSys ι}

/-- The sequence word of the slot of any position, in terms of the position of the current window
that owns the slot. -/
theorem PosInv.seq_cases (h : PosInv g s) (p : ℕ) :
    ∃ p', s.head ≤ p' ∧ p' < s.head + g.cap ∧ p' % g.cap = p % g.cap ∧
      (s.seq g p = p' ∨ s.seq g p = p' + 1) := by
  obtain ⟨p', hge, hlt, hmod⟩ := g.exists_window s.head p
  have hseq : s.seq g p = s.seq g p' := by rw [QueueSys.seq, QueueSys.seq, hmod]
  refine ⟨p', hge, hlt, hmod, ?_⟩
  rw [hseq]
  rcases Nat.lt_or_ge p' s.q.enqueuePos with hres | hfree
  · rcases h.live p' hge hres with ⟨i, hi⟩ | hpub
    · exact .inl (h.held i p' hi).2.2
    · exact .inr hpub
  · exact .inl (h.free p' hfree hlt)

/-- The comparison of a push decides the order of the sequence word and the loaded position. -/
theorem PosInv.signedCmp_eq (h : PosInv g s) {pos : ℕ} (hle : pos ≤ s.q.enqueuePos)
    (hrecent : Recent g s.q.enqueuePos pos) :
    g.width.signedCmp (g.width.wrap (s.seq g pos)) (g.width.wrap pos) =
      compare (s.seq g pos) pos := by
  obtain ⟨p', hge, hlt, -, hseq⟩ := h.seq_cases pos
  have hhead := h.head_le
  have htail := h.tail_le
  exact signedCmp_wrap (g.close_of_recent hrecent (by omega) (by omega))

/-- A sequence word equal to a loaded position puts the position into the current window. -/
theorem PosInv.lt_of_seq_eq (h : PosInv g s) {pos : ℕ} (heq : s.seq g pos = pos) :
    pos < s.head + g.cap := by
  obtain ⟨p', hge, hlt, hmod, hseq⟩ := h.seq_cases pos
  rcases hseq with hseq | hseq
  · omega
  · exact absurd (heq.symm.trans hseq) (g.succ_mod_ne pos p' hmod.symm)

theorem applyPop_none (s : QueueSys ι) (q : Queue) (pc : PopPc) :
    s.applyPop ⟨q, pc, none⟩ = { s with q := q, pop := pc } := by
  simp [QueueSys.applyPop]

/-- The scan keeps its message and takes no block when it moves on. -/
theorem spillNext_cases (g : QueueGeometry) (m : LoggerMessage) (start n : ℕ) (used : BitVec 32)
    (hneeds : NeedsBlock m) :
    (spillNext g m start n used).held = none ∧ (spillNext g m start n used).block = none ∧
      (spillNext g m start n used).frame = none ∧ (spillNext g m start n used).Valid g ∧
      ∀ s : QueueSys ι, LoadedOk g s (spillNext g m start n used) := by
  unfold spillNext
  split_ifs with havail hmore
  · exact ⟨rfl, rfl, rfl, hneeds, fun _ => trivial⟩
  · exact ⟨rfl, rfl, rfl, PushPc.valid_spillFull g m, fun _ => trivial⟩
  · exact ⟨rfl, rfl, rfl, ⟨hneeds, havail⟩, fun _ => trivial⟩

/-- The records taken so far by the consumer's current call. -/
def PopPc.out : PopPc → List LoggerMessage
  | .idle => []
  | .drainHead out _ => out
  | .loadPos out _ _ => out
  | .loadSeq out _ _ _ => out
  | .readSpill out _ _ _ => out
  | .unpack out _ _ _ _ _ => out
  | .storeSeq out _ _ _ => out
  | .storePos out _ _ _ => out
  | .returned out => out

/-- The consumer has not claimed a published slot. -/
def PopPc.Unclaimed (d : ℕ) : PopPc → Prop
  | .loadSeq _ _ _ pos => pos = d
  | .readSpill .. => False
  | .unpack .. => False
  | .storeSeq .. => False
  | .storePos .. => False
  | _ => True

variable [DecidableEq ι]

/-- What a step of the queue can do, with all comparisons resolved. -/
inductive QueueStep (g : QueueGeometry) (s : QueueSys ι) : QueueSys ι → Prop where
  /-- A producer starts a push. -/
  | call (i : ι) (m : LoggerMessage) (hpc : s.push i = .idle) :
      QueueStep g s
        { s with
          push := Function.update s.push i (.enter m)
          calls := Function.update s.calls i (s.calls i + 1) }
  /-- A producer moves without touching shared words; it keeps what it owns. -/
  | quiet (i : ι) (pc : PushPc) (hfrom : (s.push i).held = none) (hto : pc.held = none)
      (hblock : pc.block = (s.push i).block)
      (hpending : pc.pending = true → (s.push i).pending = true)
      (hframe : ∀ m b, pc.frame = some (m, some b) → (s.push i).frame = some (m, some b))
      (hloaded : LoadedOk g s pc) (hvalid : pc.Valid g) :
      QueueStep g s { s with push := Function.update s.push i pc }
  /-- A producer takes a free spill block. -/
  | take (i : ι) (m : LoggerMessage) (word bit : ℕ) (hneeds : NeedsBlock m)
      (hheld : (s.push i).held = none) (hnone : (s.push i).block = none) (hbit : bit < 32)
      (hclear : BitWords.bitAt s.q.spillUsed (word * 32 + bit) = false)
      (hlt : word * 32 + bit < g.spillCap) (hpending : (s.push i).pending = true) :
      QueueStep g s
        { s with
          q := { s.q with spillUsed := BitWords.setBit s.q.spillUsed word bit }
          push := Function.update s.push i (.spillCopy m (word * 32 + bit)) }
  /-- A producer copies its text into its block. -/
  | copy (i : ι) (m : LoggerMessage) (b : ℕ) (hpc : s.push i = .spillCopy m b) :
      QueueStep g s
        { s with
          q := { s.q with
            spills := Function.update s.q.spills b
              (memcpy (s.q.spills b) m.text (loggerRecordTextLength m + 1)) }
          push := Function.update s.push i (.loadPos m (some b)) }
  /-- A producer counts a scan that found no block. -/
  | exhaust (i : ι) (m : LoggerMessage) (hpc : s.push i = .spillFull m) :
      QueueStep g s
        { s with
          q := { s.q with spillExhaustions := s.q.spillExhaustions + 1 }
          push := Function.update s.push i (.returned false) }
  /-- A producer reserves the next position. -/
  | reserve (i : ι) (m : LoggerMessage) (spill : Option ℕ)
      (hpc : s.push i = .casPos m spill s.q.enqueuePos) (hlt : s.q.enqueuePos < s.head + g.cap) :
      QueueStep g s
        { s with
          q := { s.q with enqueuePos := s.q.enqueuePos + 1 }
          push := Function.update s.push i (.pack m spill s.q.enqueuePos
            (packWrites m (loggerRecordTextLength m) spill))
          reserved := s.reserved ++ [⟨i, s.calls i, m⟩] }
  /-- A producer writes a field of the record it packs. -/
  | write (i : ι) (m : LoggerMessage) (spill : Option ℕ) (p : ℕ) (w : QueueRecord → QueueRecord)
      (rest : List (QueueRecord → QueueRecord)) (hpc : s.push i = .pack m spill p (w :: rest)) :
      QueueStep g s
        { s with
          q := s.q.writeRecord (p % g.cap) w
          push := Function.update s.push i (.pack m spill p rest) }
  /-- A producer publishes its record. -/
  | publish (i : ι) (m : LoggerMessage) (spill : Option ℕ) (p : ℕ)
      (hpc : s.push i = .pack m spill p []) :
      QueueStep g s
        { s with
          q := s.q.storeSeq (p % g.cap) (p + 1)
          push := Function.update s.push i (.returned true) }
  /-- A producer that found the queue full gives its block back. -/
  | giveBack (i : ι) (m : LoggerMessage) (b : ℕ) (hpc : s.push i = .giveBack m (some b)) :
      QueueStep g s
        { s with q := s.q.clearSpill b, push := Function.update s.push i (.returned false) }
  /-- The consumer moves without touching shared words. -/
  | popQuiet (pc : PopPc) (hfrom : s.pop.Unclaimed s.q.dequeuePos)
      (hto : pc.Unclaimed s.q.dequeuePos) (hout : pc.out = s.pop.out ∨ pc.out = []) :
      QueueStep g s { s with pop := pc }
  /-- The consumer finds the record at `dequeue_pos` published. -/
  | popClaim (out : List LoggerMessage) (max : Option ℕ) (dst : LoggerMessage)
      (hpc : s.pop = .loadSeq out max dst s.q.dequeuePos)
      (hpub : s.Published g s.q.dequeuePos) :
      QueueStep g s { s with pop := .readSpill out max dst s.q.dequeuePos }
  /-- The consumer reads the spill index of the slot. -/
  | popSpill (out : List LoggerMessage) (max : Option ℕ) (dst : LoggerMessage) (p : ℕ)
      (hpc : s.pop = .readSpill out max dst p) :
      QueueStep g s
        { s with pop := .unpack out max dst p (s.record g p).spillIndex unpackReads }
  /-- The consumer reads a field of the record. -/
  | popRead (out : List LoggerMessage) (max : Option ℕ) (dst : LoggerMessage) (p : ℕ)
      (spill : Option ℕ) (read : FieldRead) (rest : List FieldRead)
      (hpc : s.pop = .unpack out max dst p spill (read :: rest)) :
      QueueStep g s
        { s with pop := .unpack out max (read (s.record g p) s.q.spills dst) p spill rest }
  /-- The consumer returns the spill block. -/
  | popPut (out : List LoggerMessage) (max : Option ℕ) (dst : LoggerMessage) (p : ℕ)
      (spill : Option ℕ) (hpc : s.pop = .unpack out max dst p spill []) :
      QueueStep g s { s with q := s.q.spillPut spill, pop := .storeSeq out max dst p }
  /-- The consumer frees the slot. -/
  | popFree (out : List LoggerMessage) (max : Option ℕ) (dst : LoggerMessage) (p : ℕ)
      (hpc : s.pop = .storeSeq out max dst p) :
      QueueStep g s
        { s with q := s.q.storeSeq (p % g.cap) (p + g.cap), pop := .storePos out max dst p }
  /-- The consumer advances `dequeue_pos`; the pop is complete. -/
  | popAdvance (out : List LoggerMessage) (max : Option ℕ) (dst : LoggerMessage) (p : ℕ)
      (hpc : s.pop = .storePos out max dst p) :
      QueueStep g s
        { s with
          q := { s.q with dequeuePos := p + 1 }
          pop := popNext (out ++ [dst]) max
          popped := s.popped ++ [dst] }

/-- A producer whose state is known moves to one in which it owns and packs the same. -/
theorem QueueStep.move {i : ι} {old pc : PushPc} (hpc : s.push i = old)
    (hfrom : old.held = none) (hto : pc.held = none) (hblock : pc.block = old.block)
    (hpending : pc.pending = true → old.pending = true)
    (hframe : ∀ m b, pc.frame = some (m, some b) → old.frame = some (m, some b))
    (hloaded : LoadedOk g s pc) (hvalid : pc.Valid g) :
    QueueStep g s { s with push := Function.update s.push i pc } := by
  subst hpc
  exact .quiet i pc hfrom hto hblock hpending hframe hloaded hvalid

/-- A scan moves to its next word, or gives up. -/
theorem QueueStep.scan {i : ι} {old : PushPc} {m : LoggerMessage} (hpc : s.push i = old)
    (hfrom : old.held = none) (hnone : old.block = none) (hpending : old.pending = true)
    (hneeds : NeedsBlock m) (start n : ℕ) (used : BitVec 32) :
    QueueStep g s { s with push := Function.update s.push i (spillNext g m start n used) } := by
  obtain ⟨hheld, hblock, hframe, hvalid, hloaded⟩ :=
    spillNext_cases (ι := ι) g m start n used hneeds
  refine .move hpc hfrom hheld (hblock.trans hnone.symm) (fun _ => hpending) ?_ (hloaded s) hvalid
  intro m' b hpacked
  rw [hframe] at hpacked
  cases hpacked

theorem applyPush_none (s : QueueSys ι) (i : ι) (q : Queue) (pc : PushPc) :
    s.applyPush i ⟨q, pc, none⟩ = { s with q := q, push := Function.update s.push i pc } := by
  simp [QueueSys.applyPush]

/-- The bit a scan tries is a clear bit of a block below `spill_cap`. -/
theorem ctz_available (g : QueueGeometry) {word : ℕ} {used : BitVec 32}
    (havail : ~~~used &&& g.spillValidMask word ≠ 0#32) :
    (~~~used &&& g.spillValidMask word).ctz.toNat < 32 ∧
      used.getLsbD (~~~used &&& g.spillValidMask word).ctz.toNat = false ∧
      word * 32 + (~~~used &&& g.spillValidMask word).ctz.toNat < g.spillCap := by
  have hbit := BitVec.getLsbD_true_ctz_of_ne_zero havail
  generalize (~~~used &&& g.spillValidMask word).ctz.toNat = bit at hbit ⊢
  rw [BitVec.getLsbD_and, BitVec.getLsbD_not, Bool.and_eq_true, Bool.and_eq_true,
    decide_eq_true_eq] at hbit
  obtain ⟨⟨hlt, hclear⟩, hvalid⟩ := hbit
  exact ⟨hlt, by simpa using hclear, (g.getLsbD_spillValidMask hlt).mp hvalid⟩

/-- The step of a push, with all comparisons resolved. -/
theorem queueStep_of_push (h : PosInv g s) (hfresh : Fresh g s) {i : ι} {c : PushChoice}
    {e : PushEffect} (hstep : pushStep g s.q c (s.push i) = some e) :
    QueueStep g s (s.applyPush i e) := by
  have hvalid := h.valid i
  have hloaded := h.loaded i
  have hrecent := hfresh i
  cases hpc : s.push i with
  | idle => simp [hpc, pushStep] at hstep
  | returned published => simp [hpc, pushStep] at hstep
  | enter m =>
    rw [hpc, pushStep] at hstep
    split_ifs at hstep with hmax hlong <;> obtain rfl := Option.some.inj hstep <;>
      rw [applyPush_none]
    · exact .move hpc rfl rfl rfl (fun _ => rfl) (fun _ _ h => by cases h) trivial
        (PushPc.valid_returned g _)
    -- a long text has to look for a block first
    · have hneeds : NeedsBlock m :=
        ⟨lt_of_le_of_ne (loggerRecordTextLength_le m) hmax, hlong⟩
      exact .move hpc rfl rfl rfl (fun _ => rfl) (fun _ _ h => by cases h) trivial hneeds
    -- a short one is valid as it is
    · have hframe : FrameValid m none :=
        ⟨lt_of_le_of_ne (loggerRecordTextLength_le m) hmax, by simpa using hlong⟩
      refine .move hpc rfl rfl rfl (fun _ => rfl) (fun _ _ h => by cases h) trivial ?_
      rintro m' spill' ⟨⟩
      exact hframe
  | spillLoad m start n =>
    rw [hpc] at hvalid
    rw [hpc, pushStep] at hstep
    obtain rfl := Option.some.inj hstep
    rw [applyPush_none]
    exact .scan hpc rfl rfl rfl hvalid start n _
  | spillCas m start n used =>
    rw [hpc] at hvalid
    obtain ⟨hneeds, havail⟩ := hvalid
    rw [hpc, pushStep] at hstep
    split_ifs at hstep with hcas <;> obtain rfl := Option.some.inj hstep <;> rw [applyPush_none]
    -- the bit was clear in the word that was compared
    · obtain ⟨hsame, -⟩ := hcas
      obtain ⟨hbit, hclear, hlt⟩ := ctz_available g havail
      refine hsame ▸ .take i m _ _ hneeds (by rw [hpc]; rfl)
        (by rw [hpc]; rfl) (hsame ▸ hbit) ?_ (hsame ▸ hlt) (by rw [hpc]; rfl)
      rw [BitWords.bitAt, BitWords.div_mul_add (hsame ▸ hbit), BitWords.mod_mul_add (hsame ▸ hbit)]
      exact hsame ▸ hclear
    · exact .scan hpc rfl rfl rfl hneeds start n _
  | spillCopy m b =>
    rw [hpc, pushStep] at hstep
    obtain rfl := Option.some.inj hstep
    rw [applyPush_none]
    exact .copy i m b hpc
  | spillFull m =>
    rw [hpc, pushStep] at hstep
    obtain rfl := Option.some.inj hstep
    rw [applyPush_none]
    exact .exhaust i m hpc
  | loadPos m spill =>
    rw [hpc] at hvalid
    rw [hpc, pushStep] at hstep
    obtain rfl := Option.some.inj hstep
    rw [applyPush_none]
    exact .move hpc rfl rfl rfl (fun _ => rfl) (fun _ _ h => h) le_rfl hvalid
  -- the comparison of the words is that of the positions, because the position is recent
  | loadSeq m spill pos =>
    rw [hpc] at hvalid hloaded
    have hrec : Recent g s.q.enqueuePos pos := hrecent pos (by rw [hpc]; rfl)
    have hcmp := h.signedCmp_eq hloaded hrec
    rw [QueueSys.seq, ← g.slotIndex_eq] at hcmp
    rw [hpc, pushStep, hcmp] at hstep
    have hseq : (s.q.slots (g.slotIndex pos)).seq = s.seq g pos := by
      rw [QueueSys.seq, g.slotIndex_eq]
    rw [hseq] at hstep
    rcases Nat.lt_trichotomy (s.seq g pos) pos with hlt | heq | hgt
    -- the slot has not been freed yet
    · rw [Nat.compare_eq_lt.mpr hlt] at hstep
      obtain rfl := Option.some.inj hstep
      rw [applyPush_none]
      exact .move hpc rfl rfl rfl (fun _ => rfl) (fun _ _ h => h) trivial hvalid
    -- it is free for this position
    · rw [Nat.compare_eq_eq.mpr heq] at hstep
      obtain rfl := Option.some.inj hstep
      rw [applyPush_none]
      have hlt : pos < s.head + g.cap := h.lt_of_seq_eq heq
      exact .move hpc rfl rfl rfl (fun _ => rfl) (fun _ _ h => h) ⟨hloaded, hlt⟩ hvalid
    -- another producer has it
    · rw [Nat.compare_eq_gt.mpr hgt] at hstep
      obtain rfl := Option.some.inj hstep
      rw [applyPush_none]
      exact .move hpc rfl rfl rfl (fun _ => rfl) (fun _ _ h => h) trivial hvalid
  | casPos m spill pos =>
    rw [hpc] at hvalid hloaded
    have hrec : Recent g s.q.enqueuePos pos := hrecent pos (by rw [hpc]; rfl)
    obtain ⟨hle, hlt⟩ := hloaded
    rw [hpc, pushStep] at hstep
    split_ifs at hstep with hcas <;> obtain rfl := Option.some.inj hstep
    · -- A recent position equals `enqueue_pos` as soon as the stored words are equal.
      have heq : s.q.enqueuePos = pos :=
        (wrap_inj_of_close (g.close_of_recent hrec (by omega) (by omega))).mp hcas.1
      subst heq
      have happly : s.applyPush i
          ⟨{ s.q with enqueuePos := s.q.enqueuePos + 1 },
            .pack m spill s.q.enqueuePos (packWrites m (loggerRecordTextLength m) spill),
            some m⟩ = _ := rfl
      rw [happly]
      exact .reserve i m spill hpc hlt
    · rw [applyPush_none]
      exact .move hpc rfl rfl rfl (fun _ => rfl) (fun _ _ h => h) le_rfl hvalid
  -- the fields, and then the sequence word
  | pack m spill pos rest =>
    cases rest with
    | nil =>
      rw [hpc, pushStep] at hstep
      obtain rfl := Option.some.inj hstep
      rw [applyPush_none, g.slotIndex_eq]
      exact .publish i m spill pos hpc
    | cons w rest =>
      rw [hpc, pushStep] at hstep
      obtain rfl := Option.some.inj hstep
      rw [applyPush_none, g.slotIndex_eq]
      exact .write i m spill pos w rest hpc
  | giveBack m spill =>
    rw [hpc, pushStep] at hstep
    obtain rfl := Option.some.inj hstep
    rw [applyPush_none]
    cases spill with
    -- without a block there is nothing to give back
    | none =>
      exact .move hpc rfl rfl rfl (fun _ => rfl) (fun _ _ h => by cases h) trivial
        (PushPc.valid_returned g _)
    | some b => exact .giveBack i m b hpc

omit [DecidableEq ι] in
/-- While the consumer looks at the slot of `dequeue_pos`, the equality test on its sequence word
decides whether the record there is published. -/
theorem PosInv.published_iff (h : PosInv g s) (hfreed : s.pop.freed = 0) :
    g.width.wrap (s.seq g s.q.dequeuePos) = g.width.wrap (s.q.dequeuePos + 1) ↔
      s.Published g s.q.dequeuePos := by
  have hhead : s.head = s.q.dequeuePos := by rw [QueueSys.head, hfreed, Nat.add_zero]
  have hle := h.head_le
  have hcap := g.two_le_cap
  have hseq : s.seq g s.q.dequeuePos = s.q.dequeuePos ∨
      s.seq g s.q.dequeuePos = s.q.dequeuePos + 1 := by
    rcases Nat.lt_or_ge s.q.dequeuePos s.q.enqueuePos with hlt | hge
    · rcases h.live _ hhead.le hlt with ⟨i, hi⟩ | hpub
      · exact .inl (h.held i _ hi).2.2
      · exact .inr hpub
    · exact .inl (h.free _ hge (by omega))
  rw [wrap_inj_of_close (g.close_of_le (by omega) (by omega))]
  refine ⟨fun heq => ⟨hhead.le, ?_, heq⟩, fun hpub => hpub.2.2⟩
  by_contra hge
  have hfree := h.free s.q.dequeuePos (by omega) (by omega)
  omega

/-- The step of the consumer, with all comparisons resolved. -/
theorem queueStep_of_pop (h : PosInv g s) {entry : LoggerMessage} {e : PopEffect}
    (hstep : popStep g s.q entry s.pop = some e) : QueueStep g s (s.applyPop e) := by
  have hpop := h.pop_ok
  cases hpc : s.pop with
  | idle => simp [hpc, popStep] at hstep
  | returned out => simp [hpc, popStep] at hstep
  | drainHead out max =>
    rw [hpc, popStep] at hstep
    split_ifs at hstep <;> obtain rfl := Option.some.inj hstep <;> rw [applyPop_none]
    -- the drain goes on, or is over
    · exact .popQuiet _ (by rw [hpc]; trivial) trivial (by rw [hpc]; exact .inl rfl)
    · exact .popQuiet _ (by rw [hpc]; trivial) trivial (by rw [hpc]; exact .inl rfl)
  | loadPos out max dst =>
    rw [hpc, popStep] at hstep
    obtain rfl := Option.some.inj hstep
    rw [applyPop_none]
    exact .popQuiet _ (by rw [hpc]; trivial) rfl (by rw [hpc]; exact .inl rfl)
  | loadSeq out max dst pos =>
    -- the head is the position that was loaded
    have hpos : pos = s.q.dequeuePos := by rwa [hpc] at hpop
    subst hpos
    have hiff := h.published_iff (by rw [hpc]; rfl)
    rw [QueueSys.seq, ← g.slotIndex_eq] at hiff
    rw [hpc, popStep] at hstep
    split_ifs at hstep with hseq <;> obtain rfl := Option.some.inj hstep <;> rw [applyPop_none]
    -- a published head is claimed
    · exact .popClaim out max dst hpc (hiff.mp hseq)
    · exact .popQuiet _ (by rw [hpc]; rfl) trivial (by rw [hpc]; exact .inl rfl)
  | readSpill out max dst pos =>
    rw [hpc, popStep] at hstep
    obtain rfl := Option.some.inj hstep
    rw [applyPop_none, g.slotIndex_eq]
    exact .popSpill out max dst pos hpc
  | unpack out max dst pos spill rest =>
    cases rest with
    | nil =>
      rw [hpc, popStep] at hstep
      obtain rfl := Option.some.inj hstep
      rw [applyPop_none]
      exact .popPut out max dst pos spill hpc
    | cons read rest =>
      rw [hpc, popStep] at hstep
      obtain rfl := Option.some.inj hstep
      rw [applyPop_none, g.slotIndex_eq]
      exact .popRead out max dst pos spill read rest hpc
  | storeSeq out max dst pos =>
    rw [hpc, popStep] at hstep
    obtain rfl := Option.some.inj hstep
    rw [applyPop_none, g.slotIndex_eq]
    exact .popFree out max dst pos hpc
  | storePos out max dst pos =>
    rw [hpc, popStep] at hstep
    obtain rfl := Option.some.inj hstep
    exact .popAdvance out max dst pos hpc

/-- Every step of the queue from a state with the position invariant, while loaded positions are
recent, is one of the listed effects. -/
theorem queueStep_of_next (h : PosInv g s) (hfresh : Fresh g s) {a : QueueAction ι}
    (hnext : queueNext g s a = some s') : QueueStep g s s' := by
  cases a with
  -- the calls enter at `idle`
  | callPush i m =>
    rw [queueNext] at hnext
    split at hnext
    · rename_i hpc
      obtain rfl := Option.some.inj hnext
      exact .call i m hpc
    · contradiction
  | push i c =>
    obtain ⟨e, hstep, rfl⟩ := Option.map_eq_some_iff.mp hnext
    exact queueStep_of_push h hfresh hstep
  | returnPush i =>
    rw [queueNext] at hnext
    split at hnext
    · rename_i published hpc
      obtain rfl := Option.some.inj hnext
      exact .move hpc rfl rfl rfl (fun h => by cases h) (fun _ _ h => by cases h) trivial
        (fun m b h => by cases h)
    · contradiction
  | callTryPop dst =>
    rw [queueNext] at hnext
    split at hnext
    · rename_i hpc
      obtain rfl := Option.some.inj hnext
      exact .popQuiet _ (by rw [hpc]; trivial) trivial (.inr rfl)
    · contradiction
  | callDrain max =>
    rw [queueNext] at hnext
    split at hnext
    · rename_i hpc
      obtain rfl := Option.some.inj hnext
      exact .popQuiet _ (by rw [hpc]; trivial) trivial (.inr rfl)
    · contradiction
  | pop entry =>
    obtain ⟨e, hstep, rfl⟩ := Option.map_eq_some_iff.mp hnext
    exact queueStep_of_pop h hstep
  | returnPop =>
    rw [queueNext] at hnext
    split at hnext
    · rename_i out hpc
      obtain rfl := Option.some.inj hnext
      exact .popQuiet _ (by rw [hpc]; trivial) trivial (.inr rfl)
    · contradiction

end CLogger
