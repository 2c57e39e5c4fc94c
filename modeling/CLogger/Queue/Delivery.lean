import CLogger.Queue.Spill

/-!
# What the consumer delivers

The block of a readable slot holds the text of the reserved message (`TextInv`), so unpacking a
claimed slot, field by field and while other producers work on other slots and blocks, gives the
content of that message (`PopInv`). `QueueInv` collects the invariants of the queue.
-/

namespace CLogger

variable {ι : Type} {g : QueueGeometry} {s s' : QueueSys ι}

/-- Block `b` can still be read through the published slot of position `p`. -/
def QueueSys.Readable (g : QueueGeometry) (s : QueueSys ι) (p b : ℕ) : Prop :=
  s.Published g p ∧ (s.record g p).spillIndex = some b ∧
    (s.pop.claimed = some p → s.pop.reading = some p)

/-- A readable block belongs to a slot or to the consumer. -/
theorem QueueSys.Readable.owns {p b : ℕ} (h : s.Readable g p b) :
    s.Owns g (.slot p) b ∨ s.Owns g .consumer b := by
  obtain ⟨hpub, hb, hread⟩ := h
  by_cases hclaimed : s.pop.claimed = some p
  · exact .inr ⟨p, hread hclaimed, hb⟩
  · exact .inl ⟨hpub, hb, hclaimed⟩

/-- A block in the hands of a producer cannot be read. -/
theorem SpillInv.not_readable (h : SpillInv g s) {i : ι} {p b : ℕ}
    (hi : (s.push i).block = some b) : ¬s.Readable g p b := by
  intro hread
  rcases hread.owns with ho | ho
  · cases h.exclusive.unique b _ (.producer i) ho hi
  · cases h.exclusive.unique b _ (.producer i) ho hi

theorem PushPc.block_of_frame {pc : PushPc} {m : LoggerMessage} {b : ℕ}
    (h : pc.frame = some (m, some b)) : pc.block = some b := by
  cases pc <;> cases h <;> rfl

/-- The blocks hold the texts stored in them: for the producers past the copy and for the slots
that can be read. -/
structure TextInv (g : QueueGeometry) (s : QueueSys ι) : Prop where
  frame : ∀ i m b, (s.push i).frame = some (m, some b) →
    ∀ k ≤ loggerRecordTextLength m, s.q.spills b k = m.text k
  slot : ∀ p b r, s.Readable g p b → s.reserved[p]? = some r →
    ∀ k ≤ loggerRecordTextLength r.message, s.q.spills b k = r.message.text k

/-- A step that keeps the blocks and makes nothing new readable keeps `TextInv`. -/
theorem TextInv.of_same (h : TextInv g s) (hspills : s'.q.spills = s.q.spills)
    (hframe : ∀ i m b, (s'.push i).frame = some (m, some b) →
      (s.push i).frame = some (m, some b))
    (hread : ∀ p b, s'.Readable g p b → s.Readable g p b)
    (hres : ∀ p r, s.Published g p → s'.reserved[p]? = some r → s.reserved[p]? = some r) :
    TextInv g s' where
  frame i m b hi := by
    rw [hspills]
    exact h.frame i m b (hframe i m b hi)
  slot p b r hp hr := by
    rw [hspills]
    exact h.slot p b r (hread p b hp) (hres p r (hread p b hp).1 hr)

/-- A move of the consumer that makes nothing new readable keeps `TextInv`. -/
theorem TextInv.pop_same (h : TextInv g s) (hspills : s'.q.spills = s.q.spills)
    (hpush : s'.push = s.push) (hres : s'.reserved = s.reserved)
    (hread : ∀ p b, s'.Readable g p b → s.Readable g p b) : TextInv g s' :=
  h.of_same hspills (fun _ _ _ hi => hpush ▸ hi) hread fun _ _ _ hr => hres ▸ hr

/-- A move of the consumer from a state in which it has not returned a block makes nothing new
readable. -/
theorem readable_pop_move {pc : PopPc} (hfreed : pc.freed = s.pop.freed)
    (hold : s.pop.reading = s.pop.claimed) {p b : ℕ}
    (h : ({ s with pop := pc } : QueueSys ι).Readable g p b) : s.Readable g p b := by
  obtain ⟨hpub, hb, -⟩ := h
  exact ⟨(published_pop_move hfreed).mp hpub, hb, fun hp => by rw [hold, hp]⟩

section Update

variable [DecidableEq ι]

/-- A move of a producer that keeps the blocks, what is published and what it has stored. -/
theorem TextInv.push_same (h : TextInv g s) (i : ι) (pc : PushPc)
    (hpush : s'.push = Function.update s.push i pc) (hspills : s'.q.spills = s.q.spills)
    (hframe : ∀ m b, pc.frame = some (m, some b) → (s.push i).frame = some (m, some b))
    (hpub : ∀ p, s'.Published g p ↔ s.Published g p)
    (hrec : ∀ p, s.Published g p → s'.record g p = s.record g p) (hpop : s'.pop = s.pop)
    (hres : ∀ p r, s.Published g p → s'.reserved[p]? = some r → s.reserved[p]? = some r) :
    TextInv g s' := by
  refine h.of_same hspills ?_ ?_ hres
  · rw [hpush, Function.forall_update_iff _ fun j (pc : PushPc) => ∀ m b,
      pc.frame = some (m, some b) → (s.push j).frame = some (m, some b)]
    exact ⟨hframe, fun _ _ _ _ hj => hj⟩
  · rintro p b ⟨hp, hb, hread⟩
    have hp' := (hpub p).mp hp
    exact ⟨hp', by rw [← hrec p hp']; exact hb, by rw [← hpop]; exact hread⟩

/-- Copying a text changes one block, which nobody else can read. -/
theorem TextInv.copy (h : TextInv g s) (hspill : SpillInv g s) (i : ι) (m : LoggerMessage) (b₀ : ℕ)
    (hpc : s.push i = .spillCopy m b₀) (s' : QueueSys ι)
    (hs' : s' = { s with
      q := { s.q with
        spills := Function.update s.q.spills b₀
          (memcpy (s.q.spills b₀) m.text (loggerRecordTextLength m + 1)) }
      push := Function.update s.push i (.loadPos m (some b₀)) }) : TextInv g s' := by
  -- the block is the producer's own
  have hown : (s.push i).block = some b₀ := by rw [hpc]; rfl
  have hself : s'.push i = .loadPos m (some b₀) := by subst hs'; exact Function.update_self _ _ _
  have hother : ∀ j, j ≠ i → s'.push j = s.push j := by
    subst hs'
    intro j hj
    exact Function.update_of_ne hj _ _
  have hnew : s'.q.spills b₀ = memcpy (s.q.spills b₀) m.text (loggerRecordTextLength m + 1) := by
    subst hs'
    exact Function.update_self _ _ _
  have hkeep : ∀ b, b ≠ b₀ → s'.q.spills b = s.q.spills b := by
    subst hs'
    intro b hb
    exact Function.update_of_ne hb _ _
  -- the texts of the producers
  constructor
  · intro j m' b hj k hk
    by_cases hji : j = i
    · subst hji
      rw [hself] at hj
      cases hj
      rw [hnew, memcpy, if_pos (Nat.lt_succ_of_le hk)]
    · rw [hother j hji] at hj
      have hne : b ≠ b₀ := by
        rintro rfl
        have := hspill.exclusive.unique b (.producer j) (.producer i)
          (PushPc.block_of_frame hj) hown
        exact hji (SpillOwner.producer.inj this)
      rw [hkeep b hne]
      exact h.frame j m' b hj k hk
  -- the texts of the slots, none of which is in this block
  · intro p b r hp hr k hk
    have hp' : s.Readable g p b := by subst hs'; exact hp
    have hne : b ≠ b₀ := by
      rintro rfl
      exact hspill.not_readable hown hp'
    rw [hkeep b hne]
    exact h.slot p b r hp' (by subst hs'; exact hr) k hk

/-- A publication makes the block of its producer readable. -/
theorem TextInv.publish (h : TextInv g s) (hpos : PosInv g s) (hrec : RecInv g s) (i : ι)
    (m : LoggerMessage) (spill : Option ℕ) (p : ℕ) (hpc : s.push i = .pack m spill p [])
    (s' : QueueSys ι)
    (hs' : s' = { s with
      q := s.q.storeSeq (p % g.cap) (p + 1), push := Function.update s.push i (.returned true) }) :
    TextInv g s' := by
  have hi : (s.push i).held = some p := by rw [hpc]; rfl
  -- one position more is published
  have hpub : ∀ p', s'.Published g p' ↔ p' = p ∨ s.Published g p' :=
    published_publish hpos hi (by subst hs'; rfl) (by subst hs'; rfl)
  have hrecs : ∀ p', s'.record g p' = s.record g p' := record_storeSeq (by subst hs'; rfl)
  have hspills : s'.q.spills = s.q.spills := by subst hs'; rfl
  have hres : s'.reserved = s.reserved := by subst hs'; rfl
  have hpop : s'.pop = s.pop := by subst hs'; rfl
  constructor
  · intro j m' b hj
    have hji : j ≠ i := by
      -- a call that has returned keeps no text
      rintro rfl
      have hself : s'.push j = .returned true := by subst hs'; exact Function.update_self _ _ _
      rw [hself] at hj
      cases hj
    have hother : s'.push j = s.push j := by subst hs'; exact Function.update_of_ne hji _ _
    rw [hspills]
    exact h.frame j m' b (hother ▸ hj)
  -- the text of a slot is the one its producer has copied
  · rintro p' b r ⟨hp', hb, hread⟩ hr
    rw [hspills]
    rw [hres] at hr
    rcases (hpub p').mp hp' with rfl | hp'
    · -- The record just published is the one its producer packed, with the block it filled.
      obtain ⟨hr', old, done, hdone, hrun⟩ := hrec.packing i m spill p' [] hpc
      rw [hr'] at hr
      obtain rfl := Option.some.inj hr
      rw [List.append_nil] at hdone
      have hspill : spill = some b := by
        rw [← hb, hrecs, hrun, hdone]
        exact (queueRecordPack_spillIndex old m _ spill).symm
      exact h.frame i m b (by rw [hpc, hspill]; rfl)
    · refine h.slot p' b r ⟨hp', by rw [← hrecs]; exact hb, ?_⟩ hr
      rw [← hpop]
      exact hread

/-- Every step keeps `TextInv`. -/
theorem TextInv.step (h : TextInv g s) (hpos : PosInv g s) (hrec : RecInv g s)
    (hspill : SpillInv g s) (hstep : QueueStep g s s') : TextInv g s' := by
  -- a step that writes no block and publishes nothing
  cases hstep with
  | call i m hpc =>
    exact h.push_same i _ rfl rfl (fun m b hf => by cases hf) (fun _ => Iff.rfl) (fun _ _ => rfl)
      rfl fun _ _ _ hr => hr
  | quiet i pc hfrom hto hblock hpending hframe hloaded hvalid =>
    exact h.push_same i pc rfl rfl hframe (fun _ => Iff.rfl) (fun _ _ => rfl) rfl
      fun _ _ _ hr => hr
  | take i m word bit hneeds hheld hnone hbit hclear hlt hpending =>
    exact h.push_same i _ rfl rfl (fun m b hf => by cases hf) (fun _ => Iff.rfl) (fun _ _ => rfl)
      rfl fun _ _ _ hr => hr
  | copy i m b hpc => exact h.copy hspill i m b hpc _ rfl
  | exhaust i m hpc =>
    exact h.push_same i _ rfl rfl (fun m b hf => by cases hf) (fun _ => Iff.rfl) (fun _ _ => rfl)
      rfl fun _ _ _ hr => hr
  -- the new position is not published yet
  | reserve i m spill hpc hlt =>
    refine h.push_same i _ rfl rfl (fun m b hf => by rw [hpc]; exact hf)
      (published_reserve hpos hlt rfl rfl) (fun _ _ => rfl) rfl ?_
    intro p r hp hr
    rw [List.getElem?_append_left (by rw [hpos.reserved_length]; exact hp.2.1)] at hr
    exact hr
  -- the slot written to is not readable
  | write i m spill p w rest hpc =>
    have hi : (s.push i).held = some p := by rw [hpc]; rfl
    refine h.push_same i _ rfl rfl (fun m b hf => by rw [hpc]; exact hf)
      (fun _ => by apply published_writeRecord <;> rfl) ?_ rfl fun _ _ _ hr => hr
    intro p' hp'
    rw [record_writeRecord rfl, if_neg (hpos.mod_ne_of_published hi hp')]
  | publish i m spill p hpc => exact h.publish hpos hrec i m spill p hpc _ rfl
  | giveBack i m b hpc =>
    exact h.push_same i _ rfl rfl (fun m b hf => by cases hf) (fun _ => Iff.rfl) (fun _ _ => rfl)
      rfl fun _ _ _ hr => hr
  | popQuiet pc hfrom hto hout =>
    exact h.pop_same rfl rfl rfl fun _ _ =>
      readable_pop_move (hto.freed_eq.trans hfrom.freed_eq.symm)
        (hfrom.reading_eq.trans hfrom.claimed_eq.symm)
  | popClaim out max dst hpc hpub =>
    exact h.pop_same rfl rfl rfl fun _ _ =>
      readable_pop_move (by rw [hpc]; rfl) (by rw [hpc]; rfl)
  | popSpill out max dst p hpc =>
    exact h.pop_same rfl rfl rfl fun _ _ =>
      readable_pop_move (by rw [hpc]; rfl) (by rw [hpc]; rfl)
  | popRead out max dst p spill read rest hpc =>
    exact h.pop_same rfl rfl rfl fun _ _ =>
      readable_pop_move (by rw [hpc]; rfl) (by rw [hpc]; rfl)
  -- a block given back is not readable any more
  | popPut out max dst p spill hpc =>
    refine h.pop_same (by cases spill <;> rfl) rfl rfl ?_
    rintro p' b ⟨hp', hb, -⟩
    refine ⟨(published_popPut hpc).mp hp', ?_, fun hc => by rw [hpc] at hc ⊢; exact hc⟩
    rw [QueueSys.record, spillPut_slots] at hb
    exact hb
  -- a freed slot is not readable either
  | popFree out max dst p hpc =>
    refine h.pop_same rfl rfl rfl ?_
    rintro p' b ⟨hp', hb, -⟩
    obtain ⟨hp, hne⟩ := (published_popFree hpos hpc _ rfl p').mp hp'
    rw [record_storeSeq rfl] at hb
    refine ⟨hp, hb, fun hc => ?_⟩
    rw [hpc] at hc
    exact absurd (Option.some.inj hc).symm hne
  | popAdvance out max dst p hpc =>
    refine h.pop_same rfl rfl rfl ?_
    rintro p' b ⟨hp', hb, -⟩
    exact ⟨(published_popAdvance hpos hpc).mp hp', hb, fun hc => by rw [hpc] at hc; cases hc⟩

end Update

/-- A field read depends on the blocks only through the block of the record. -/
theorem unpackReads_congr {r : QueueRecord} {spills spills' : ℕ → Buf}
    (h : ∀ b, r.spillIndex = some b → spills' b = spills b) {read : FieldRead}
    (hread : read ∈ unpackReads) : read r spills' = read r spills := by
  simp only [unpackReads, List.mem_cons, List.not_mem_nil, or_false] at hread
  rcases hread with rfl | rfl | rfl | rfl | rfl | rfl | rfl | rfl | rfl | rfl | rfl | rfl | rfl |
    rfl <;> try rfl
  funext d
  cases hr : r.spillIndex with
  | none => simp only [hr]
  | some b => simp only [hr, h b hr]

/-- `dst` is what the field reads before `rest` have made of some entry. -/
def Unpacked (r : QueueRecord) (spills : ℕ → Buf) (dst : LoggerMessage) (rest : List FieldRead) :
    Prop :=
  ∃ old done, done ++ rest = unpackReads ∧
    dst = runWrites (done.map fun read => read r spills) old

theorem Unpacked.congr {r : QueueRecord} {spills spills' : ℕ → Buf} {dst : LoggerMessage}
    {rest : List FieldRead} (h : Unpacked r spills dst rest)
    (hspills : ∀ b, r.spillIndex = some b → spills' b = spills b) :
    Unpacked r spills' dst rest := by
  obtain ⟨old, done, hdone, hdst⟩ := h
  refine ⟨old, done, hdone, ?_⟩
  rw [hdst]
  congr 1
  refine List.map_congr_left fun read hread => ?_
  exact (unpackReads_congr hspills (hdone ▸ List.mem_append_left rest hread)).symm

/-- The entry `dst` has the content of the message reserved at position `p`. -/
def QueueSys.Delivers (s : QueueSys ι) (p : ℕ) (dst : LoggerMessage) : Prop :=
  ∃ r, s.reserved[p]? = some r ∧ dst.content = r.message.packedContent

/-- What the consumer has taken, from the record it unpacks to the records of all its calls. -/
structure PopInv (g : QueueGeometry) (s : QueueSys ι) : Prop where
  unpacking : ∀ out max dst p spill rest, s.pop = .unpack out max dst p spill rest →
    Unpacked (s.record g p) s.q.spills dst rest
  unpacked : ∀ out max dst p, s.pop = .storeSeq out max dst p → s.Delivers p dst
  freed : ∀ out max dst p, s.pop = .storePos out max dst p → s.Delivers p dst
  popped_length : s.popped.length = s.q.dequeuePos
  popped : ∀ p dst, s.popped[p]? = some dst → s.Delivers p dst
  out : s.pop.out <:+ s.popped

theorem QueueSys.Delivers.mono {p : ℕ} {dst : LoggerMessage} (h : s.Delivers p dst)
    (hres : s.reserved <+: s'.reserved) : s'.Delivers p dst := by
  obtain ⟨r, hr, hdst⟩ := h
  obtain ⟨l, hl⟩ := hres
  refine ⟨r, ?_, hdst⟩
  rw [← hl, List.getElem?_append_left (List.getElem?_eq_some_iff.mp hr).1]
  exact hr

/-- A step of a producer keeps `PopInv` when it keeps the claimed record and its block. -/
theorem PopInv.push_same (h : PopInv g s) (hpos : PosInv g s) (hpop : s'.pop = s.pop)
    (hpopped : s'.popped = s.popped) (hdeq : s'.q.dequeuePos = s.q.dequeuePos)
    (hres : s.reserved <+: s'.reserved)
    (hrec : ∀ p, s.Published g p → s'.record g p = s.record g p)
    (hspills : ∀ p b, s.Readable g p b → s'.q.spills b = s.q.spills b) : PopInv g s' where
  unpacking out max dst p spill rest hp := by
    rw [hpop] at hp
    have hread : s.pop.reading = some p := by rw [hp]; rfl
    have hpub := hpos.published_of_reading hread
    rw [hrec p hpub]
    refine (h.unpacking out max dst p spill rest hp).congr fun b hb => ?_
    exact hspills p b ⟨hpub, hb, fun _ => hread⟩
  unpacked out max dst p hp := (h.unpacked out max dst p (hpop ▸ hp)).mono hres
  freed out max dst p hp := (h.freed out max dst p (hpop ▸ hp)).mono hres
  popped_length := by rw [hpopped, hdeq, h.popped_length]
  popped p dst hp := (h.popped p dst (hpopped ▸ hp)).mono hres
  out := by rw [hpop, hpopped]; exact h.out

/-- A move of the consumer that unpacks and takes nothing keeps `PopInv`. -/
theorem PopInv.pop_move (h : PopInv g s) (pc : PopPc)
    (hunpack : ∀ out max dst p spill rest, pc = .unpack out max dst p spill rest →
      Unpacked (s.record g p) s.q.spills dst rest)
    (hput : ∀ out max dst p, pc = .storeSeq out max dst p → s.Delivers p dst)
    (hfree : ∀ out max dst p, pc = .storePos out max dst p → s.Delivers p dst)
    (hout : pc.out = s.pop.out ∨ pc.out = []) : PopInv g { s with pop := pc } where
  unpacking := hunpack
  unpacked := hput
  freed := hfree
  popped_length := h.popped_length
  popped := h.popped
  out := by
    rcases hout with hout | hout
    · exact hout ▸ h.out
    · exact hout ▸ List.nil_suffix

/-- A record whose fields have all been read has the content of the reserved message. -/
theorem delivers_of_unpacked (hrec : RecInv g s) (htext : TextInv g s) {p : ℕ} {dst : LoggerMessage}
    (hpub : s.Published g p) (hread : s.pop.reading = some p)
    (h : Unpacked (s.record g p) s.q.spills dst []) : s.Delivers p dst := by
  obtain ⟨r, spill, old, hr, hvalid, hpack⟩ := hrec.published p hpub
  obtain ⟨entry, done, hdone, hdst⟩ := h
  rw [List.append_nil] at hdone
  subst hdone
  refine ⟨r, hr, ?_⟩
  rw [hdst, hpack]
  refine content_unpack_pack s.q.spills old r.message spill entry hvalid.1 ?_
  intro b hb
  refine htext.slot p b r ⟨hpub, ?_, fun _ => hread⟩ hr
  rw [hpack, queueRecordPack_spillIndex, hb]

/-- Completing a pop appends the record that was unpacked. -/
theorem PopInv.popAdvance (h : PopInv g s) (hpos : PosInv g s) {out : List LoggerMessage}
    {max : Option ℕ} {dst : LoggerMessage} {p : ℕ} (hpc : s.pop = .storePos out max dst p) :
    PopInv g { s with
      q := { s.q with dequeuePos := p + 1 }
      pop := popNext (out ++ [dst]) max
      popped := s.popped ++ [dst] } := by
  have hpop := hpos.pop_ok
  rw [hpc] at hpop
  -- the record is the one at the position that is stored now
  have hlen : s.popped.length = p := h.popped_length.trans hpop.symm
  constructor
  · intro out' max' dst' p' spill' rest' hp'
    cases max <;> cases hp'
  · intro out' max' dst' p' hp'
    cases max <;> cases hp'
  · intro out' max' dst' p' hp'
    cases max <;> cases hp'
  · simp [hlen]
  -- the older records are as they were
  · intro p' dst' hp'
    rcases Nat.lt_or_ge p' s.popped.length with hlt | hge
    · rw [List.getElem?_append_left hlt] at hp'
      exact h.popped p' dst' hp'
    · rw [List.getElem?_append_right hge, List.getElem?_singleton] at hp'
      split_ifs at hp' with hzero
      obtain rfl := Option.some.inj hp'
      obtain rfl : p' = p := by omega
      exact h.freed out max dst p' hpc
  -- what the call has handed out is the end of what was popped
  · have hout : (popNext (out ++ [dst]) max).out = out ++ [dst] := by cases max <;> rfl
    have hsuffix := h.out
    rw [hpc] at hsuffix
    rw [hout]
    obtain ⟨l, hl⟩ := hsuffix
    exact ⟨l, by rw [← List.append_assoc]; exact congrArg (· ++ [dst]) hl⟩

/-- Every step keeps `PopInv`. -/
theorem PopInv.step [DecidableEq ι] (h : PopInv g s) (hpos : PosInv g s) (hrec : RecInv g s)
    (hspill : SpillInv g s) (htext : TextInv g s) (hstep : QueueStep g s s') : PopInv g s' := by
  -- the steps of the producers leave the consumer alone
  cases hstep with
  | call i m hpc =>
    exact h.push_same hpos rfl rfl rfl List.prefix_rfl (fun _ _ => rfl) fun _ _ _ => rfl
  | quiet i pc hfrom hto hblock hpending hframe hloaded hvalid =>
    exact h.push_same hpos rfl rfl rfl List.prefix_rfl (fun _ _ => rfl) fun _ _ _ => rfl
  | take i m word bit hneeds hheld hnone hbit hclear hlt hpending =>
    exact h.push_same hpos rfl rfl rfl List.prefix_rfl (fun _ _ => rfl) fun _ _ _ => rfl
  -- a copy does not touch a readable block
  | copy i m b hpc =>
    refine h.push_same hpos rfl rfl rfl List.prefix_rfl (fun _ _ => rfl) ?_
    intro p b' hp
    have hne : b' ≠ b := by
      rintro rfl
      exact hspill.not_readable (i := i) (by rw [hpc]; rfl) hp
    exact Function.update_of_ne hne _ _
  | exhaust i m hpc =>
    exact h.push_same hpos rfl rfl rfl List.prefix_rfl (fun _ _ => rfl) fun _ _ _ => rfl
  | reserve i m spill hpc hlt =>
    exact h.push_same hpos rfl rfl rfl ( List.prefix_append _ _) (fun _ _ => rfl) fun _ _ _ => rfl
  | write i m spill p w rest hpc =>
    have hi : (s.push i).held = some p := by rw [hpc]; rfl
    refine h.push_same hpos rfl rfl rfl List.prefix_rfl ?_ fun _ _ _ => rfl
    intro p' hp'
    rw [record_writeRecord rfl, if_neg (hpos.mod_ne_of_published hi hp')]
  | publish i m spill p hpc =>
    exact h.push_same hpos rfl rfl rfl List.prefix_rfl (fun _ _ => record_storeSeq rfl _)
      fun _ _ _ => rfl
  | giveBack i m b hpc =>
    exact h.push_same hpos rfl rfl rfl List.prefix_rfl (fun _ _ => rfl) fun _ _ _ => rfl
  -- the consumer moves without a record
  | popQuiet pc hfrom hto hout =>
    refine h.pop_move pc ?_ ?_ ?_ hout
    · rintro out max dst p spill rest rfl
      exact hto.elim
    · rintro out max dst p rfl
      exact hto.elim
    · rintro out max dst p rfl
      exact hto.elim
  | popClaim out max dst hpc hpub =>
    exact h.pop_move _ (fun _ _ _ _ _ _ hp => by cases hp) (fun _ _ _ _ hp => by cases hp)
      (fun _ _ _ _ hp => by cases hp) (.inl (by rw [hpc]; rfl))
  | popSpill out max dst p hpc =>
    refine h.pop_move _ ?_ (fun _ _ _ _ hp => by cases hp) (fun _ _ _ _ hp => by cases hp)
      (.inl (by rw [hpc]; rfl))
    rintro out' max' dst' p' spill' rest' ⟨⟩
    exact ⟨dst, [], rfl, rfl⟩
  -- one field more has been read
  | popRead out max dst p spill read rest hpc =>
    refine h.pop_move _ ?_ (fun _ _ _ _ hp => by cases hp) (fun _ _ _ _ hp => by cases hp)
      (.inl (by rw [hpc]; rfl))
    rintro out' max' dst' p' spill' rest' ⟨⟩
    obtain ⟨old, done, hdone, hdst⟩ := h.unpacking out max dst p spill (read :: rest) hpc
    refine ⟨old, done ++ [read], by rw [← hdone]; simp, ?_⟩
    rw [hdst, List.map_append, runWrites_append]
    rfl
  -- the record is complete, and its text is read from the block before it is given back
  | popPut out max dst p spill hpc =>
    have hpop := hpos.pop_ok
    rw [hpc] at hpop
    have hdel : s.Delivers p dst := delivers_of_unpacked hrec htext hpop.2 (by rw [hpc]; rfl)
      (h.unpacking out max dst p spill [] hpc)
    have hout := h.out
    rw [hpc] at hout
    constructor
    · intro out' max' dst' p' spill' rest' hp'
      cases hp'
    · rintro out' max' dst' p' ⟨⟩
      exact hdel
    · intro out' max' dst' p' hp'
      cases hp'
    · rw [h.popped_length]
      cases spill <;> rfl
    · exact h.popped
    · exact hout
  -- the slot is freed, and the record stays with the consumer
  | popFree out max dst p hpc =>
    have hout := h.out
    rw [hpc] at hout
    constructor
    · intro out' max' dst' p' spill' rest' hp'
      cases hp'
    · intro out' max' dst' p' hp'
      cases hp'
    · rintro out' max' dst' p' ⟨⟩
      exact h.unpacked out max dst p hpc
    · exact h.popped_length
    · exact h.popped
    · exact hout
  | popAdvance out max dst p hpc => exact h.popAdvance hpos hpc

/-- The invariants of the queue. -/
structure QueueInv (g : QueueGeometry) (s : QueueSys ι) : Prop where
  pos : PosInv g s
  records : RecInv g s
  order : OrderInv s
  spill : SpillInv g s
  text : TextInv g s
  pop : PopInv g s

theorem SpillInv.init (g : QueueGeometry) : SpillInv g (QueueSys.init ι) := by
  have hclear : ∀ b, BitWords.bitAt (QueueSys.init ι).q.spillUsed b = false := fun b => by
    simp [BitWords.bitAt, QueueSys.init, Queue.init]
  have hnone : ∀ o b, ¬(QueueSys.init ι).Owns g o b := by
    rintro (i | p | -) b ho
    · cases ho
    · exact absurd ho.1.2.1 (Nat.not_lt_zero p)
    · obtain ⟨p, hp, -⟩ := ho
      cases hp
  refine ⟨⟨fun b => ?_, fun b o o' ho => absurd ho (hnone o b)⟩, fun b hb => ?_⟩
  · simp [hclear, hnone]
  · rw [hclear] at hb
    cases hb

theorem TextInv.init (g : QueueGeometry) : TextInv g (QueueSys.init ι) where
  frame i m b hf := by cases hf
  slot p b r hp := absurd hp.1.2.1 (Nat.not_lt_zero p)

theorem PopInv.init (g : QueueGeometry) : PopInv g (QueueSys.init ι) where
  unpacking _ _ _ _ _ _ hp := by cases hp
  unpacked _ _ _ _ hp := by cases hp
  freed _ _ _ _ hp := by cases hp
  popped_length := rfl
  popped p dst hp := by simp [QueueSys.init] at hp
  out := List.nil_suffix

theorem QueueInv.init (g : QueueGeometry) : QueueInv g (QueueSys.init ι) where
  pos := .init ι g
  records := .init g
  order := .init
  spill := .init g
  text := .init g
  pop := .init g

theorem QueueInv.step [DecidableEq ι] (h : QueueInv g s) (hstep : QueueStep g s s') :
    QueueInv g s' where
  pos := h.pos.step hstep
  records := h.records.step h.pos hstep
  order := h.order.step hstep
  spill := h.spill.step h.pos h.records hstep
  text := h.text.step h.pos h.records h.spill hstep
  pop := h.pop.step h.pos h.records h.spill h.text hstep

/-- The invariants hold in every reachable state. -/
theorem QueueReachable.inv [DecidableEq ι] (h : QueueReachable g s) : QueueInv g s := by
  refine TransitionSystem.Reachable.invariant (I := QueueInv g) (.init g) ?_ h
  intro s a s' _ hinv hnext hfresh
  exact hinv.step (queueStep_of_next hinv.pos hfresh hnext)

end CLogger
