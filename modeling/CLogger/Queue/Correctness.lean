import CLogger.Queue.Delivery
import Mathlib.Data.Finset.Card

/-!
# Correctness of the queue

The two guarantees of `logger_queue.c`, for every accepted capacity, every set of producers and
every interleaving: records are delivered in reservation order, each once and complete
(`OrderedDelivery`), and spill blocks are owned exclusively, hold the text that was stored, and are
returned (`SpillSafety`).
-/

namespace CLogger

variable {ι : Type} {g : QueueGeometry} {s s' : QueueSys ι}

/-- A push step writes no spill block but the one its producer is copying into. -/
theorem pushStep_spills {c : PushChoice} {q : Queue} {pc : PushPc} {e : PushEffect}
    (h : pushStep g q c pc = some e) {b : ℕ} (hb : e.queue.spills b ≠ q.spills b) :
    ∃ m, pc = .spillCopy m b := by
  cases pc with
  | idle => cases h
  | returned published => cases h
  | enter m =>
    rw [pushStep] at h
    split_ifs at h <;> obtain rfl := Option.some.inj h <;> exact absurd rfl hb
  | spillLoad m start n =>
    obtain rfl := Option.some.inj h
    exact absurd rfl hb
  | spillCas m start n used =>
    rw [pushStep] at h
    split_ifs at h <;> obtain rfl := Option.some.inj h <;> exact absurd rfl hb
  -- the text goes to the block that was taken
  | spillCopy m index =>
    obtain rfl := Option.some.inj h
    by_cases hne : b = index
    · exact ⟨m, by rw [hne]⟩
    · exact absurd (Function.update_of_ne hne _ _) hb
  | spillFull m =>
    obtain rfl := Option.some.inj h
    exact absurd rfl hb
  | loadPos m spill =>
    obtain rfl := Option.some.inj h
    exact absurd rfl hb
  | loadSeq m spill pos =>
    rw [pushStep] at h
    split at h <;> obtain rfl := Option.some.inj h <;> exact absurd rfl hb
  | casPos m spill pos =>
    rw [pushStep] at h
    split_ifs at h <;> obtain rfl := Option.some.inj h <;> exact absurd rfl hb
  -- giving a block back changes its bit only
  | giveBack m spill =>
    obtain rfl := Option.some.inj h
    cases spill <;> exact absurd rfl hb
  | pack m spill pos rest =>
    cases rest with
    | nil =>
      obtain rfl := Option.some.inj h
      exact absurd rfl hb
    | cons w rest =>
      obtain rfl := Option.some.inj h
      exact absurd rfl hb

/-- The consumer writes no spill block. -/
theorem popStep_spills {q : Queue} {entry : LoggerMessage} {pc : PopPc} {e : PopEffect}
    (h : popStep g q entry pc = some e) : e.queue.spills = q.spills := by
  cases pc with
  | idle => cases h
  | returned out => cases h
  | drainHead out max =>
    rw [popStep] at h
    split_ifs at h <;> obtain rfl := Option.some.inj h <;> rfl
  | loadPos out max dst =>
    obtain rfl := Option.some.inj h
    rfl
  | loadSeq out max dst pos =>
    rw [popStep] at h
    split_ifs at h <;> obtain rfl := Option.some.inj h <;> rfl
  | readSpill out max dst pos =>
    obtain rfl := Option.some.inj h
    rfl
  -- the fields are read, and then the bit of the block is cleared
  | unpack out max dst pos spill rest =>
    cases rest with
    | nil =>
      obtain rfl := Option.some.inj h
      cases spill <;> rfl
    | cons read rest =>
      obtain rfl := Option.some.inj h
      rfl
  | storeSeq out max dst pos =>
    obtain rfl := Option.some.inj h
    rfl
  | storePos out max dst pos =>
    obtain rfl := Option.some.inj h
    rfl

section Delivery

variable [DecidableEq ι]

end Delivery

/-- A message whose text does not fit into a slot. -/
def longMessage : LoggerMessage :=
  { LoggerMessage.zero with textLen := 513, text := fun i => if i < 513 then 97 else 0 }

/-- A message that does. -/
def shortMessage : LoggerMessage :=
  { LoggerMessage.zero with textLen := 2, text := fun i => if i < 2 then 98 else 0 }

/-- Steps of one push, whose compare-and-swaps do not fail spuriously. -/
def pushSteps (i : Bool) (n : ℕ) : List (QueueAction Bool) := List.replicate n (.push i ⟨0, false⟩)

/-- The first producer has pushed a long record, which the consumer has popped, and has reserved
position 1 for a short one, which it does not publish. -/
def gapRun : List (QueueAction Bool) :=
  .callPush false longMessage :: pushSteps false 24 ++ .returnPush false ::
    .callTryPop .zero :: List.replicate 20 (.pop .zero) ++ .returnPop ::
      .callPush false shortMessage :: pushSteps false 10

/-- The layout of the smallest queue on a 64-bit platform. -/
theorem loggerQueueInit_two :
    loggerQueueInit ⟨64, 1152, 4096⟩ 2 = some ⟨2, 1, 2, 10496⟩ := by decide

theorem queueReachable_of_exec {s : QueueSys Bool} {l : List (QueueAction Bool)}
    (h : TransitionSystem.exec (queueNext (QueueLayout.geometry loggerQueueInit_two false))
      (.init Bool) l = some s) :
    QueueReachable (QueueLayout.geometry loggerQueueInit_two false) s :=
  TransitionSystem.reachable_of_exec (fun _ _ _ _ _ _ _ => trivial) h

section InUse

/-- Counting the entries of a list that satisfy `p` is counting their positions. -/
theorem countP_eq_card_filter {α : Type*} (l : List α) (p : α → Bool) :
    l.countP p = ((Finset.range l.length).filter fun k => (l[k]?).any p = true).card := by
  induction l using List.reverseRecOn with
  | nil => simp
  | append_singleton l a ih =>
    have hold : ((Finset.range l.length).filter fun k => ((l ++ [a])[k]?).any p = true) =
        (Finset.range l.length).filter fun k => (l[k]?).any p = true := by
      refine Finset.filter_congr fun k hk => ?_
      rw [List.getElem?_append_left (Finset.mem_range.mp hk)]
    rw [List.countP_append, ih, List.length_append, List.length_singleton, Finset.range_add_one,
      Finset.filter_insert, hold]
    cases hp : p a <;> simp [hp]

/-- The masked bitmap has exactly the bits of the blocks that exist. -/
theorem bitAt_masked (g : QueueGeometry) (used : ℕ → BitVec 32) (b : ℕ) :
    BitWords.bitAt (fun word => used word &&& g.spillValidMask word) b = true ↔
      BitWords.bitAt used b = true ∧ b < g.spillCap := by
  have hb : b / 32 * 32 + b % 32 = b := by rw [Nat.mul_comm, Nat.div_add_mod]
  rw [BitWords.bitAt, BitVec.getLsbD_and, Bool.and_eq_true,
    g.getLsbD_spillValidMask (Nat.mod_lt _ (by decide)), hb]
  rfl

/-- `logger_queue_spill_in_use` counts the bits set. -/
theorem loggerQueueSpillInUse_eq_card (g : QueueGeometry) (q : Queue) :
    loggerQueueSpillInUse g q =
      ((Finset.range g.spillCap).filter fun b => BitWords.bitAt q.spillUsed b = true).card := by
  have hle : g.spillCap ≤ g.spillWords * 32 := by
    unfold QueueGeometry.spillWords loggerQueueSpillWordBits
    omega
  have hsum : ((List.range g.spillWords).map fun word =>
      (q.spillUsed word &&& g.spillValidMask word).cpop.toNat).sum =
      ((Finset.range g.spillCap).filter fun b => BitWords.bitAt q.spillUsed b = true).card := by
    have hcount := BitWords.sum_cpop_eq_count
      (fun word => q.spillUsed word &&& g.spillValidMask word) g.spillWords
    rw [Nat.count_eq_card_filter_range] at hcount
    refine Eq.trans (by rfl) (hcount.trans (congrArg Finset.card ?_))
    ext b
    simp only [Finset.mem_filter, Finset.mem_range, bitAt_masked]
    constructor
    · rintro ⟨-, hb, hlt⟩
      exact ⟨hlt, hb⟩
    · rintro ⟨hlt, hb⟩
      exact ⟨by omega, hb, hlt⟩
  have hcard := Finset.card_filter_le (Finset.range g.spillCap)
    fun b => BitWords.bitAt q.spillUsed b = true
  rw [Finset.card_range] at hcard
  rw [loggerQueueSpillInUse, hsum, if_pos hcard]

/-- No push and no pop is in progress. -/
def QueueSys.AtRest (s : QueueSys ι) : Prop := (∀ i, s.push i = .idle) ∧ s.pop = .idle

/-- At rest every queued record is published, with a block exactly when its text is long. -/
theorem QueueInv.published_of_atRest (h : QueueInv g s) (hrest : s.AtRest) {p : ℕ}
    (hp : s.q.dequeuePos ≤ p) (hlt : p < s.q.enqueuePos) :
    s.Published g p ∧ ∃ r, s.reserved[p]? = some r ∧
      ((s.record g p).spillIndex = none ↔
        loggerRecordTextLength r.message ≤ loggerQueueInlineText) := by
  have hhead : s.head = s.q.dequeuePos := by rw [QueueSys.head, hrest.2]; rfl
  have hpub : s.Published g p := by
    rcases h.pos.live p (hhead ▸ hp) hlt with ⟨i, hi⟩ | hseq
    · rw [hrest.1 i] at hi
      cases hi
    · exact ⟨hhead ▸ hp, hlt, hseq⟩
  obtain ⟨r, spill, old, hr, hvalid, hpack⟩ := h.records.published p hpub
  refine ⟨hpub, r, hr, ?_⟩
  rw [hpack, queueRecordPack_spillIndex]
  exact hvalid.2

/-- At rest only published slots own blocks. -/
theorem QueueInv.bitAt_of_atRest (h : QueueInv g s) (hrest : s.AtRest) (b : ℕ) :
    BitWords.bitAt s.q.spillUsed b = true ↔
      ∃ p, s.Published g p ∧ (s.record g p).spillIndex = some b := by
  rw [h.spill.exclusive.used_iff]
  constructor
  · rintro ⟨i | p | -, ho⟩
    · rw [QueueSys.Owns, hrest.1 i] at ho
      cases ho
    · exact ⟨p, ho.1, ho.2.1⟩
    · obtain ⟨p, hp, -⟩ := ho
      rw [hrest.2] at hp
      cases hp
  · rintro ⟨p, hp, hb⟩
    exact ⟨.slot p, hp, hb, by rw [hrest.2]; exact (by rintro ⟨⟩)⟩

/-- At rest a queued record with a long text has a block. -/
theorem QueueInv.block_of_long (h : QueueInv g s) (hrest : s.AtRest) {k : ℕ}
    (hk : k ∈ (Finset.range (s.q.enqueuePos - s.q.dequeuePos)).filter fun k =>
      ((s.reserved.drop s.q.dequeuePos)[k]?).any
        (fun r => loggerQueueInlineText < loggerRecordTextLength r.message) = true) :
    ∃ b, s.Published g (s.q.dequeuePos + k) ∧
      (s.record g (s.q.dequeuePos + k)).spillIndex = some b := by
  rw [Finset.mem_filter, Finset.mem_range, List.getElem?_drop] at hk
  obtain ⟨hk, hlong⟩ := hk
  obtain ⟨hpub, r, hr, hiff⟩ :=
    h.published_of_atRest hrest (p := s.q.dequeuePos + k) (by omega) (by omega)
  rw [hr, Option.any_some, decide_eq_true_eq] at hlong
  have hne : (s.record g (s.q.dequeuePos + k)).spillIndex ≠ none := fun hnone => by
    have := hiff.mp hnone
    omega
  obtain ⟨b, hb⟩ := Option.ne_none_iff_exists'.mp hne
  exact ⟨b, hpub, hb⟩

/-- At rest the blocks in use are one for each queued record with a long text. -/
theorem QueueInv.spillInUse_of_atRest (h : QueueInv g s) (hrest : s.AtRest) :
    loggerQueueSpillInUse g s.q = (s.reserved.drop s.q.dequeuePos).countP
      -- no producer holds a position, so the head is the stored one
      fun r => loggerQueueInlineText < loggerRecordTextLength r.message := by
  have hhead : s.head = s.q.dequeuePos := by rw [QueueSys.head, hrest.2]; rfl
  have hlen : (s.reserved.drop s.q.dequeuePos).length = s.q.enqueuePos - s.q.dequeuePos := by
    rw [List.length_drop, h.pos.reserved_length]
  rw [loggerQueueSpillInUse_eq_card, countP_eq_card_filter, hlen]
  -- Send a queued long record to the block its slot names.
  symm
  refine Finset.card_bij
    (fun k _ => ((s.record g (s.q.dequeuePos + k)).spillIndex).getD 0) ?_ ?_ ?_
  · intro k hk
    obtain ⟨b, hpub, hb⟩ := h.block_of_long hrest hk
    have hbit := (h.bitAt_of_atRest hrest b).mpr ⟨_, hpub, hb⟩
    rw [hb, Finset.mem_filter, Finset.mem_range]
    exact ⟨h.spill.bound b hbit, hbit⟩
  · intro k hk k' hk' heq
    obtain ⟨b, hpub, hb⟩ := h.block_of_long hrest hk
    obtain ⟨b', hpub', hb'⟩ := h.block_of_long hrest hk'
    rw [hb, hb', Option.getD_some, Option.getD_some] at heq
    subst heq
    have hnone : ∀ p, s.pop.claimed ≠ some p := fun p => by rw [hrest.2]; exact (by rintro ⟨⟩)
    have := h.spill.exclusive.unique b (.slot _) (.slot _) ⟨hpub, hb, hnone _⟩ ⟨hpub', hb', hnone _⟩
    have := SpillOwner.slot.inj this
    omega
  -- a bit that is set is named by the slot of a queued record
  · intro b hb
    obtain ⟨p, hpub, hp⟩ := (h.bitAt_of_atRest hrest b).mp (Finset.mem_filter.mp hb).2
    have hge : s.q.dequeuePos ≤ p := hhead ▸ hpub.1
    have hlt := hpub.2.1
    have hsub : s.q.dequeuePos + (p - s.q.dequeuePos) = p := by omega
    refine ⟨p - s.q.dequeuePos, ?_, by rw [hsub, hp, Option.getD_some]⟩
    obtain ⟨-, r, hr, hiff⟩ := h.published_of_atRest hrest hge hlt
    rw [Finset.mem_filter, Finset.mem_range, List.getElem?_drop, hsub, hr]
    refine ⟨by omega, ?_⟩
    rw [hp] at hiff
    simpa using hiff

end InUse

/-- A push keeps the block it took until it returns, and clears its bit when it returns 0. -/
theorem pushStep_block {c : PushChoice} {q : Queue} {pc : PushPc} {e : PushEffect} {b : ℕ}
    (h : pushStep g q c pc = some e) (hb : pc.block = some b) :
    e.pc.block = some b ∨ e.pc = .returned true ∨
      (e.pc = .returned false ∧ e.queue = q.clearSpill b) := by
  cases pc with
  -- a call that has not taken a block has none to keep
  | idle => cases hb
  | returned published => cases hb
  | enter m => cases hb
  | spillLoad m start n => cases hb
  | spillCas m start n used => cases hb
  | spillFull m => cases hb
  -- the block goes with the call until it returns
  | spillCopy m index =>
    obtain rfl := Option.some.inj h
    exact .inl hb
  | loadPos m spill =>
    obtain rfl := Option.some.inj h
    exact .inl hb
  | loadSeq m spill pos =>
    rw [pushStep] at h
    split at h <;> obtain rfl := Option.some.inj h <;> exact .inl hb
  | casPos m spill pos =>
    rw [pushStep] at h
    split_ifs at h <;> obtain rfl := Option.some.inj h <;> exact .inl hb
  | pack m spill pos rest =>
    cases rest with
    | nil =>
      obtain rfl := Option.some.inj h
      exact .inr (.inl rfl)
    | cons w rest =>
      obtain rfl := Option.some.inj h
      exact .inl hb
  -- the only step that clears the bit
  | giveBack m spill =>
    obtain rfl : spill = some b := hb
    obtain rfl := Option.some.inj h
    exact .inr (.inr ⟨rfl, rfl⟩)

section Spill

variable [DecidableEq ι]

theorem applyPush_push (s : QueueSys ι) (i : ι) (e : PushEffect) :
    (s.applyPush i e).push i = e.pc := Function.update_self _ _ _

/-- What the queue guarantees about its spill blocks. -/
structure SpillSafety (g : QueueGeometry) (s : QueueSys ι) : Prop where
  /-- A bit is set exactly when its block has exactly one owner: a push that has not published or
  given back, a published slot that names the block, or the consumer until it clears the bit. -/
  owned : ∀ b, BitWords.bitAt s.q.spillUsed b = true ↔ ∃! o, s.Owns g o b
  /-- A clear bit's block has no owner at all. -/
  unowned : ∀ b, BitWords.bitAt s.q.spillUsed b = false → ∀ o, ¬s.Owns g o b
  /-- No bit at or above `spill_cap` is set. -/
  bound : ∀ b, BitWords.bitAt s.q.spillUsed b = true → b < g.spillCap
  /-- Only a push that is copying its text writes a block. -/
  writer : ∀ a s' b, queueNext g s a = some s' → s'.q.spills b ≠ s.q.spills b →
    ∃ i c m, a = .push i c ∧ s.push i = .spillCopy m b
  /-- While a push writes a block, no slot names it and the consumer does not read it. -/
  write_exclusive : ∀ i m b, s.push i = .spillCopy m b →
    (∀ p, ¬s.Owns g (.slot p) b) ∧ ¬s.Owns g .consumer b
  /-- The text unpacked for a long record is the text its producer stored. -/
  text : ∀ (p : ℕ) (dst : LoggerMessage) (r : Reservation ι),
    s.popped[p]? = some dst → s.reserved[p]? = some r →
    loggerQueueInlineText < loggerRecordTextLength r.message →
      dst.content.text = (List.range (loggerRecordTextLength r.message)).map r.message.text
  /-- A push that has taken a block keeps it until it returns. -/
  kept : ∀ i c s' b, queueNext g s (.push i c) = some s' → (s.push i).block = some b →
    (s'.push i).block = some b ∨ ∃ published, s'.push i = .returned published
  /-- A push that returns 0 clears the bit of its block. -/
  returned_zero : ∀ i c s' b, queueNext g s (.push i c) = some s' → (s.push i).block = some b →
    s'.push i = .returned false → BitWords.bitAt s'.q.spillUsed b = false
  /-- With no call in progress the blocks in use are one for each queued record whose text is
  longer than `LOGGER_QUEUE_INLINE_TEXT`. -/
  in_use : s.AtRest → loggerQueueSpillInUse g s.q = (s.reserved.drop s.q.dequeuePos).countP
    fun r => loggerQueueInlineText < loggerRecordTextLength r.message

/-- In every reachable state, for every capacity, every set of producers and every interleaving,
the spill blocks are owned exclusively and hold the text that was stored in them. -/
theorem queue_spill_safety {P : Platform} {requested : ℕ} {l : QueueLayout}
    (h : loggerQueueInit P requested = some l) (wraps : Bool)
    (hs : QueueReachable (l.geometry h wraps) s) : SpillSafety (l.geometry h wraps) s := by
  have hinv := hs.inv
  have hexcl := hinv.spill.exclusive
  refine ⟨hexcl.used_iff_existsUnique, ?_, hinv.spill.bound, ?_, ?_, ?_, ?_, ?_,
    hinv.spillInUse_of_atRest⟩
  -- a clear bit has no owner
  · intro b hb o ho
    have := (hexcl.used_iff b).mpr ⟨o, ho⟩
    rw [hb] at this
    cases this
  -- only the copy of a push writes a block
  · intro a s' b hnext hb
    cases a with
    | push i c =>
      obtain ⟨e, hstep, rfl⟩ := Option.map_eq_some_iff.mp hnext
      obtain ⟨m, hm⟩ := pushStep_spills hstep hb
      exact ⟨i, c, m, rfl, hm⟩
    | pop entry =>
      obtain ⟨e, hstep, rfl⟩ := Option.map_eq_some_iff.mp hnext
      exact absurd (congrFun (popStep_spills hstep) b) hb
    | callPush i m =>
      rw [queueNext] at hnext
      split at hnext <;> cases hnext
      exact absurd rfl hb
    | returnPush i =>
      rw [queueNext] at hnext
      split at hnext <;> cases hnext
      exact absurd rfl hb
    | callTryPop dst =>
      rw [queueNext] at hnext
      split at hnext <;> cases hnext
      exact absurd rfl hb
    | callDrain max =>
      rw [queueNext] at hnext
      split at hnext <;> cases hnext
      exact absurd rfl hb
    | returnPop =>
      rw [queueNext] at hnext
      split at hnext <;> cases hnext
      exact absurd rfl hb
  -- a block that is being written is nobody else's
  · intro i m b hpc
    have hown : s.Owns (l.geometry h wraps) (.producer i) b := by rw [QueueSys.Owns, hpc]; rfl
    refine ⟨fun p hp => ?_, fun hc => ?_⟩
    · cases hexcl.unique b _ _ hp hown
    · cases hexcl.unique b _ _ hc hown
  -- a popped record is the one reserved at its position
  · intro p dst r hp hr _
    obtain ⟨r', hr', hcontent⟩ := hinv.pop.popped p dst hp
    rw [hr] at hr'
    obtain rfl := Option.some.inj hr'
    rw [hcontent]
    rfl
  -- a block taken is kept until the call returns
  · intro i c s' b hnext hb
    obtain ⟨e, hstep, rfl⟩ := Option.map_eq_some_iff.mp hnext
    rw [applyPush_push]
    rcases pushStep_block hstep hb with hkeep | hret | ⟨hret, -⟩
    · exact .inl hkeep
    · exact .inr ⟨true, hret⟩
    · exact .inr ⟨false, hret⟩
  -- a call that returns 0 has given its block back
  · intro i c s' b hnext hb hzero
    obtain ⟨e, hstep, rfl⟩ := Option.map_eq_some_iff.mp hnext
    rw [applyPush_push] at hzero
    rcases pushStep_block hstep hb with hkeep | hret | ⟨-, hq⟩
    · rw [hzero] at hkeep
      cases hkeep
    · rw [hzero] at hret
      cases hret
    · rw [QueueSys.applyPush, hq, ← Bool.not_eq_true]
      intro hbit
      exact ((BitWords.bitAt_clearBit (by decide) _ b b).mp hbit).1 rfl

/-- The second producer takes the block that the consumer has given back, and copies its text. -/
def retakenRun : List (QueueAction Bool) :=
  gapRun ++ .callPush true longMessage :: pushSteps true 3

theorem queue_spill_safety_retaken : ∃ s : QueueSys Bool, s.popped.length = 1 ∧
    (s.push false).held = some 1 ∧ (s.push true).block = some 0 ∧
      SpillSafety (QueueLayout.geometry loggerQueueInit_two false) s := by
  have hrun : ((TransitionSystem.exec (queueNext (QueueLayout.geometry loggerQueueInit_two false))
      (.init Bool) retakenRun).map fun s =>
        (s.popped.length, (s.push false).held, (s.push true).block)) =
        some (1, some 1, some 0) := by decide +kernel
  obtain ⟨s, hexec, hstate⟩ := Option.map_eq_some_iff.mp hrun
  simp only [Prod.mk.injEq] at hstate
  obtain ⟨hpopped, hheld, hblock⟩ := hstate
  exact ⟨s, hpopped, hheld, hblock,
    queue_spill_safety loggerQueueInit_two false (queueReachable_of_exec hexec)⟩

end Spill

end CLogger
