import CLogger.Queue.Correctness

/-!
# The queue as a bounded list

Complete calls of `logger_queue_push`, `logger_queue_try_pop` and `logger_queue_drain`, one after
the other, starting at any value of the position counters. `Queue.Holds g q msgs` says that the
slots, the counters and the spill bitmap of `q` represent the list `msgs`; every call is then an
operation on that list: a push appends when the list and the long-message pool have room, a pop
takes the head.

Nobody waits on the queue while the calls follow one another, so the wake-up after a publication
returns 0 and `logger_queue_push` returns 1 exactly when it reaches `returned true`.
-/

namespace CLogger

open WrapCounter Ownership

/-- The queue of `logger_queue_init` with its counters moved to position `p`: slot `i` is free for
the position of the window that starts at `p` which it belongs to. -/
def Queue.initAt (g : QueueGeometry) (p : ℕ) : Queue :=
  { Queue.init with
    slots := fun i => ⟨p + (i + g.cap - p % g.cap) % g.cap, .zero⟩
    enqueuePos := p
    dequeuePos := p }

/-- `logger_queue_empty`. -/
def loggerQueueEmpty (g : QueueGeometry) (q : Queue) : Bool :=
  decide (g.width.wrap (q.slots (g.slotIndex q.dequeuePos)).seq ≠ g.width.wrap (q.dequeuePos + 1))

/-- The difference of two stored counters. -/
def counterSub : Width → ℕ → ℕ → ℕ
  | .unbounded, a, b => a - b
  | .bits w, a, b => wordSub w a b

/-- `logger_queue_depth`. -/
def loggerQueueDepth (g : QueueGeometry) (q : Queue) : ℕ :=
  let depth := counterSub g.width (g.width.wrap q.enqueuePos) (g.width.wrap q.dequeuePos)
  if depth < g.cap then depth else g.cap

section Calls

variable (g : QueueGeometry)

/-- A push that runs alone, step `k` taking the choice `cs k`. A call that has returned stays. -/
def pushTrace (cs : ℕ → PushChoice) (q : Queue) (pc : PushPc) : ℕ → Queue × PushPc
  | 0 => (q, pc)
  | k + 1 =>
    let cur := pushTrace cs q pc k
    match pushStep g cur.1 (cs k) cur.2 with
    | some e => (e.queue, e.pc)
    | none => cur

/-- `logger_queue_push` called on `q` with `m` returns `r` and leaves `q'`. -/
def PushCall (q : Queue) (m : LoggerMessage) (cs : ℕ → PushChoice) (q' : Queue) (r : Bool) : Prop :=
  ∃ k, pushTrace g cs q (.enter m) k = (q', .returned r)

/-- A consumer that runs alone, step `k` finding `entries k` in the batch entry it would fill. -/
def popTrace (entries : ℕ → LoggerMessage) (q : Queue) (pc : PopPc) : ℕ → Queue × PopPc
  | 0 => (q, pc)
  | k + 1 =>
    let cur := popTrace entries q pc k
    match popStep g cur.1 (entries k) cur.2 with
    | some e => (e.queue, e.pc)
    | none => cur

/-- `logger_queue_try_pop` (`max = none`, into an entry that holds `dst`) or `logger_queue_drain`
with bound `max`. -/
def popEntry (dst : LoggerMessage) : Option ℕ → PopPc
  | none => .loadPos [] none dst
  | some max => .drainHead [] max

/-- A call of the consumer on `q` returns the records `out` and leaves `q'`. -/
def PopCall (q : Queue) (dst : LoggerMessage) (max : Option ℕ) (entries : ℕ → LoggerMessage)
    (q' : Queue) (out : List LoggerMessage) : Prop :=
  ∃ k, popTrace g entries q (popEntry dst max) k = (q', .returned out)

/-- The states after any sequence of complete calls from position `p`, with the list of the records
that were accepted and not yet returned. -/
inductive SequentialRun (p : ℕ) : List LoggerMessage → Queue → Prop where
  | start : SequentialRun p [] (.initAt g p)
  | push {msgs : List LoggerMessage} {q q' : Queue} {m : LoggerMessage} {cs : ℕ → PushChoice}
      {r : Bool} (hrun : SequentialRun p msgs q) (hcall : PushCall g q m cs q' r) :
      SequentialRun p (if r then msgs ++ [m] else msgs) q'
  | pop {msgs : List LoggerMessage} {q q' : Queue} {dst : LoggerMessage} {max : Option ℕ}
      {entries : ℕ → LoggerMessage} {out : List LoggerMessage} (hrun : SequentialRun p msgs q)
      (hcall : PopCall g q dst max entries q' out) : SequentialRun p (msgs.drop out.length) q'

end Calls

section Representation

variable {g : QueueGeometry} {q q' : Queue} {msgs : List LoggerMessage}

/-- The slot of position `p` holds the message `m`, published. -/
structure Queue.Stores (g : QueueGeometry) (q : Queue) (p : ℕ) (m : LoggerMessage) : Prop where
  seq : (q.slots (p % g.cap)).seq = p + 1
  packed : ∃ old spill, FrameValid m spill ∧
    (q.slots (p % g.cap)).record = queueRecordPack old m (loggerRecordTextLength m) spill
  block : ∀ b, (q.slots (p % g.cap)).record.spillIndex = some b →
    ∀ k ≤ loggerRecordTextLength m, q.spills b k = m.text k

/-- The published slot of position `p` names the spill block `b`. -/
def Queue.SlotOwns (g : QueueGeometry) (q : Queue) (p b : ℕ) : Prop :=
  q.dequeuePos ≤ p ∧ p < q.enqueuePos ∧ (q.slots (p % g.cap)).record.spillIndex = some b

/-- The queue represents the list `msgs`, oldest first. -/
structure Queue.Holds (g : QueueGeometry) (q : Queue) (msgs : List LoggerMessage) : Prop where
  enqueuePos_eq : q.enqueuePos = q.dequeuePos + msgs.length
  length_le : msgs.length ≤ g.cap
  free : ∀ p, q.enqueuePos ≤ p → p < q.dequeuePos + g.cap → (q.slots (p % g.cap)).seq = p
  stored : ∀ k m, msgs[k]? = some m → q.Stores g (q.dequeuePos + k) m
  exclusive : Exclusive (fun b => BitWords.bitAt q.spillUsed b = true) (q.SlotOwns g)
  bound : ∀ b, BitWords.bitAt q.spillUsed b = true → b < g.spillCap

/-- The message text is too long for the slot. -/
def LoggerMessage.isLong (m : LoggerMessage) : Bool :=
  decide (loggerQueueInlineText < loggerRecordTextLength m)

/-- A freshly positioned queue is empty. -/
theorem Queue.Holds.initAt (g : QueueGeometry) (p : ℕ) : (Queue.initAt g p).Holds g [] where
  enqueuePos_eq := rfl
  length_le := Nat.zero_le _
  free p' hge hlt := by
    obtain ⟨d, rfl⟩ : ∃ d, p' = p + d := Nat.exists_eq_add_of_le hge
    have hd : d < g.cap := by simpa [Queue.initAt] using hlt
    have hmod := Nat.mod_lt p (show 0 < g.cap by omega)
    show p + ((p + d) % g.cap + g.cap - p % g.cap) % g.cap = p + d
    congr 1
    rw [Nat.add_mod, Nat.mod_eq_of_lt hd]
    by_cases hcarry : p % g.cap + d < g.cap
    · rw [Nat.mod_eq_of_lt hcarry, show p % g.cap + d + g.cap - p % g.cap = d + g.cap by omega,
        Nat.add_mod_right, Nat.mod_eq_of_lt hd]
    · have hwrap : (p % g.cap + d) % g.cap = p % g.cap + d - g.cap := by
        rw [Nat.mod_eq_sub_mod (by omega), Nat.mod_eq_of_lt (by omega)]
      rw [hwrap, show p % g.cap + d - g.cap + g.cap - p % g.cap = d by omega, Nat.mod_eq_of_lt hd]
  stored k m hk := by simp at hk
  exclusive := by
    refine ⟨fun b => ?_, fun b o o' ho => ?_⟩
    · simp only [Queue.SlotOwns, Queue.initAt, Queue.init, BitWords.bitAt, BitVec.getLsbD_zero,
        Bool.false_eq_true, false_iff, not_exists]
      intro p' hp'
      omega
    · have h1 : p ≤ o := ho.1
      have h2 : o < p := ho.2.1
      omega
  bound b hb := by simp [Queue.initAt, Queue.init, BitWords.bitAt] at hb

/-- A queued record names a block exactly when its text is long. -/
theorem Queue.Stores.spillIndex_eq_none {p : ℕ} {m : LoggerMessage} (h : q.Stores g p m) :
    (q.slots (p % g.cap)).record.spillIndex = none ↔ m.isLong = false := by
  obtain ⟨old, spill, hvalid, hpack⟩ := h.packed
  rw [hpack, queueRecordPack_spillIndex, hvalid.2, LoggerMessage.isLong, decide_eq_false_iff_not,
    not_lt]

/-- A queued record with a long text names a block. -/
theorem Queue.Holds.block_of_long (h : q.Holds g msgs) {k : ℕ}
    (hk : (msgs[k]?).any LoggerMessage.isLong = true) :
    ∃ b, q.SlotOwns g (q.dequeuePos + k) b := by
  cases hget : msgs[k]? with
  | none => simp [hget] at hk
  | some m =>
    rw [hget, Option.any_some] at hk
    have hlt := (List.getElem?_eq_some_iff.mp hget).1
    have hne : (q.slots ((q.dequeuePos + k) % g.cap)).record.spillIndex ≠ none := by
      rw [ne_eq, (h.stored k m hget).spillIndex_eq_none, hk]
      decide
    obtain ⟨b, hb⟩ := Option.ne_none_iff_exists'.mp hne
    have henq := h.enqueuePos_eq
    exact ⟨b, by omega, by omega, hb⟩

/-- The blocks in use are one for each queued record with a long text. -/
theorem Queue.Holds.spillInUse_eq (h : q.Holds g msgs) :
    loggerQueueSpillInUse g q = msgs.countP LoggerMessage.isLong := by
  rw [loggerQueueSpillInUse_eq_card, countP_eq_card_filter]
  have henq := h.enqueuePos_eq
  have hmem : ∀ {k}, k ∈ (Finset.range msgs.length).filter
      (fun k => (msgs[k]?).any LoggerMessage.isLong = true) →
      ∃ b, q.SlotOwns g (q.dequeuePos + k) b :=
    fun hk => h.block_of_long (Finset.mem_filter.mp hk).2
  -- Send a queued long record to the block its slot names.
  symm
  refine Finset.card_bij
    (fun k _ => ((q.slots ((q.dequeuePos + k) % g.cap)).record.spillIndex).getD 0) ?_ ?_ ?_
  -- its block has its bit set
  · intro k hk
    obtain ⟨b, hb⟩ := hmem hk
    have hbit := (h.exclusive.used_iff b).mpr ⟨_, hb⟩
    rw [hb.2.2, Finset.mem_filter, Finset.mem_range]
    exact ⟨h.bound b hbit, hbit⟩
  -- by exclusivity two records do not name one block
  · intro k hk k' hk' heq
    obtain ⟨b, hb⟩ := hmem hk
    obtain ⟨b', hb'⟩ := hmem hk'
    rw [hb.2.2, hb'.2.2, Option.getD_some, Option.getD_some] at heq
    subst heq
    have := h.exclusive.unique b _ _ hb hb'
    omega
  -- every bit that is set belongs to a queued record
  · intro b hb
    obtain ⟨p, hge, hlt, hp⟩ := (h.exclusive.used_iff b).mp (Finset.mem_filter.mp hb).2
    obtain ⟨k, rfl⟩ : ∃ k, p = q.dequeuePos + k := Nat.exists_eq_add_of_le hge
    have hk : k < msgs.length := by omega
    refine ⟨k, ?_, by rw [hp, Option.getD_some]⟩
    have hget : msgs[k]? = some msgs[k] := List.getElem?_eq_getElem hk
    have hiff := (h.stored k _ hget).spillIndex_eq_none
    rw [hp] at hiff
    rw [Finset.mem_filter, Finset.mem_range, hget]
    exact ⟨hk, by simpa using hiff⟩

/-- Some block is free exactly when fewer long records are queued than there are blocks. -/
theorem Queue.Holds.exists_free_block (h : q.Holds g msgs) :
    (∃ b < g.spillCap, BitWords.bitAt q.spillUsed b = false) ↔
      msgs.countP LoggerMessage.isLong < g.spillCap := by
  rw [← h.spillInUse_eq, loggerQueueSpillInUse_eq_card]
  constructor
  · rintro ⟨b, hb, hclear⟩
    have hss : (Finset.range g.spillCap).filter (fun b => BitWords.bitAt q.spillUsed b = true) ⊂
        Finset.range g.spillCap :=
      Finset.filter_ssubset.mpr ⟨b, Finset.mem_range.mpr hb, by simp [hclear]⟩
    simpa using Finset.card_lt_card hss
  · intro hlt
    by_contra hnone
    push Not at hnone
    have hall : (Finset.range g.spillCap).filter (fun b => BitWords.bitAt q.spillUsed b = true) =
        Finset.range g.spillCap := by
      refine Finset.filter_true_of_mem fun b hb => ?_
      simpa using hnone b (Finset.mem_range.mp hb)
    rw [hall, Finset.card_range] at hlt
    exact lt_irrefl _ hlt

/-- `logger_queue_depth` is the length of the list. -/
theorem Queue.Holds.depth_eq (h : q.Holds g msgs) : loggerQueueDepth g q = msgs.length := by
  have henq := h.enqueuePos_eq
  have hle := h.length_le
  have hsub : counterSub g.width (g.width.wrap q.enqueuePos) (g.width.wrap q.dequeuePos) =
      msgs.length := by
    have hfits := g.cap_fits
    cases hw : g.width with
    | unbounded => simp only [counterSub, Width.wrap]; omega
    | bits w =>
      rw [hw] at hfits
      simp only [Width.Fits] at hfits
      have hpos := Nat.two_pow_pos w
      rw [counterSub, Width.wrap, Width.wrap, wordSub_mod_of_le (by omega) (by omega)]
      omega
  rw [loggerQueueDepth, hsub]
  split <;> omega

/-- `logger_queue_empty` and the test of `logger_queue_try_pop`: the slot at `dequeue_pos` is
published exactly when the list is not empty. -/
theorem Queue.Holds.head_published (h : q.Holds g msgs) :
    g.width.wrap (q.slots (g.slotIndex q.dequeuePos)).seq = g.width.wrap (q.dequeuePos + 1) ↔
      msgs ≠ [] := by
  rw [g.slotIndex_eq]
  have hcap := g.two_le_cap
  cases msgs with
  | nil =>
    have henq : q.enqueuePos = q.dequeuePos := h.enqueuePos_eq
    rw [h.free q.dequeuePos henq.le (by omega),
      wrap_inj_of_close (g.close_of_le (by omega) (by omega))]
    simp
  | cons m rest =>
    have hseq := (h.stored 0 m rfl).seq
    rw [Nat.add_zero] at hseq
    simp [hseq]

/-- `logger_queue_empty` is emptiness of the list. -/
theorem Queue.Holds.empty_eq (h : q.Holds g msgs) : loggerQueueEmpty g q = msgs.isEmpty := by
  rw [loggerQueueEmpty, Bool.eq_iff_iff, decide_eq_true_eq, ne_eq, h.head_published]
  simp

end Representation

section Push

variable {g : QueueGeometry} {q q' : Queue} {msgs : List LoggerMessage} {m : LoggerMessage}

/-- The scan from `start` sees no free block in its first `n` words. -/
def ScannedFull (g : QueueGeometry) (q : Queue) (start n : ℕ) : Prop :=
  ∀ j < n, ~~~(q.spillUsed ((start + j) % g.spillWords)) &&&
    g.spillValidMask ((start + j) % g.spillWords) = 0#32

/-- A scan of all words, from wherever it started, misses no free block. -/
theorem ScannedFull.bitAt {start : ℕ} (h : ScannedFull g q start g.spillWords) {b : ℕ}
    (hb : b < g.spillCap) : BitWords.bitAt q.spillUsed b = true := by
  have hwords := g.spillWords_pos
  have hword : b / 32 < g.spillWords := by
    unfold QueueGeometry.spillWords loggerQueueSpillWordBits
    omega
  obtain ⟨j, hj, hvisit⟩ : ∃ j < g.spillWords, (start + j) % g.spillWords = b / 32 := by
    have hstart := Nat.mod_lt start hwords
    refine ⟨(b / 32 + (g.spillWords - start % g.spillWords)) % g.spillWords,
      Nat.mod_lt _ hwords, ?_⟩
    have hdiv := Nat.div_add_mod start g.spillWords
    rw [Nat.add_mod_mod, show start + (b / 32 + (g.spillWords - start % g.spillWords)) =
        b / 32 + g.spillWords * (start / g.spillWords + 1) by rw [Nat.mul_add]; omega,
      Nat.add_mul_mod_self_left, Nat.mod_eq_of_lt hword]
  have hzero := h j hj
  rw [hvisit] at hzero
  have hbit :
      (~~~(q.spillUsed (b / 32)) &&& g.spillValidMask (b / 32)).getLsbD (b % 32) = false := by
    rw [hzero, BitVec.getLsbD_zero]
  have hlt : b % 32 < 32 := Nat.mod_lt _ (by decide)
  have hvalid : (g.spillValidMask (b / 32)).getLsbD (b % 32) = true :=
    (g.getLsbD_spillValidMask hlt).mpr (by omega)
  rw [BitVec.getLsbD_and, hvalid, Bool.and_true, BitVec.getLsbD_not, decide_eq_true hlt,
    Bool.true_and, Bool.not_eq_false'] at hbit
  exact hbit

/-- The queue after `queue_spill_try_take` took the block `b`, before the text is copied. -/
def Queue.takeBlock (q : Queue) (b : ℕ) : Queue :=
  { q with spillUsed := BitWords.setBit q.spillUsed (b / 32) (b % 32) }

/-- The queue on which a push of `m` goes on once it has the block it needs. -/
def Queue.withBlock (q : Queue) (m : LoggerMessage) : Option ℕ → Queue
  | none => q
  | some b => { q.takeBlock b with
      spills := Function.update q.spills b
        (memcpy (q.spills b) m.text (loggerRecordTextLength m + 1)) }

/-- The queue after the whole push of `m`. -/
def Queue.pushed (g : QueueGeometry) (q : Queue) (m : LoggerMessage) (spill : Option ℕ) : Queue :=
  { q.withBlock m spill with
    enqueuePos := q.enqueuePos + 1
    slots := Function.update q.slots (q.enqueuePos % g.cap) ⟨q.enqueuePos + 1,
      queueRecordPack (q.slots (q.enqueuePos % g.cap)).record m (loggerRecordTextLength m) spill⟩ }

/-- The block a push of `m` took from `q`: one exactly when the text is long, a free one. -/
structure TookBlock (g : QueueGeometry) (q : Queue) (m : LoggerMessage) (spill : Option ℕ) :
    Prop where
  valid : FrameValid m spill
  free : ∀ b, spill = some b → BitWords.bitAt q.spillUsed b = false
  bound : ∀ b, spill = some b → b < g.spillCap

theorem Queue.bitAt_takeBlock (q : Queue) (b b' : ℕ) :
    BitWords.bitAt (q.takeBlock b).spillUsed b' = true ↔
      b' = b ∨ BitWords.bitAt q.spillUsed b' = true := by
  have hb : b / 32 * 32 + b % 32 = b := by rw [Nat.mul_comm, Nat.div_add_mod]
  rw [Queue.takeBlock, BitWords.bitAt_setBit (Nat.mod_lt _ (by decide)), hb]

@[simp]
theorem Queue.withBlock_slots (q : Queue) (m : LoggerMessage) (spill : Option ℕ) :
    (q.withBlock m spill).slots = q.slots := by
  cases spill <;> rfl

@[simp]
theorem Queue.withBlock_enqueuePos (q : Queue) (m : LoggerMessage) (spill : Option ℕ) :
    (q.withBlock m spill).enqueuePos = q.enqueuePos := by
  cases spill <;> rfl

@[simp]
theorem Queue.withBlock_dequeuePos (q : Queue) (m : LoggerMessage) (spill : Option ℕ) :
    (q.withBlock m spill).dequeuePos = q.dequeuePos := by
  cases spill <;> rfl

/-- The bits after a push took its block. -/
theorem Queue.bitAt_withBlock (q : Queue) (m : LoggerMessage) (spill : Option ℕ) (b : ℕ) :
    BitWords.bitAt (q.withBlock m spill).spillUsed b = true ↔
      spill = some b ∨ BitWords.bitAt q.spillUsed b = true := by
  cases spill with
  | none => simp [Queue.withBlock]
  | some b₀ =>
    refine (q.bitAt_takeBlock b₀ b).trans ?_
    rw [Option.some.injEq, eq_comm]

/-- The blocks in use keep their text. -/
theorem TookBlock.spills_eq {spill : Option ℕ} (h : TookBlock g q m spill) {b : ℕ}
    (hb : BitWords.bitAt q.spillUsed b = true) : (q.withBlock m spill).spills b = q.spills b := by
  cases spill with
  | none => rfl
  | some b₀ =>
    have hne : b ≠ b₀ := by
      rintro rfl
      rw [h.free b rfl] at hb
      cases hb
    exact Function.update_of_ne hne _ _

/-- The block taken holds the text. -/
theorem Queue.withBlock_text (q : Queue) (m : LoggerMessage) (b : ℕ) :
    ∀ k ≤ loggerRecordTextLength m, (q.withBlock m (some b)).spills b k = m.text k := by
  intro k hk
  simp [Queue.withBlock, memcpy, Nat.lt_succ_of_le hk]

/-- The publication of `m` appends it to the list. -/
theorem Queue.Holds.pushed (h : q.Holds g msgs) {spill : Option ℕ} (htook : TookBlock g q m spill)
    (hroom : msgs.length < g.cap) : (q.pushed g m spill).Holds g (msgs ++ [m]) := by
  have henq := h.enqueuePos_eq
  have hdeq : (q.pushed g m spill).dequeuePos = q.dequeuePos := q.withBlock_dequeuePos m spill
  have henq' : (q.pushed g m spill).enqueuePos = q.enqueuePos + 1 := rfl
  have hspills : (q.pushed g m spill).spills = (q.withBlock m spill).spills := rfl
  have hused : (q.pushed g m spill).spillUsed = (q.withBlock m spill).spillUsed := rfl
  -- Within the window only the new position uses the slot that changed.
  have hkeep : ∀ p, q.dequeuePos ≤ p → p < q.dequeuePos + g.cap → p ≠ q.enqueuePos →
      (q.pushed g m spill).slots (p % g.cap) = q.slots (p % g.cap) := by
    intro p hge hlt hne
    refine Function.update_of_ne (fun hmod => hne ?_) _ _
    exact g.eq_of_mod_eq hge (by omega) hlt (by omega) hmod
  have hself : (q.pushed g m spill).slots (q.enqueuePos % g.cap) = ⟨q.enqueuePos + 1,
      queueRecordPack (q.slots (q.enqueuePos % g.cap)).record m (loggerRecordTextLength m) spill⟩ :=
    Function.update_self _ _ _
  constructor
  -- one record more between the two positions
  · rw [hdeq, henq', henq, List.length_append]
    rfl
  · rw [List.length_append, List.length_singleton]
    omega
  -- the free positions begin one further
  · intro p hge hlt
    rw [henq'] at hge
    rw [hdeq] at hlt
    rw [hkeep p (by omega) hlt (by omega)]
    exact h.free p (by omega) hlt
  -- the stored records: the old ones, and the one that was packed
  · intro k m' hk
    rw [hdeq]
    rcases Nat.lt_or_ge k msgs.length with hold | hnew
    · rw [List.getElem?_append_left hold] at hk
      obtain ⟨hseq, hpacked, hblock⟩ := h.stored k m' hk
      have hsame := hkeep (q.dequeuePos + k) (by omega) (by omega) (by omega)
      refine ⟨by rw [hsame]; exact hseq, by rw [hsame]; exact hpacked, ?_⟩
      intro b hb
      rw [hsame] at hb
      have hbit := (h.exclusive.used_iff b).mpr ⟨_, by omega, by omega, hb⟩
      rw [hspills, htook.spills_eq hbit]
      exact hblock b hb
    · have hlt := (List.getElem?_eq_some_iff.mp hk).1
      rw [List.length_append, List.length_singleton] at hlt
      obtain rfl : k = msgs.length := by omega
      rw [List.getElem?_append_right le_rfl, Nat.sub_self, List.getElem?_cons_zero,
        Option.some.injEq] at hk
      subst hk
      rw [← henq]
      refine ⟨by rw [hself], ⟨_, spill, htook.valid, by rw [hself]⟩, ?_⟩
      intro b hb
      rw [hself, queueRecordPack_spillIndex] at hb
      subst hb
      exact q.withBlock_text m b
  · -- The new position owns the block that was taken, if any.
    have howns : ∀ p b, (q.pushed g m spill).SlotOwns g p b ↔
        (p = q.enqueuePos ∧ spill = some b) ∨ q.SlotOwns g p b := by
      intro p b
      simp only [Queue.SlotOwns, hdeq, henq']
      by_cases hp : p = q.enqueuePos
      · subst hp
        rw [hself, queueRecordPack_spillIndex]
        constructor
        · rintro ⟨-, -, hb⟩
          exact .inl ⟨rfl, hb⟩
        · rintro (⟨-, hb⟩ | ⟨-, hlt, -⟩)
          · exact ⟨by omega, by omega, hb⟩
          · omega
      · constructor
        · rintro ⟨hge, hlt, hb⟩
          rw [hkeep p hge (by omega) hp] at hb
          exact .inr ⟨hge, by omega, hb⟩
        · rintro (⟨rfl, -⟩ | ⟨hge, hlt, hb⟩)
          · exact absurd rfl hp
          · exact ⟨hge, by omega, by rw [hkeep p hge (by omega) hp]; exact hb⟩
    cases spill with
    | none => exact h.exclusive.congr (fun b => Iff.rfl) fun p b => by simpa using howns p b
    | some b₀ =>
      refine h.exclusive.acquire q.enqueuePos b₀ (by rw [htook.free b₀ rfl]; decide) ?_ ?_
      · intro b
        rw [hused, Queue.bitAt_withBlock, Option.some.injEq, eq_comm]
      · intro p b
        rw [howns, Option.some.injEq, eq_comm (a := b₀)]
  -- the blocks that are in use, the new one included
  · intro b hb
    rw [hused, Queue.bitAt_withBlock] at hb
    rcases hb with hb | hb
    · exact htook.bound b hb
    · exact h.bound b hb

/-- The queue keeps its records, its counters and its bitmap; a failed scan may be counted, and a
free block may hold other bytes. -/
structure Queue.Unchanged (q q' : Queue) : Prop where
  slots : q'.slots = q.slots
  enqueuePos : q'.enqueuePos = q.enqueuePos
  dequeuePos : q'.dequeuePos = q.dequeuePos
  spillUsed : q'.spillUsed = q.spillUsed
  spills : ∀ b, BitWords.bitAt q.spillUsed b = true → q'.spills b = q.spills b
  spillExhaustions : q.spillExhaustions ≤ q'.spillExhaustions

/-- An unchanged queue represents the same list. -/
theorem Queue.Unchanged.holds (h : q.Unchanged q') (hq : q.Holds g msgs) : q'.Holds g msgs where
  enqueuePos_eq := by rw [h.enqueuePos, h.dequeuePos, hq.enqueuePos_eq]
  length_le := hq.length_le
  free p := by rw [h.enqueuePos, h.dequeuePos, h.slots]; exact hq.free p
  stored k m hk := by
    obtain ⟨hseq, hpacked, hblock⟩ := hq.stored k m hk
    have henq := hq.enqueuePos_eq
    have hlt := (List.getElem?_eq_some_iff.mp hk).1
    refine ⟨by rw [h.slots, h.dequeuePos]; exact hseq, by rw [h.slots, h.dequeuePos]; exact hpacked,
      fun b hb => ?_⟩
    rw [h.slots, h.dequeuePos] at hb
    rw [h.spills b ((hq.exclusive.used_iff b).mpr ⟨_, by omega, by omega, hb⟩)]
    exact hblock b hb
  exclusive := hq.exclusive.congr (fun b => by rw [h.spillUsed])
    fun p b => by simp only [Queue.SlotOwns, h.slots, h.enqueuePos, h.dequeuePos]
  bound b hb := hq.bound b (by rwa [h.spillUsed] at hb)

/-- Giving the block back on a full queue undoes the push. -/
theorem TookBlock.unchanged_spillPut {spill : Option ℕ} (h : TookBlock g q m spill) :
    q.Unchanged ((q.withBlock m spill).spillPut spill) := by
  cases spill with
  | none => exact ⟨rfl, rfl, rfl, rfl, fun _ _ => rfl, le_rfl⟩
  | some b =>
    refine ⟨rfl, rfl, rfl, BitWords.clearBit_setBit (by decide) (h.free b rfl), ?_, le_rfl⟩
    exact fun b' hb' => h.spills_eq hb'

/-- The push that `logger_queue_push` has to accept: there is room in the list, the text is
terminated, and a long text finds room in the pool. -/
def PushAccepts (g : QueueGeometry) (msgs : List LoggerMessage) (m : LoggerMessage) : Prop :=
  msgs.length < g.cap ∧ (∃ k < loggerMessageMax, m.text k = 0) ∧
    (loggerRecordTextLength m ≤ loggerQueueInlineText ∨
      msgs.countP LoggerMessage.isLong < g.spillCap)

/-- A push of `m` on `q`, which holds `msgs`, at a control state: what it has done so far. -/
def PushAt (g : QueueGeometry) (q : Queue) (msgs : List LoggerMessage) (m : LoggerMessage)
    (now : Queue) : PushPc → Prop
  | .idle => False
  | .enter m' => m' = m ∧ now = q
  | .spillLoad m' start n =>
    m' = m ∧ now = q ∧ NeedsBlock m ∧ n < g.spillWords ∧ ScannedFull g q start n
  | .spillCas m' start n used =>
    m' = m ∧ now = q ∧ NeedsBlock m ∧ n < g.spillWords ∧ ScannedFull g q start n ∧
      used = q.spillUsed ((start + n) % g.spillWords) ∧
      ~~~used &&& g.spillValidMask ((start + n) % g.spillWords) ≠ 0#32
  | .spillCopy m' b => m' = m ∧ now = q.takeBlock b ∧ TookBlock g q m (some b)
  | .spillFull m' => m' = m ∧ now = q ∧ NeedsBlock m ∧ ∃ start, ScannedFull g q start g.spillWords
  | .loadPos m' spill => m' = m ∧ now = q.withBlock m spill ∧ TookBlock g q m spill
  | .loadSeq m' spill pos =>
    m' = m ∧ now = q.withBlock m spill ∧ TookBlock g q m spill ∧ pos = q.enqueuePos
  | .casPos m' spill pos =>
    m' = m ∧ now = q.withBlock m spill ∧ TookBlock g q m spill ∧ pos = q.enqueuePos ∧
      msgs.length < g.cap
  | .pack m' spill pos rest =>
    m' = m ∧ TookBlock g q m spill ∧ pos = q.enqueuePos ∧ msgs.length < g.cap ∧
      ∃ done, done ++ rest = packWrites m (loggerRecordTextLength m) spill ∧
        now = { (q.withBlock m spill).writeRecord (q.enqueuePos % g.cap) (runWrites done) with
          enqueuePos := q.enqueuePos + 1 }
  | .giveBack m' spill =>
    m' = m ∧ now = q.withBlock m spill ∧ TookBlock g q m spill ∧ msgs.length = g.cap
  | .returned true => PushAccepts g msgs m ∧ now.Holds g (msgs ++ [m])
  | .returned false => ¬PushAccepts g msgs m ∧ q.Unchanged now

/-- The text length found is below the limit exactly when the text is terminated within it. -/
theorem textLength_lt_iff (m : LoggerMessage) :
    loggerRecordTextLength m < loggerMessageMax ↔ ∃ k < loggerMessageMax, m.text k = 0 := by
  unfold loggerRecordTextLength
  split_ifs with hknown
  · exact ⟨fun _ => ⟨m.textLen, hknown.2⟩, fun _ => hknown.2.1⟩
  · exact strnlen_lt_iff _ _

/-- A full queue shows at `enqueue_pos` the oldest record, one lap behind; otherwise its slot is
free for the position. -/
theorem Queue.Holds.signedCmp_eq (h : q.Holds g msgs) :
    g.width.signedCmp (g.width.wrap (q.slots (g.slotIndex q.enqueuePos)).seq)
      (g.width.wrap q.enqueuePos) = if msgs.length < g.cap then .eq else .lt := by
  have hcap := g.two_le_cap
  have henq := h.enqueuePos_eq
  have hle := h.length_le
  rw [g.slotIndex_eq]
  split_ifs with hroom
  · rw [h.free _ le_rfl (by omega), signedCmp_wrap (g.close_of_le (by omega) (by omega))]
    exact Nat.compare_eq_eq.mpr rfl
  · obtain ⟨m, hm⟩ : ∃ m, msgs[0]? = some m := ⟨msgs[0], List.getElem?_eq_getElem (by omega)⟩
    have hseq := (h.stored 0 m hm).seq
    rw [Nat.add_zero] at hseq
    rw [show q.enqueuePos = q.dequeuePos + g.cap by omega, Nat.add_mod_right, hseq,
      signedCmp_wrap (g.close_of_le (by omega) (by omega))]
    exact Nat.compare_eq_lt.mpr (by omega)

/-- The scan goes on after a word: to the next word, to the end, or to a free bit. -/
theorem PushAt.spillNext {start n : ℕ} {used : BitVec 32} (hneeds : NeedsBlock m)
    (hn : n < g.spillWords) (hscan : ScannedFull g q start n)
    (hused : used = q.spillUsed ((start + n) % g.spillWords)) :
    PushAt g q msgs m q (spillNext g m start n used) := by
  by_cases hfull : ~~~used &&& g.spillValidMask ((start + n) % g.spillWords) = 0#32
  · have hscan' : ScannedFull g q start (n + 1) := by
      intro j hj
      rcases Nat.lt_succ_iff_lt_or_eq.mp hj with hlt | rfl
      · exact hscan j hlt
      · rw [← hused]
        exact hfull
    rw [CLogger.spillNext, if_pos hfull]
    split_ifs with hmore
    · exact ⟨rfl, rfl, hneeds, hmore, hscan'⟩
    · exact ⟨rfl, rfl, hneeds, start, by rwa [show g.spillWords = n + 1 by omega]⟩
  · rw [CLogger.spillNext, if_neg hfull]
    exact ⟨rfl, rfl, hneeds, hn, hscan, hused, hfull⟩

/-- A scan that took a free bit of its word. -/
theorem TookBlock.of_scan {start n : ℕ} {used : BitVec 32} (hneeds : NeedsBlock m)
    (hused : used = q.spillUsed ((start + n) % g.spillWords))
    (havail : ~~~used &&& g.spillValidMask ((start + n) % g.spillWords) ≠ 0#32) :
    TookBlock g q m (some ((start + n) % g.spillWords * loggerQueueSpillWordBits +
      (~~~used &&& g.spillValidMask ((start + n) % g.spillWords)).ctz.toNat)) := by
  obtain ⟨hlt, hclear, hbound⟩ := ctz_available g havail
  refine ⟨⟨hneeds.1, ?_⟩, ?_, ?_⟩
  · have := hneeds.2
    simpa using this
  · rintro b ⟨⟩
    rw [loggerQueueSpillWordBits, BitWords.bitAt, BitWords.div_mul_add hlt,
      BitWords.mod_mul_add hlt, ← hused]
    exact hclear
  · rintro b ⟨⟩
    exact hbound

/-- A refused push changes nothing, an accepted one appends: every step of a push that runs alone
leads from what it has done so far to what it has done then. -/
theorem PushAt.step (hq : q.Holds g msgs) {now : Queue} {pc : PushPc} {c : PushChoice}
    {e : PushEffect} (h : PushAt g q msgs m now pc) (hstep : pushStep g now c pc = some e) :
    PushAt g q msgs m e.queue e.pc := by
  cases pc with
  -- nothing has been done before the call
  | idle => exact h.elim
  | enter m' =>
    obtain ⟨rfl, rfl⟩ := h
    have hle := loggerRecordTextLength_le m'
    rw [pushStep] at hstep
    split_ifs at hstep with hmax hlong <;> cases hstep
    -- a text that was cut is refused
    · refine ⟨fun hacc => ?_, rfl, rfl, rfl, rfl, fun _ _ => rfl, le_rfl⟩
      have := (textLength_lt_iff m').mpr hacc.2.1
      omega
    · refine ⟨rfl, rfl, ⟨by omega, hlong⟩, g.spillWords_pos, ?_⟩
      intro j hj
      omega
    -- a short text needs no block
    · exact ⟨rfl, rfl, ⟨by omega, by simpa using hlong⟩, by rintro _ ⟨⟩, by rintro _ ⟨⟩⟩
  | spillLoad m' start n =>
    obtain ⟨rfl, rfl, hneeds, hn, hscan⟩ := h
    cases hstep
    exact PushAt.spillNext hneeds hn hscan rfl
  | spillCas m' start n used =>
    obtain ⟨rfl, rfl, hneeds, hn, hscan, hused, havail⟩ := h
    rw [pushStep] at hstep
    split_ifs at hstep with hcas <;> cases hstep
    -- the free bit is taken
    · obtain ⟨hlt, -, -⟩ := ctz_available g havail
      refine ⟨rfl, ?_, .of_scan hneeds hused havail⟩
      rw [loggerQueueSpillWordBits, Queue.takeBlock, BitWords.div_mul_add hlt,
        BitWords.mod_mul_add hlt, BitWords.setBit, hcas.1]
    · exact PushAt.spillNext hneeds hn hscan rfl
  | spillCopy m' b =>
    obtain ⟨rfl, rfl, htook⟩ := h
    cases hstep
    exact ⟨rfl, rfl, htook⟩
  -- no block was free, so a long text is not accepted
  | spillFull m' =>
    obtain ⟨rfl, rfl, hneeds, start, hscan⟩ := h
    cases hstep
    refine ⟨fun hacc => ?_, rfl, rfl, rfl, rfl, fun _ _ => rfl, Nat.le_succ _⟩
    rcases hacc.2.2 with hshort | hroom
    · have := hneeds.2
      omega
    · obtain ⟨b, hb, hclear⟩ := hq.exists_free_block.mpr hroom
      rw [hscan.bitAt hb] at hclear
      cases hclear
  | loadPos m' spill =>
    obtain ⟨rfl, rfl, htook⟩ := h
    cases hstep
    exact ⟨rfl, rfl, htook, by simp⟩
  | loadSeq m' spill pos =>
    obtain ⟨rfl, rfl, htook, rfl⟩ := h
    rw [pushStep, Queue.withBlock_slots, hq.signedCmp_eq] at hstep
    -- alone, the push finds a free slot exactly when there is room
    by_cases hroom : msgs.length < g.cap
    · rw [if_pos hroom] at hstep
      cases hstep
      exact ⟨rfl, rfl, htook, rfl, hroom⟩
    · rw [if_neg hroom] at hstep
      cases hstep
      exact ⟨rfl, rfl, htook, le_antisymm hq.length_le (not_lt.mp hroom)⟩
  | casPos m' spill pos =>
    obtain ⟨rfl, rfl, htook, rfl, hroom⟩ := h
    rw [pushStep] at hstep
    split_ifs at hstep with hcas <;> cases hstep
    · refine ⟨rfl, htook, rfl, hroom, [], rfl, ?_⟩
      simp [Queue.writeRecord, runWrites]
    · exact ⟨rfl, rfl, htook, by simp⟩
  | pack m' spill pos rest =>
    -- the fields are written, and then the record is appended
    obtain ⟨rfl, htook, rfl, hroom, done, hdone, rfl⟩ := h
    cases rest with
    | cons w rest =>
      cases hstep
      refine ⟨rfl, htook, rfl, hroom, done ++ [w], by rw [← hdone]; simp, ?_⟩
      simp [Queue.writeRecord, g.slotIndex_eq, runWrites]
    | nil =>
      cases hstep
      rw [List.append_nil] at hdone
      subst hdone
      have hfinal := hq.pushed htook hroom
      -- an accepted push had all that it needs
      refine ⟨⟨hroom, (textLength_lt_iff m').mp htook.valid.1, ?_⟩, ?_⟩
      · rcases hspill : spill with _ | b
        · exact .inl (htook.valid.2.mp hspill)
        · exact .inr (hq.exists_free_block.mp ⟨b, htook.bound b hspill, htook.free b hspill⟩)
      · convert hfinal using 1
        simp [Queue.writeRecord, Queue.storeSeq, Queue.pushed, g.slotIndex_eq, queueRecordPack]
  -- a refused push leaves the queue as it was, for there was no room
  | giveBack m' spill =>
    obtain ⟨rfl, rfl, htook, hfull⟩ := h
    cases hstep
    refine ⟨fun hacc => ?_, htook.unchanged_spillPut⟩
    have := hacc.1
    omega
  | returned r => cases hstep

/-- How many steps a push has left at most, as long as no compare-and-swap fails. -/
def pushRank (g : QueueGeometry) : PushPc → ℕ
  | .idle => 0
  | .enter _ => 25 + 2 * g.spillWords
  | .spillLoad _ _ n => 24 + 2 * (g.spillWords - n)
  | .spillCas _ _ n _ => 23 + 2 * (g.spillWords - n)
  | .spillCopy .. => 22
  | .spillFull _ => 1
  | .loadPos .. => 21
  | .loadSeq .. => 20
  | .casPos .. => 19
  | .pack _ _ _ rest => rest.length + 1
  | .giveBack .. => 1
  | .returned _ => 0

theorem packWrites_length_le (m : LoggerMessage) (n : ℕ) (spill : Option ℕ) :
    (packWrites m n spill).length ≤ 17 := by
  unfold packWrites packContext queueCopySource
  cases m.metadataMask.context <;> cases m.metadataMask.module <;>
    cases m.metadataMask.source <;> cases spill <;> simp

theorem pushRank_spillNext {start n : ℕ} {used : BitVec 32} :
    pushRank g (spillNext g m start n used) < 24 + 2 * (g.spillWords - n) := by
  unfold spillNext
  split_ifs <;> simp only [pushRank] <;> omega

/-- A push that runs alone moves on towards its return whenever no compare-and-swap fails. -/
theorem PushAt.progress (hq : q.Holds g msgs) {now : Queue} {pc : PushPc} {c : PushChoice}
    (h : PushAt g q msgs m now pc) (hc : c.spurious = false) (hpc : ∀ r, pc ≠ .returned r) :
    ∃ e, pushStep g now c pc = some e ∧ pushRank g e.pc < pushRank g pc := by
  cases pc with
  | idle => exact h.elim
  | enter m' =>
    rw [pushStep]
    split_ifs
    · exact ⟨_, rfl, by simp only [pushRank]; omega⟩
    · exact ⟨_, rfl, by simp only [pushRank]; omega⟩
    · exact ⟨_, rfl, by simp only [pushRank]; omega⟩
  -- the scan goes to the next word
  | spillLoad m' start n => exact ⟨_, rfl, pushRank_spillNext⟩
  | spillCas m' start n used =>
    obtain ⟨-, rfl, -, -, -, hused, -⟩ := h
    -- alone, the exchange does not fail
    rw [pushStep, if_pos ⟨hused.symm, hc⟩]
    exact ⟨_, rfl, by simp only [pushRank]; omega⟩
  | spillCopy m' b => exact ⟨_, rfl, by simp only [pushRank]; omega⟩
  | spillFull m' => exact ⟨_, rfl, by simp only [pushRank]; omega⟩
  | loadPos m' spill => exact ⟨_, rfl, by simp only [pushRank]; omega⟩
  | loadSeq m' spill pos =>
    -- the slot is free or the queue is full, so the loop does not come back
    obtain ⟨-, rfl, -, rfl⟩ := h
    rw [pushStep, Queue.withBlock_slots, hq.signedCmp_eq]
    by_cases hroom : msgs.length < g.cap
    · rw [if_pos hroom]
      exact ⟨_, rfl, by simp only [pushRank]; omega⟩
    · rw [if_neg hroom]
      exact ⟨_, rfl, by simp only [pushRank]; omega⟩
  | casPos m' spill pos =>
    obtain ⟨-, rfl, -, rfl, -⟩ := h
    rw [pushStep, if_pos ⟨by rw [Queue.withBlock_enqueuePos], hc⟩]
    refine ⟨_, rfl, ?_⟩
    have := packWrites_length_le m' (loggerRecordTextLength m') spill
    simp only [pushRank]
    omega
  -- each write is one step
  | pack m' spill pos rest =>
    cases rest with
    | cons w rest => exact ⟨_, rfl, by simp [pushRank]⟩
    | nil => exact ⟨_, rfl, by simp [pushRank]⟩
  | giveBack m' spill => exact ⟨_, rfl, by simp only [pushRank]; omega⟩
  | returned r => exact absurd rfl (hpc r)

/-- What a push that runs alone has done after any number of steps. -/
theorem pushTrace_at (hq : q.Holds g msgs) (m : LoggerMessage) (cs : ℕ → PushChoice) (k : ℕ) :
    PushAt g q msgs m (pushTrace g cs q (.enter m) k).1 (pushTrace g cs q (.enter m) k).2 := by
  induction k with
  | zero => exact ⟨rfl, rfl⟩
  | succ k ih =>
    rw [pushTrace]
    cases hstep : pushStep g (pushTrace g cs q (.enter m) k).1 (cs k)
        (pushTrace g cs q (.enter m) k).2 with
    | none => exact ih
    | some e => exact ih.step hq hstep

/-- A push that runs alone returns once the compare-and-swaps stop failing spuriously. -/
theorem pushCall_returns (hq : q.Holds g msgs) (m : LoggerMessage) (cs : ℕ → PushChoice) (n : ℕ)
    (hcs : ∀ k, n ≤ k → (cs k).spurious = false) : ∃ q' r, PushCall g q m cs q' r := by
  -- By induction on the rank of the state reached at step `k`, for any `k` past `n`.
  suffices hrank : ∀ rank k, n ≤ k →
      pushRank g (pushTrace g cs q (.enter m) k).2 = rank → ∃ q' r, PushCall g q m cs q' r from
    hrank _ n le_rfl rfl
  intro rank
  induction rank using Nat.strong_induction_on with
  | _ rank ih =>
    intro k hk hrank
    have hat := pushTrace_at hq m cs k
    by_cases hret : ∃ r, (pushTrace g cs q (.enter m) k).2 = .returned r
    · obtain ⟨r, hr⟩ := hret
      exact ⟨_, r, k, Prod.ext rfl hr⟩
    · push Not at hret
      obtain ⟨e, hstep, hlt⟩ := hat.progress hq (hcs k hk) hret
      refine ih (pushRank g e.pc) (by omega) (k + 1) (by omega) ?_
      rw [pushTrace, hstep]

end Push

section Pop

variable {g : QueueGeometry} {q q' : Queue} {msgs : List LoggerMessage} {m : LoggerMessage}

/-- The queue after the oldest record was taken. -/
def Queue.popped (g : QueueGeometry) (q : Queue) : Queue :=
  { (q.spillPut (q.slots (q.dequeuePos % g.cap)).record.spillIndex).storeSeq
      (q.dequeuePos % g.cap) (q.dequeuePos + g.cap) with dequeuePos := q.dequeuePos + 1 }

@[simp]
theorem Queue.spillPut_spills (q : Queue) (spill : Option ℕ) :
    (q.spillPut spill).spills = q.spills := by
  cases spill <;> rfl

/-- The bits after a block was returned. -/
theorem Queue.bitAt_spillPut (q : Queue) (spill : Option ℕ) (b : ℕ) :
    BitWords.bitAt (q.spillPut spill).spillUsed b = true ↔
      spill ≠ some b ∧ BitWords.bitAt q.spillUsed b = true := by
  cases spill with
  | none => simp [Queue.spillPut]
  | some b₀ =>
    refine (BitWords.bitAt_clearBit (by decide) _ _ _).trans ?_
    rw [ne_eq, ne_eq, Option.some.injEq, eq_comm]

/-- Freeing the slot of the oldest record removes it from the list. -/
theorem Queue.Holds.popped {rest : List LoggerMessage} (h : q.Holds g (m :: rest)) :
    (q.popped g).Holds g rest := by
  have hcap := g.two_le_cap
  have henq := h.enqueuePos_eq
  have hle := h.length_le
  rw [List.length_cons] at henq hle
  -- the position, the block and the word of the slot change
  have hdeq : (q.popped g).dequeuePos = q.dequeuePos + 1 := rfl
  have henq' : (q.popped g).enqueuePos = q.enqueuePos := q.spillPut_enqueuePos _
  have hspills : (q.popped g).spills = q.spills := q.spillPut_spills _
  have hused : (q.popped g).spillUsed =
      (q.spillPut (q.slots (q.dequeuePos % g.cap)).record.spillIndex).spillUsed := rfl
  have hslots : (q.popped g).slots = Function.update q.slots (q.dequeuePos % g.cap)
      { q.slots (q.dequeuePos % g.cap) with seq := q.dequeuePos + g.cap } := by
    rw [Queue.popped, Queue.storeSeq, spillPut_slots]
  -- Of the old window only the oldest position uses the slot that changed.
  have hkeep : ∀ p, q.dequeuePos < p → p < q.dequeuePos + g.cap →
      (q.popped g).slots (p % g.cap) = q.slots (p % g.cap) := by
    intro p hgt hlt
    rw [hslots]
    refine Function.update_of_ne (fun hmod => ?_) _ _
    have := g.eq_of_mod_eq hgt.le le_rfl hlt (by omega) hmod
    omega
  constructor
  -- the oldest record is gone from both counts
  · omega
  · omega
  -- the freed slot is the one a lap later
  · intro p hge hlt
    rw [henq'] at hge
    rw [hdeq] at hlt
    by_cases hlap : p = q.dequeuePos + g.cap
    · rw [hlap, Nat.add_mod_right, hslots, Function.update_self]
    · rw [hkeep p (by omega) (by omega)]
      exact h.free p hge (by omega)
  -- the other records are one place nearer to the head
  · intro k m' hk
    have hlt := (List.getElem?_eq_some_iff.mp hk).1
    have hstored := h.stored (k + 1) m' (by rwa [List.getElem?_cons_succ])
    have hsame := hkeep (q.dequeuePos + 1 + k) (by omega) (by omega)
    rw [show q.dequeuePos + (k + 1) = q.dequeuePos + 1 + k by omega] at hstored
    rw [hdeq]
    obtain ⟨hseq, hpacked, hblock⟩ := hstored
    exact ⟨by rw [hsame]; exact hseq, by rw [hsame]; exact hpacked,
      by rw [hsame, hspills]; exact hblock⟩
  · -- The positions left own what they owned, and nobody owned the block of the record taken.
    have howns : ∀ p b, (q.popped g).SlotOwns g p b ↔ q.dequeuePos ≠ p ∧ q.SlotOwns g p b := by
      intro p b
      simp only [Queue.SlotOwns, hdeq, henq']
      constructor
      · rintro ⟨hge, hlt, hb⟩
        rw [hkeep p (by omega) (by omega)] at hb
        exact ⟨by omega, by omega, hlt, hb⟩
      · rintro ⟨hne, hge, hlt, hb⟩
        exact ⟨by omega, hlt, by rw [hkeep p (by omega) (by omega)]; exact hb⟩
    rcases hspill : (q.slots (q.dequeuePos % g.cap)).record.spillIndex with _ | b₀
    · refine h.exclusive.congr (fun b => by rw [hused, hspill]; rfl) fun p b => ?_
      rw [howns]
      -- a short record owned no block
      refine ⟨And.right, fun hb => ⟨?_, hb⟩⟩
      rintro rfl
      rw [hb.2.2] at hspill
      cases hspill
    · have hown : q.SlotOwns g q.dequeuePos b₀ := ⟨le_rfl, by omega, hspill⟩
      refine h.exclusive.release b₀ (fun b => ?_) fun p b => ?_
      · rw [hused, hspill, Queue.bitAt_spillPut, ne_eq, ne_eq, Option.some.injEq,
          eq_comm (a := b₀)]
      · rw [howns]
        constructor
        · rintro ⟨hne, hb⟩
          refine ⟨?_, hb⟩
          rintro rfl
          exact hne (h.exclusive.unique b _ _ hown hb)
        · rintro ⟨hne, hb⟩
          refine ⟨?_, hb⟩
          rintro rfl
          rw [hb.2.2, Option.some.injEq] at hspill
          exact hne hspill
  -- what is still in use was in use before
  · intro b hb
    rw [hused, Queue.bitAt_spillPut] at hb
    exact h.bound b hb.2

/-- The consumer has taken the records `out`, oldest first, and `now` holds the rest. -/
structure PopTaken (g : QueueGeometry) (msgs : List LoggerMessage) (now : Queue)
    (out : List LoggerMessage) : Prop where
  holds : now.Holds g (msgs.drop out.length)
  content : out.map LoggerMessage.content = (msgs.take out.length).map LoggerMessage.packedContent

/-- A call of the consumer on a queue that holds `msgs`, at a control state: what it has done so
far. The bound of a single `logger_queue_try_pop` is one record. -/
def PopAt (g : QueueGeometry) (msgs : List LoggerMessage) (max : Option ℕ) (now : Queue) :
    PopPc → Prop
  | .idle => False
  | .drainHead out mx => max = some mx ∧ out.length ≤ mx ∧ PopTaken g msgs now out
  | .loadPos out max' _ => max' = max ∧ out.length < max.getD 1 ∧ PopTaken g msgs now out
  | .loadSeq out max' _ pos =>
    max' = max ∧ out.length < max.getD 1 ∧ PopTaken g msgs now out ∧ pos = now.dequeuePos
  | .readSpill out max' _ pos =>
    max' = max ∧ out.length < max.getD 1 ∧ PopTaken g msgs now out ∧ pos = now.dequeuePos ∧
      out.length < msgs.length
  | .unpack out max' dst pos spill rest =>
    max' = max ∧ out.length < max.getD 1 ∧ PopTaken g msgs now out ∧ pos = now.dequeuePos ∧
      out.length < msgs.length ∧ spill = (now.slots (pos % g.cap)).record.spillIndex ∧
      Unpacked (now.slots (pos % g.cap)).record now.spills dst rest
  | .storeSeq out max' dst pos =>
    max' = max ∧ out.length < max.getD 1 ∧ ∃ was, PopTaken g msgs was out ∧ pos = was.dequeuePos ∧
      (∃ m, msgs[out.length]? = some m ∧ dst.content = m.packedContent) ∧
      now = was.spillPut (was.slots (pos % g.cap)).record.spillIndex
  | .storePos out max' dst pos =>
    max' = max ∧ out.length < max.getD 1 ∧ ∃ was, PopTaken g msgs was out ∧ pos = was.dequeuePos ∧
      (∃ m, msgs[out.length]? = some m ∧ dst.content = m.packedContent) ∧
      now = (was.spillPut (was.slots (pos % g.cap)).record.spillIndex).storeSeq (pos % g.cap)
        (pos + g.cap)
  | .returned out =>
    PopTaken g msgs now out ∧ out.length = min (max.getD 1) msgs.length

/-- A fully unpacked entry has the content of the message its slot stores. -/
theorem Queue.Stores.content_eq {p : ℕ} (h : q.Stores g p m) {dst : LoggerMessage}
    (hdst : Unpacked (q.slots (p % g.cap)).record q.spills dst []) :
    dst.content = m.packedContent := by
  obtain ⟨old, done, hdone, rfl⟩ := hdst
  obtain ⟨old', spill, hvalid, hpack⟩ := h.packed
  have hblock := h.block
  rw [List.append_nil] at hdone
  rw [hpack, queueRecordPack_spillIndex] at hblock
  rw [hdone, hpack]
  exact content_unpack_pack q.spills old' m spill old hvalid.1 hblock

/-- No more records are taken than were queued. -/
theorem PopTaken.length_le {now : Queue} {out : List LoggerMessage}
    (h : PopTaken g msgs now out) : out.length ≤ msgs.length := by
  have hlen := congrArg List.length h.content
  rw [List.length_map, List.length_map, List.length_take] at hlen
  omega

/-- Taking the oldest record. -/
theorem PopTaken.snoc {now : Queue} {out : List LoggerMessage} {dst : LoggerMessage}
    (h : PopTaken g msgs now out) (hm : msgs[out.length]? = some m)
    (hdst : dst.content = m.packedContent) : PopTaken g msgs (now.popped g) (out ++ [dst]) := by
  have hdrop : msgs.drop out.length = m :: msgs.drop (out.length + 1) := by
    obtain ⟨hlt, rfl⟩ := List.getElem?_eq_some_iff.mp hm
    exact List.drop_eq_getElem_cons hlt
  have hholds := h.holds
  rw [hdrop] at hholds
  constructor
  · rw [List.length_append, List.length_singleton]
    exact hholds.popped
  · rw [List.length_append, List.length_singleton, List.map_append, h.content, List.take_add_one,
      hm, List.map_append]
    simp [hdst]

/-- Every step of a consumer that runs alone leads from what it has done so far to what it has
done then. -/
theorem PopAt.step {max : Option ℕ} {now : Queue} {pc : PopPc} {entry : LoggerMessage}
    {e : PopEffect} (h : PopAt g msgs max now pc) (hstep : popStep g now entry pc = some e) :
    PopAt g msgs max e.queue e.pc := by
  cases pc with
  | idle => exact h.elim
  | drainHead out mx =>
    obtain ⟨rfl, hle, htaken⟩ := h
    rw [popStep] at hstep
    -- the drain goes on while the batch has room
    split_ifs at hstep with hmore <;> cases hstep
    · exact ⟨rfl, hmore, htaken⟩
    · have := htaken.length_le
      exact ⟨htaken, by rw [Option.getD_some]; omega⟩
  | loadPos out max' dst =>
    obtain ⟨rfl, hlt, htaken⟩ := h
    cases hstep
    exact ⟨rfl, hlt, htaken, rfl⟩
  | loadSeq out max' dst pos =>
    obtain ⟨rfl, hlt, htaken, rfl⟩ := h
    have hiff := htaken.holds.head_published
    rw [popStep] at hstep
    split_ifs at hstep with hpub <;> cases hstep
    -- alone, the head is published exactly when a record is left
    · have hne := hiff.mp hpub
      rw [ne_eq, List.drop_eq_nil_iff, not_le] at hne
      exact ⟨rfl, hlt, htaken, rfl, hne⟩
    · rw [hiff, ne_eq, not_not, List.drop_eq_nil_iff] at hpub
      have := htaken.length_le
      exact ⟨htaken, by omega⟩
  | readSpill out max' dst pos =>
    obtain ⟨rfl, hlt, htaken, rfl, hmore⟩ := h
    cases hstep
    rw [g.slotIndex_eq]
    exact ⟨rfl, hlt, htaken, rfl, hmore, rfl, dst, [], rfl, rfl⟩
  | unpack out max' dst pos spill rest =>
    obtain ⟨rfl, hlt, htaken, rfl, hmore, rfl, hread⟩ := h
    cases rest with
    | cons read rest =>
      cases hstep
      rw [g.slotIndex_eq]
      obtain ⟨old, done, hdone, rfl⟩ := hread
      refine ⟨rfl, hlt, htaken, rfl, hmore, rfl, old, done ++ [read], by rw [← hdone]; simp, ?_⟩
      rw [List.map_append, runWrites_append]
      rfl
    -- the record read is the oldest one
    | nil =>
      cases hstep
      have hget : (msgs.drop out.length)[0]? = some msgs[out.length] := by
        rw [List.getElem?_drop, Nat.add_zero, List.getElem?_eq_getElem hmore]
      refine ⟨rfl, hlt, now, htaken, rfl, ⟨_, List.getElem?_eq_getElem hmore, ?_⟩, rfl⟩
      exact (htaken.holds.stored 0 _ hget).content_eq hread
  | storeSeq out max' dst pos =>
    obtain ⟨rfl, hlt, was, htaken, hpos, hm, rfl⟩ := h
    cases hstep
    rw [g.slotIndex_eq]
    exact ⟨rfl, hlt, was, htaken, hpos, hm, rfl⟩
  -- it is the next one of the result
  | storePos out max' dst pos =>
    obtain ⟨rfl, hlt, was, htaken, rfl, ⟨m, hm, hdst⟩, rfl⟩ := h
    have hdone := htaken.snoc hm hdst
    have hbound := (List.getElem?_eq_some_iff.mp hm).1
    cases hstep
    -- a single pop returns with it, and a drain asks for the next
    cases max' with
    | none =>
      refine ⟨hdone, ?_⟩
      simp only [Option.getD_none, List.length_append, List.length_singleton] at hlt ⊢
      omega
    | some mx =>
      refine ⟨rfl, ?_, hdone⟩
      simp only [Option.getD_some, List.length_append, List.length_singleton] at hlt ⊢
      omega
  | returned out => cases hstep

/-- How many steps a call of the consumer with bound `limit` has left at most. -/
def popRank (limit : ℕ) : PopPc → ℕ
  | .idle => 0
  | .drainHead out _ => (limit - out.length) * 32 + 31
  | .loadPos out _ _ => (limit - out.length) * 32 + 30
  | .loadSeq out _ _ _ => (limit - out.length) * 32 + 29
  | .readSpill out _ _ _ => (limit - out.length) * 32 + 28
  | .unpack out _ _ _ _ rest => (limit - out.length) * 32 + rest.length + 3
  | .storeSeq out _ _ _ => (limit - out.length) * 32 + 2
  | .storePos out _ _ _ => (limit - out.length) * 32 + 1
  | .returned _ => 0

/-- A consumer that runs alone moves on towards its return. -/
theorem PopAt.progress {max : Option ℕ} {now : Queue} {pc : PopPc} (entry : LoggerMessage)
    (h : PopAt g msgs max now pc) (hpc : ∀ out, pc ≠ .returned out) :
    ∃ e, popStep g now entry pc = some e ∧
      popRank (max.getD 1) e.pc < popRank (max.getD 1) pc := by
  cases pc with
  | idle => exact h.elim
  -- the rank counts the records that are still asked for
  | drainHead out mx =>
    rw [popStep]
    split_ifs
    · exact ⟨_, rfl, by simp only [popRank]; omega⟩
    · exact ⟨_, rfl, by simp only [popRank]; omega⟩
  | loadPos out max' dst => exact ⟨_, rfl, by simp only [popRank]; omega⟩
  | loadSeq out max' dst pos =>
    rw [popStep]
    split_ifs
    · exact ⟨_, rfl, by simp only [popRank]; omega⟩
    · exact ⟨_, rfl, by simp only [popRank]; omega⟩
  | readSpill out max' dst pos => exact ⟨_, rfl, by simp [popRank, unpackReads]⟩
  | unpack out max' dst pos spill rest =>
    cases rest with
    | cons read rest => exact ⟨_, rfl, by simp [popRank]⟩
    | nil => exact ⟨_, rfl, by simp [popRank]⟩
  | storeSeq out max' dst pos => exact ⟨_, rfl, by simp only [popRank]; omega⟩
  | storePos out max' dst pos =>
    obtain ⟨rfl, hlt, -⟩ := h
    refine ⟨_, rfl, ?_⟩
    -- a drain starts on one record less
    cases max' with
    | none => simp [popNext, popRank]
    | some mx =>
      simp only [popNext, popRank, Option.getD_some, List.length_append,
        List.length_singleton] at hlt ⊢
      omega
  | returned out => exact absurd rfl (hpc out)

/-- What a consumer that runs alone has done after any number of steps. -/
theorem popTrace_at (hq : q.Holds g msgs) (dst : LoggerMessage) (max : Option ℕ)
    (entries : ℕ → LoggerMessage) (k : ℕ) :
    PopAt g msgs max (popTrace g entries q (popEntry dst max) k).1
      (popTrace g entries q (popEntry dst max) k).2 := by
  induction k with
  | zero =>
    have htaken : PopTaken g msgs q [] := ⟨hq, rfl⟩
    cases max with
    | none => exact ⟨rfl, Nat.one_pos, htaken⟩
    | some mx => exact ⟨rfl, Nat.zero_le _, htaken⟩
  | succ k ih =>
    rw [popTrace]
    cases hstep : popStep g (popTrace g entries q (popEntry dst max) k).1 (entries k)
        (popTrace g entries q (popEntry dst max) k).2 with
    | none => exact ih
    | some e => exact ih.step hstep

/-- A consumer that runs alone returns. -/
theorem popCall_returns (hq : q.Holds g msgs) (dst : LoggerMessage) (max : Option ℕ)
    (entries : ℕ → LoggerMessage) : ∃ q' out, PopCall g q dst max entries q' out := by
  suffices hrank : ∀ rank k, popRank (max.getD 1) (popTrace g entries q (popEntry dst max) k).2 =
      rank → ∃ q' out, PopCall g q dst max entries q' out from hrank _ 0 rfl
  intro rank
  induction rank using Nat.strong_induction_on with
  | _ rank ih =>
    intro k hrank
    by_cases hret : ∃ out, (popTrace g entries q (popEntry dst max) k).2 = .returned out
    · obtain ⟨out, hout⟩ := hret
      exact ⟨_, out, k, Prod.ext rfl hout⟩
    · push Not at hret
      obtain ⟨e, hstep, hlt⟩ := (popTrace_at hq dst max entries k).progress (entries k) hret
      refine ih (popRank (max.getD 1) e.pc) (by omega) (k + 1) ?_
      rw [popTrace, hstep]

end Pop

section Fifo

variable {g : QueueGeometry} {q q' : Queue} {msgs : List LoggerMessage}

/-- What a complete push did. -/
theorem PushCall.spec (hq : q.Holds g msgs) {m : LoggerMessage} {cs : ℕ → PushChoice} {r : Bool}
    (h : PushCall g q m cs q' r) : PushAt g q msgs m q' (.returned r) := by
  obtain ⟨k, hk⟩ := h
  have hat := pushTrace_at hq m cs k
  rwa [hk] at hat

/-- What a complete call of the consumer did. -/
theorem PopCall.spec (hq : q.Holds g msgs) {dst : LoggerMessage} {max : Option ℕ}
    {entries : ℕ → LoggerMessage} {out : List LoggerMessage}
    (h : PopCall g q dst max entries q' out) :
    PopTaken g msgs q' out ∧ out.length = min (max.getD 1) msgs.length := by
  obtain ⟨k, hk⟩ := h
  have hat := popTrace_at hq dst max entries k
  rwa [hk] at hat

/-- After any sequence of complete calls the queue represents the list of the records accepted and
not yet returned. -/
theorem SequentialRun.holds {p : ℕ} (h : SequentialRun g p msgs q) : q.Holds g msgs := by
  induction h with
  | start => exact .initAt g p
  | @push msgs q q' m cs r hrun hcall ih =>
    have hspec := hcall.spec ih
    cases r with
    | true => exact hspec.2
    | false => exact hspec.2.holds ih
  | pop hrun hcall ih => exact (hcall.spec ih).1.holds

/-- The queue in state `q` behaves as the bounded list `msgs` with its pool of long messages. -/
structure SequentialFifo (g : QueueGeometry) (msgs : List LoggerMessage) (q : Queue) : Prop where
  /-- A push returns, from every probe start, once no compare-and-swap fails spuriously. -/
  push_returns : ∀ m (cs : ℕ → PushChoice) n, (∀ k, n ≤ k → (cs k).spurious = false) →
    ∃ q' r, PushCall g q m cs q' r
  /-- It returns 1 exactly when the list, the text and the pool allow it. -/
  push_iff : ∀ m cs q' r, PushCall g q m cs q' r → (r = true ↔ PushAccepts g msgs m)
  /-- A refused push leaves the records, the counters and the bitmap as they were. -/
  push_refused : ∀ m cs q', PushCall g q m cs q' false → q.Unchanged q'
  /-- The scan does not give up while a block is free. -/
  scan_finds : (∃ b < g.spillCap, BitWords.bitAt q.spillUsed b = false) →
    ∀ m cs k m', (pushTrace g cs q (.enter m) k).2 ≠ .spillFull m'
  /-- A pop or drain returns. -/
  pop_returns : ∀ dst max entries, ∃ q' out, PopCall g q dst max entries q' out
  /-- It returns the oldest records as they were packed, as many as there are up to its bound. -/
  pop_oldest : ∀ dst max entries q' out, PopCall g q dst max entries q' out →
    out.map LoggerMessage.content = (msgs.take (max.getD 1)).map LoggerMessage.packedContent
  depth : loggerQueueDepth g q = msgs.length
  empty : loggerQueueEmpty g q = msgs.isEmpty
  spillInUse : loggerQueueSpillInUse g q = msgs.countP LoggerMessage.isLong

/-- For every accepted capacity and every starting position, the queue is a bounded FIFO with a
bounded pool of long messages after any sequence of complete pushes, pops and drains. -/
theorem queue_sequential_fifo {P : Platform} {requested : ℕ} {l : QueueLayout}
    (hinit : loggerQueueInit P requested = some l) (wraps : Bool) (p : ℕ)
    {msgs : List LoggerMessage} {q : Queue}
    (hrun : SequentialRun (QueueLayout.geometry hinit wraps) p msgs q) :
    SequentialFifo (QueueLayout.geometry hinit wraps) msgs q := by
  have hq := hrun.holds
  constructor
  · exact fun m cs n hcs => pushCall_returns hq m cs n hcs
  · intro m cs q' r hcall
    have hspec := hcall.spec hq
    cases r with
    | true => exact ⟨fun _ => hspec.1, fun _ => rfl⟩
    | false => exact ⟨nofun, fun h => absurd h hspec.1⟩
  · exact fun m cs q' hcall => (hcall.spec hq).2
  · rintro ⟨b, hb, hclear⟩ m cs k m' hpc
    have hat := pushTrace_at hq m cs k
    rw [hpc] at hat
    obtain ⟨-, -, -, start, hscan⟩ := hat
    rw [hscan.bitAt hb] at hclear
    cases hclear
  · exact fun dst max entries => popCall_returns hq dst max entries
  · intro dst max entries q' out hcall
    obtain ⟨htaken, hlen⟩ := hcall.spec hq
    rw [htaken.content, hlen, ← List.take_eq_take_min]
  · exact hq.depth_eq
  · exact hq.empty_eq
  · exact hq.spillInUse_eq

/-- One long message, pushed where the positions are about to wrap. -/
theorem queue_sequential_fifo_wrap :
    ∃ q, SequentialFifo (QueueLayout.geometry loggerQueueInit_two true) [longMessage] q := by
  have hstart := queue_sequential_fifo loggerQueueInit_two true (2 ^ 64 - 1) .start
  obtain ⟨q, r, hcall⟩ := hstart.push_returns longMessage (fun _ => ⟨5, false⟩) 0 fun _ _ => rfl
  have haccepts : PushAccepts (QueueLayout.geometry loggerQueueInit_two true) [] longMessage :=
    ⟨by decide, ⟨600, by decide, by decide⟩, .inr (by decide)⟩
  obtain rfl := (hstart.push_iff _ _ _ _ hcall).mpr haccepts
  exact ⟨q, queue_sequential_fifo loggerQueueInit_two true (2 ^ 64 - 1) (.push .start hcall)⟩

end Fifo

end CLogger
