import CLogger.Lib.TransitionSystem
import CLogger.Lib.WrapCounter
import CLogger.Record
import Mathlib.Logic.Function.Basic

/-!
# The bounded multi-producer queue

The ring buffer and spill pool of `logger_queue.c` as a step relation over the individual atomic
operations and field copies of `logger_queue_push` (any number of producers) and of
`logger_queue_try_pop` / `logger_queue_drain` (one consumer), interleaved in any order.

Counters (`enqueue_pos`, `dequeue_pos`, `slot.seq`, a loaded position) are kept as the number they
count to; whatever the code observes of them (an index, a comparison, a compare-and-swap) is
observed through `Width.wrap`, so that `Width.bits w` is the machine with `size_t` of `w` bits.

The wake-up that follows a publication touches no word of the ring. It is part of
`Instance.Model`.
-/

namespace CLogger

open WrapCounter

section Layout

/-- What the sizing arithmetic depends on: the width of `size_t` and the two block sizes. -/
structure Platform where
  /-- Bits of `size_t`. -/
  sizeBits : ℕ
  /-- `sizeof(struct logger_queue_slot)`. -/
  slotSize : ℕ
  /-- `sizeof(struct logger_queue_spill)`. -/
  spillSize : ℕ

/-- `SIZE_MAX`. -/
def Platform.sizeMax (P : Platform) : ℕ := 2 ^ P.sizeBits - 1

/-- `LOGGER_QUEUE_SPILL_LIMIT`. -/
def loggerQueueSpillLimit : ℕ := 1024

/-- `LOGGER_QUEUE_SPILL_WORD_BITS`. -/
def loggerQueueSpillWordBits : ℕ := 32

/-- The doubling loop of `queue_capacity`. The fuel bounds the number of doublings. -/
def queueCapacityLoop (sizeMax requested : ℕ) : ℕ → ℕ → Option ℕ
  | 0, _ => none
  | fuel + 1, n =>
    if n < requested then
      if sizeMax / 2 < n then none else queueCapacityLoop sizeMax requested fuel (n * 2)
    else some n

/-- `queue_capacity`; `none` is `EOVERFLOW`. -/
def queueCapacity (P : Platform) (requested : ℕ) : Option ℕ :=
  match queueCapacityLoop P.sizeMax (if requested < 2 then 2 else requested) (P.sizeBits + 1) 2 with
  | none => none
  | some n => if P.sizeMax / 2 < n ∨ P.sizeMax / P.slotSize < n then none else some n

/-- `queue_spill_capacity`. -/
def queueSpillCapacity (queueCap : ℕ) : ℕ :=
  if queueCap < loggerQueueSpillLimit then queueCap else loggerQueueSpillLimit

/-- `queue_storage_size`; `none` is `EOVERFLOW`. -/
def queueStorageSize (P : Platform) (queueCap spillCap : ℕ) : Option ℕ :=
  if P.sizeMax / P.spillSize < spillCap then none
  else if (P.sizeMax - spillCap * P.spillSize) / P.slotSize < queueCap then none
  else some (queueCap * P.slotSize + spillCap * P.spillSize)

/-- The sizes `logger_queue_init` stores in the queue. -/
structure QueueLayout where
  cap : ℕ
  mask : ℕ
  spillCap : ℕ
  storageBytes : ℕ
  deriving DecidableEq, Repr

/-- The sizing part of `logger_queue_init`; `none` is `EOVERFLOW`, before any allocation. -/
def loggerQueueInit (P : Platform) (requested : ℕ) : Option QueueLayout :=
  match queueCapacity P requested with
  | none => none
  | some cap =>
    match queueStorageSize P cap (queueSpillCapacity cap) with
    | none => none
    | some bytes =>
      some {
        cap := cap
        mask := cap - 1
        spillCap := queueSpillCapacity cap
        storageBytes := bytes }

/-- The doubling loop returns a power of two. -/
theorem queueCapacityLoop_eq_some {sizeMax requested fuel k n : ℕ}
    (h : queueCapacityLoop sizeMax requested fuel (2 ^ k) = some n) : ∃ j, k ≤ j ∧ n = 2 ^ j := by
  induction fuel generalizing k with
  | zero => simp [queueCapacityLoop] at h
  | succ fuel ih =>
    rw [queueCapacityLoop] at h
    split_ifs at h with hlt hbig
    · obtain ⟨j, hj, rfl⟩ := ih (k := k + 1) (by rwa [pow_succ])
      exact ⟨j, by omega, rfl⟩
    · exact ⟨k, le_rfl, by simpa using h.symm⟩

/-- An accepted capacity is a power of two, at least two, in less than half of the `size_t`
range. -/
theorem queueCapacity_eq_some {P : Platform} {requested n : ℕ}
    (h : queueCapacity P requested = some n) :
    (∃ k, 1 ≤ k ∧ n = 2 ^ k) ∧ n ≤ P.sizeMax / 2 := by
  unfold queueCapacity at h
  split at h
  · contradiction
  · rename_i cap hloop
    split_ifs at h with hbad
    obtain rfl : cap = n := by simpa using h
    exact ⟨queueCapacityLoop_eq_some (k := 1) hloop, by omega⟩

end Layout

/-- The geometry of an initialised queue: the sizes it was given and the representation of its
positions. The capacity is a power of two, at least two, in less than half of the position
space. -/
structure QueueGeometry where
  width : Width
  cap : ℕ
  mask : ℕ
  spillCap : ℕ
  cap_pow : ∃ k, 1 ≤ k ∧ cap = 2 ^ k
  cap_fits : width.Fits cap
  mask_eq : mask = cap - 1
  spillCap_eq : spillCap = queueSpillCapacity cap

/-- The geometry of a queue that `logger_queue_init` accepted, with positions kept as unbounded
naturals (`wraps = false`) or in the `size_t` of the platform. -/
def QueueLayout.geometry {P : Platform} {requested : ℕ} {l : QueueLayout}
    (h : loggerQueueInit P requested = some l) (wraps : Bool) : QueueGeometry where
  -- the witness of acceptance is taken apart for each field
  width := if wraps then .bits P.sizeBits else .unbounded
  cap := l.cap
  mask := l.mask
  spillCap := l.spillCap
  cap_pow := by
    unfold loggerQueueInit at h
    -- a capacity that fits its positions was accepted
    split at h
    · contradiction
    · rename_i cap hcap
      split at h
      · contradiction
      · obtain rfl : _ = l := by simpa using h
        exact (queueCapacity_eq_some hcap).1
  cap_fits := by
    unfold loggerQueueInit at h
    split at h
    · contradiction
    · rename_i cap hcap
      split at h
      · contradiction
      · obtain rfl : _ = l := by simpa using h
        cases wraps
        · trivial
        · exact (queueCapacity_eq_some hcap).2
  mask_eq := by
    unfold loggerQueueInit at h
    -- the masks are the sizes less one
    split at h
    · contradiction
    · split at h
      · contradiction
      · obtain rfl : _ = l := by simpa using h
        rfl
  spillCap_eq := by
    unfold loggerQueueInit at h
    split at h
    · contradiction
    · split at h
      · contradiction
      · obtain rfl : _ = l := by simpa using h
        rfl

namespace QueueGeometry

variable (g : QueueGeometry)

/-- The slot index `pos & q->mask` of a position. -/
def slotIndex (pos : ℕ) : ℕ := g.width.wrap pos &&& g.mask

/-- The number of bitmap words the spill scan visits. -/
def spillWords : ℕ := (g.spillCap + loggerQueueSpillWordBits - 1) / loggerQueueSpillWordBits

/-- `spill_valid_mask(spill_cap, word)`: the bits of a bitmap word that stand for blocks. -/
def spillValidMask (word : ℕ) : BitVec 32 :=
  if loggerQueueSpillWordBits ≤ g.spillCap - word * loggerQueueSpillWordBits then BitVec.allOnes 32
  else (1#32 <<< (g.spillCap - word * loggerQueueSpillWordBits)) - 1#32

end QueueGeometry

/-- `struct logger_queue_slot`. -/
structure Slot where
  seq : ℕ
  record : QueueRecord

/-- The shared words of `struct logger_queue` that push and pop use. -/
structure Queue where
  slots : ℕ → Slot
  spills : ℕ → Buf
  spillUsed : ℕ → BitVec 32
  spillExhaustions : ℕ
  enqueuePos : ℕ
  dequeuePos : ℕ

/-- The queue `logger_queue_init` leaves: slot `i` is free for position `i`. -/
def Queue.init : Queue :=
  { slots := fun i => ⟨i, .zero⟩, spills := fun _ => .zero, spillUsed := fun _ => 0#32,
    spillExhaustions := 0, enqueuePos := 0, dequeuePos := 0 }

/-- Store a slot's sequence word. -/
def Queue.storeSeq (q : Queue) (i seq : ℕ) : Queue :=
  { q with slots := Function.update q.slots i { q.slots i with seq := seq } }

/-- Run one field write on a slot's record. -/
def Queue.writeRecord (q : Queue) (i : ℕ) (w : QueueRecord → QueueRecord) : Queue :=
  { q with slots := Function.update q.slots i { q.slots i with record := w (q.slots i).record } }

/-- The atomic `spill_used[word] &= ~(1u << bit)` of `queue_spill_put`. -/
def Queue.clearSpill (q : Queue) (index : ℕ) : Queue :=
  { q with
    spillUsed := Function.update q.spillUsed (index / loggerQueueSpillWordBits)
      (q.spillUsed (index / loggerQueueSpillWordBits) &&&
        ~~~(1#32 <<< (index % loggerQueueSpillWordBits))) }

/-- `queue_spill_put`. -/
def Queue.spillPut (q : Queue) : Option ℕ → Queue
  | none => q
  | some index => q.clearSpill index

/-- `logger_queue_spill_in_use`. -/
def loggerQueueSpillInUse (g : QueueGeometry) (q : Queue) : ℕ :=
  let used := ((List.range g.spillWords).map fun word =>
    (q.spillUsed word &&& g.spillValidMask word).cpop.toNat).sum
  if used ≤ g.spillCap then used else g.spillCap

/-- Where a `logger_queue_push` call stands: the shared operation it executes next. -/
inductive PushPc where
  /-- No call in progress. -/
  | idle
  /-- Entered with message `m`. -/
  | enter (m : LoggerMessage)
  /-- Loads bitmap word `n` of the scan that started at `start`. -/
  | spillLoad (m : LoggerMessage) (start n : ℕ)
  /-- Tries to take the lowest free bit of that word, last seen as `used`. -/
  | spillCas (m : LoggerMessage) (start n : ℕ) (used : BitVec 32)
  /-- Copies the text into the block it took. -/
  | spillCopy (m : LoggerMessage) (index : ℕ)
  /-- Counts a scan that found no block. -/
  | spillFull (m : LoggerMessage)
  /-- Loads `enqueue_pos`. -/
  | loadPos (m : LoggerMessage) (spill : Option ℕ)
  /-- Loads the sequence word of the slot of `pos`. -/
  | loadSeq (m : LoggerMessage) (spill : Option ℕ) (pos : ℕ)
  /-- Tries to advance `enqueue_pos` from `pos`. -/
  | casPos (m : LoggerMessage) (spill : Option ℕ) (pos : ℕ)
  /-- Packs the record of its slot, `rest` being the field writes left; then publishes. -/
  | pack (m : LoggerMessage) (spill : Option ℕ) (pos : ℕ) (rest : List (QueueRecord → QueueRecord))
  /-- Gives the block back because the queue is full. -/
  | giveBack (m : LoggerMessage) (spill : Option ℕ)
  /-- The queue part of the call is over: the record is published, or the call returns 0. -/
  | returned (published : Bool)

/-- What the environment decides in a step of a push: where the spill scan starts (a thread-local
cursor) and whether a weak compare-and-swap fails spuriously. -/
structure PushChoice where
  start : ℕ
  spurious : Bool

/-- The effect of one step of a push: the queue, the control state and, when the step reserved a
position, the message it will publish there. -/
structure PushEffect where
  queue : Queue
  pc : PushPc
  won : Option LoggerMessage

/-- The control state after the scan has seen `used` in its word `n`: take the lowest free bit, go
on with the next word, or give up. -/
def spillNext (g : QueueGeometry) (m : LoggerMessage) (start n : ℕ) (used : BitVec 32) : PushPc :=
  if ~~~used &&& g.spillValidMask ((start + n) % g.spillWords) = 0#32 then
    if n + 1 < g.spillWords then .spillLoad m start (n + 1) else .spillFull m
  else .spillCas m start n used

/-- One step of `logger_queue_push`, up to the publication. -/
def pushStep (g : QueueGeometry) (q : Queue) (c : PushChoice) : PushPc → Option PushEffect
  | .idle => none
  | .enter m =>
    -- a text of the largest length has been cut, and is refused
    if loggerRecordTextLength m = loggerMessageMax then some ⟨q, .returned false, none⟩
    -- a long text goes to a block of its own
    else if loggerQueueInlineText < loggerRecordTextLength m then
      some ⟨q, .spillLoad m (c.start % g.spillWords) 0, none⟩
    else some ⟨q, .loadPos m none, none⟩
  | .spillLoad m start n =>
    some ⟨q, spillNext g m start n (q.spillUsed ((start + n) % g.spillWords)), none⟩
  | .spillCas m start n used =>
    -- a free bit of the word is taken by a weak exchange
    let word := (start + n) % g.spillWords
    let bit := (~~~used &&& g.spillValidMask word).ctz.toNat
    if q.spillUsed word = used ∧ c.spurious = false then
      some ⟨{ q with spillUsed := Function.update q.spillUsed word (used ||| (1#32 <<< bit)) },
        .spillCopy m (word * loggerQueueSpillWordBits + bit), none⟩
    else some ⟨q, spillNext g m start n (q.spillUsed word), none⟩
  | .spillCopy m index =>
    -- the copy takes the text with its zero
    let text := memcpy (q.spills index) m.text (loggerRecordTextLength m + 1)
    some ⟨{ q with spills := Function.update q.spills index text }, .loadPos m (some index), none⟩
  | .spillFull _ =>
    some ⟨{ q with spillExhaustions := q.spillExhaustions + 1 }, .returned false, none⟩
  -- the position is loaded, and then the word of its slot is compared with it
  | .loadPos m spill => some ⟨q, .loadSeq m spill q.enqueuePos, none⟩
  | .loadSeq m spill pos =>
    match g.width.signedCmp (g.width.wrap (q.slots (g.slotIndex pos)).seq) (g.width.wrap pos) with
    | .eq => some ⟨q, .casPos m spill pos, none⟩
    | .lt => some ⟨q, .giveBack m spill, none⟩
    | .gt => some ⟨q, .loadPos m spill, none⟩
  -- the position is won by a weak exchange, after which the fields are written one by one
  | .casPos m spill pos =>
    if g.width.wrap q.enqueuePos = g.width.wrap pos ∧ c.spurious = false then
      some ⟨{ q with enqueuePos := pos + 1 },
        .pack m spill pos (packWrites m (loggerRecordTextLength m) spill), some m⟩
    else some ⟨q, .loadSeq m spill q.enqueuePos, none⟩
  | .pack m spill pos (w :: rest) =>
    some ⟨q.writeRecord (g.slotIndex pos) w, .pack m spill pos rest, none⟩
  -- the sequence word is the last to be written
  | .pack _ _ pos [] => some ⟨q.storeSeq (g.slotIndex pos) (pos + 1), .returned true, none⟩
  -- no position was free, so the block is given back
  | .giveBack _ spill => some ⟨q.spillPut spill, .returned false, none⟩
  | .returned _ => none

/-- A field read of `queue_record_unpack`. -/
abbrev FieldRead := QueueRecord → (ℕ → Buf) → LoggerMessage → LoggerMessage

/-- Where the consumer stands. `out` are the records the current call has taken so far and `max`
is the bound of a `logger_queue_drain`, or `none` for a single `logger_queue_try_pop`. -/
inductive PopPc where
  /-- No call in progress. -/
  | idle
  /-- The loop test of `logger_queue_drain`. -/
  | drainHead (out : List LoggerMessage) (max : ℕ)
  /-- Loads `dequeue_pos`; `dst` is the entry to fill. -/
  | loadPos (out : List LoggerMessage) (max : Option ℕ) (dst : LoggerMessage)
  /-- Loads the sequence word of the slot of `pos`. -/
  | loadSeq (out : List LoggerMessage) (max : Option ℕ) (dst : LoggerMessage) (pos : ℕ)
  /-- Reads the spill index of the slot. -/
  | readSpill (out : List LoggerMessage) (max : Option ℕ) (dst : LoggerMessage) (pos : ℕ)
  /-- Unpacks the record, `rest` being the field reads left; then returns the spill block. -/
  | unpack (out : List LoggerMessage) (max : Option ℕ) (dst : LoggerMessage) (pos : ℕ)
      (spill : Option ℕ) (rest : List FieldRead)
  /-- Frees the slot for the next lap. -/
  | storeSeq (out : List LoggerMessage) (max : Option ℕ) (dst : LoggerMessage) (pos : ℕ)
  /-- Advances `dequeue_pos`. -/
  | storePos (out : List LoggerMessage) (max : Option ℕ) (dst : LoggerMessage) (pos : ℕ)
  /-- The call returned the records `out`. -/
  | returned (out : List LoggerMessage)

/-- The effect of one step of the consumer: the queue, the control state and, when the step
completed a pop, the record it took. -/
structure PopEffect where
  queue : Queue
  pc : PopPc
  taken : Option LoggerMessage

/-- The control state after a successful `logger_queue_try_pop`: back to the loop test of a drain,
or return. -/
def popNext (out : List LoggerMessage) : Option ℕ → PopPc
  | none => .returned out
  | some max => .drainHead out max

/-- One step of `logger_queue_try_pop` or `logger_queue_drain`; `entry` is the old content of the
batch entry that a drain fills next. -/
def popStep (g : QueueGeometry) (q : Queue) (entry : LoggerMessage) : PopPc → Option PopEffect
  | .idle => none
  -- a drain asks for as many records as fit
  | .drainHead out max =>
    if out.length < max then some ⟨q, .loadPos out (some max) entry, none⟩
    else some ⟨q, .returned out, none⟩
  | .loadPos out max dst => some ⟨q, .loadSeq out max dst q.dequeuePos, none⟩
  -- the head is taken only when its record is published
  | .loadSeq out max dst pos =>
    if g.width.wrap (q.slots (g.slotIndex pos)).seq = g.width.wrap (pos + 1) then
      some ⟨q, .readSpill out max dst pos, none⟩
    else some ⟨q, .returned out, none⟩
  -- the block is read before the fields
  | .readSpill out max dst pos =>
    some ⟨q, .unpack out max dst pos (q.slots (g.slotIndex pos)).record.spillIndex unpackReads,
      none⟩
  | .unpack out max dst pos spill (read :: rest) =>
    some ⟨q, .unpack out max (read (q.slots (g.slotIndex pos)).record q.spills dst) pos spill rest,
      none⟩
  -- the block goes back before the slot is freed for the next lap
  | .unpack out max dst pos spill [] => some ⟨q.spillPut spill, .storeSeq out max dst pos, none⟩
  | .storeSeq out max dst pos =>
    some ⟨q.storeSeq (g.slotIndex pos) (pos + g.cap), .storePos out max dst pos, none⟩
  -- the record is handed out when the position is stored
  | .storePos out max dst pos =>
    some ⟨{ q with dequeuePos := pos + 1 }, popNext (out ++ [dst]) max, some dst⟩
  | .returned _ => none

/-- A won compare-and-swap on `enqueue_pos`: who won it, in which of its calls, for which message.
The reservation for position `p` is entry `p` of the log. -/
structure Reservation (ι : Type) where
  producer : ι
  call : ℕ
  message : LoggerMessage

/-- The queue with its threads, and a history of what happened: the reservations in the order of
their positions, the records popped so far, and the number of push calls each producer made. -/
structure QueueSys (ι : Type) where
  q : Queue
  push : ι → PushPc
  pop : PopPc
  calls : ι → ℕ
  reserved : List (Reservation ι)
  popped : List LoggerMessage

/-- The initial state: no call in progress on a freshly initialised queue. -/
def QueueSys.init (ι : Type) : QueueSys ι :=
  { q := .init, push := fun _ => .idle, pop := .idle, calls := fun _ => 0, reserved := [],
    popped := [] }

/-- The actions of the queue's threads. -/
inductive QueueAction (ι : Type) where
  /-- Producer `i` calls `logger_queue_push` with `m`. -/
  | callPush (i : ι) (m : LoggerMessage)
  /-- Producer `i` takes the next step of its push. -/
  | push (i : ι) (choice : PushChoice)
  /-- The push of producer `i` returns to its caller. -/
  | returnPush (i : ι)
  /-- The consumer calls `logger_queue_try_pop` on an entry that holds `dst`. -/
  | callTryPop (dst : LoggerMessage)
  /-- The consumer calls `logger_queue_drain` with bound `max`. -/
  | callDrain (max : ℕ)
  /-- The consumer takes its next step. -/
  | pop (entry : LoggerMessage)
  /-- The call of the consumer returns. -/
  | returnPop

variable {ι : Type} [DecidableEq ι]

/-- Apply a step of producer `i`. -/
def QueueSys.applyPush (s : QueueSys ι) (i : ι) (e : PushEffect) : QueueSys ι :=
  { s with
    q := e.queue
    push := Function.update s.push i e.pc
    reserved := s.reserved ++ (e.won.map fun m => ⟨i, s.calls i, m⟩).toList }

/-- Apply a step of the consumer. -/
def QueueSys.applyPop (s : QueueSys ι) (e : PopEffect) : QueueSys ι :=
  { s with q := e.queue, pop := e.pc, popped := s.popped ++ e.taken.toList }

/-- One step of the queue's threads. -/
def queueNext (g : QueueGeometry) (s : QueueSys ι) : QueueAction ι → Option (QueueSys ι)
  -- a thread has one call at a time
  | .callPush i m =>
    match s.push i with
    | .idle => some { s with
        push := Function.update s.push i (.enter m)
        calls := Function.update s.calls i (s.calls i + 1) }
    | _ => none
  | .push i c => (pushStep g s.q c (s.push i)).map (s.applyPush i)
  | .returnPush i =>
    match s.push i with
    | .returned _ => some { s with push := Function.update s.push i .idle }
    | _ => none
  | .callTryPop dst =>
    match s.pop with
    | .idle => some { s with pop := .loadPos [] none dst }
    | _ => none
  -- the consumer too
  | .callDrain max =>
    match s.pop with
    | .idle => some { s with pop := .drainHead [] max }
    | _ => none
  | .pop entry => (popStep g s.q entry s.pop).map s.applyPop
  | .returnPop =>
    match s.pop with
    | .returned _ => some { s with pop := .idle }
    | _ => none

/-- The position a producer has loaded and not yet used. -/
def PushPc.loaded : PushPc → Option ℕ
  | .loadSeq _ _ pos => some pos
  | .casPos _ _ pos => some pos
  | _ => none

/-- A loaded position is recent: fewer than `2 ^ (w - 1) - cap` positions have been reserved since,
when positions wrap at `2 ^ w`. -/
def Recent (g : QueueGeometry) (enqueuePos pos : ℕ) : Prop :=
  match g.width with
  | .unbounded => True
  | .bits w => enqueuePos - pos < 2 ^ (w - 1) - g.cap

/-- No producer is suspended between loading a position and using it while half of the position
space, less one lap, is reserved. -/
def Fresh (g : QueueGeometry) (s : QueueSys ι) : Prop :=
  ∀ i pos, (s.push i).loaded = some pos → Recent g s.q.enqueuePos pos

/-- The states of the queue in the runs in which every loaded position is used while recent. With
unbounded positions these are all runs. -/
def QueueReachable (g : QueueGeometry) (s : QueueSys ι) : Prop :=
  TransitionSystem.Reachable (queueNext g) (fun s _ _ => Fresh g s) (.init ι) s

end CLogger
