import CLogger.Instance.Quiet

/-!
# The ring of an instance

What the operations of `queuePublish` and `loggerQueueDrain` do with the ring: each of them is one
or two steps of the queue.

* `pushRing_words`: a producer changes no word that the worker reads, until it publishes.
* `pushRing_reachable`, `popRing_reachable`: the ring of an instance is a queue of `Queue.Model`.
* `PushEffects`, `PopEffects`: what else the two operations do.
-/

namespace CLogger.Instance

open Concurrent

variable {g : QueueGeometry}

/-- A push leaves `dequeue_pos` alone, and the sequence words until it publishes. -/
theorem pushStep_words {c : PushChoice} {q : Queue} {pc : PushPc} {e : PushEffect}
    (h : pushStep g q c pc = some e) :
    e.queue.dequeuePos = q.dequeuePos ∧
      (e.pc ≠ .returned true → ∀ i, (e.queue.slots i).seq = (q.slots i).seq) := by
  cases pc with
  | idle => exact absurd h (by rintro ⟨⟩)
  | returned published => exact absurd h (by rintro ⟨⟩)
  -- up to the publication only the words of a spill change
  | enter m =>
    rw [pushStep] at h
    split_ifs at h <;> obtain rfl := Option.some.inj h <;> exact ⟨rfl, fun _ _ => rfl⟩
  | spillLoad m start n =>
    obtain rfl := Option.some.inj h
    exact ⟨rfl, fun _ _ => rfl⟩
  | spillCas m start n used =>
    rw [pushStep] at h
    split_ifs at h <;> obtain rfl := Option.some.inj h <;> exact ⟨rfl, fun _ _ => rfl⟩
  | spillCopy m index =>
    obtain rfl := Option.some.inj h
    exact ⟨rfl, fun _ _ => rfl⟩
  | spillFull m =>
    obtain rfl := Option.some.inj h
    exact ⟨rfl, fun _ _ => rfl⟩
  | loadPos m spill =>
    obtain rfl := Option.some.inj h
    exact ⟨rfl, fun _ _ => rfl⟩
  -- the sequence word is only read
  | loadSeq m spill pos =>
    rw [pushStep] at h
    split at h <;> obtain rfl := Option.some.inj h <;> exact ⟨rfl, fun _ _ => rfl⟩
  | casPos m spill pos =>
    rw [pushStep] at h
    split_ifs at h <;> obtain rfl := Option.some.inj h <;> exact ⟨rfl, fun _ _ => rfl⟩
  | giveBack m spill =>
    obtain rfl := Option.some.inj h
    cases spill <;> exact ⟨rfl, fun _ _ => rfl⟩
  -- the words of the slot are written one by one, and the sequence word last
  | pack m spill pos rest =>
    cases rest with
    | nil =>
      obtain rfl := Option.some.inj h
      exact ⟨rfl, fun hpc => absurd rfl hpc⟩
    | cons w rest =>
      obtain rfl := Option.some.inj h
      refine ⟨rfl, fun _ i => ?_⟩
      by_cases hi : i = g.slotIndex pos
      · subst hi
        show (Function.update q.slots _ _ _).seq = _
        -- the slot is the one the position belongs to
        rw [Function.update_self]
      · exact congrArg Slot.seq (Function.update_of_ne hi _ _)

/-- A step of a push of an instance is a step of the queue, and the return of the push when that
step ends it. -/
theorem pushRing_cases {n : ℕ} {c : PushChoice} {ring ring' : QueueSys ℕ} {r : Unit ⊕ Bool}
    (h : pushRing g n c ring = some (r, ring')) :
    ∃ e, pushStep g ring.q c (ring.push n) = some e ∧
      ((∃ published, e.pc = .returned published ∧ r = .inr published ∧
          ring' = { ring.applyPush n e with
            push := Function.update (ring.applyPush n e).push n .idle }) ∨
        ((∀ published, e.pc ≠ .returned published) ∧ r = .inl () ∧
        ring' = ring.applyPush n e)) := by
  obtain ⟨ring₁, hpush, hrest⟩ := Option.bind_eq_some_iff.mp h
  obtain ⟨e, he, rfl⟩ := Option.map_eq_some_iff.mp hpush
  refine ⟨e, he, ?_⟩
  have hpc : (ring.applyPush n e).push n = e.pc := applyPush_push ring n e
  split at hrest
  · rename_i published hreturned
    refine .inl ⟨published, hpc.symm.trans hreturned, ?_⟩
    rw [queueNext, hreturned] at hrest
    obtain ⟨rfl, rfl⟩ := Prod.mk.inj (Option.some.inj hrest)
    exact ⟨rfl, rfl⟩
  · rename_i hrunning
    obtain ⟨rfl, rfl⟩ := Prod.mk.inj (Option.some.inj hrest)
    refine .inr ⟨fun published hreturned => hrunning published ?_, rfl, rfl⟩
    exact hpc.trans hreturned

/-- A producer changes no word that the worker reads, until it publishes. -/
theorem pushRing_words {n : ℕ} {c : PushChoice} {ring ring' : QueueSys ℕ} {r : Unit ⊕ Bool}
    (h : pushRing g n c ring = some (r, ring')) :
    ring'.q.dequeuePos = ring.q.dequeuePos ∧
      (r ≠ .inr true → ∀ i, (ring'.q.slots i).seq = (ring.q.slots i).seq) := by
  obtain ⟨e, he, hr⟩ := pushRing_cases h
  obtain ⟨hpos, hseq⟩ := pushStep_words he
  rcases hr with ⟨published, hpc, rfl, rfl⟩ | ⟨hpc, -, rfl⟩
  · refine ⟨hpos, fun hne => hseq fun hreturned => hne ?_⟩
    obtain rfl := PushPc.returned.inj (hpc.symm.trans hreturned)
    rfl
  · exact ⟨hpos, fun _ => hseq (hpc true)⟩

/-- The producer has reserved a position and not returned yet. -/
def packed : PushPc → ℕ
  | .pack .. => 1
  | .returned true => 1
  | _ => 0

theorem packed_spillNext (m : LoggerMessage) (start n : ℕ) (used : BitVec 32) :
    packed (spillNext g m start n used) = 0 := by
  unfold spillNext
  split_ifs <;> rfl

/-- A step of a push adds a reservation when it wins its position. -/
theorem pushStep_packed {c : PushChoice} {q : Queue} {pc : PushPc} {e : PushEffect}
    (h : pushStep g q c pc = some e) : packed e.pc = packed pc + e.won.toList.length := by
  cases pc with
  | idle => exact absurd h (by rintro ⟨⟩)
  | returned published => exact absurd h (by rintro ⟨⟩)
  | enter m =>
    rw [pushStep] at h
    split_ifs at h <;> obtain rfl := Option.some.inj h <;> rfl
  | spillLoad m start n =>
    obtain rfl := Option.some.inj h
    exact packed_spillNext m start n _
  | spillCas m start n used =>
    rw [pushStep] at h
    split_ifs at h <;> obtain rfl := Option.some.inj h
    · rfl
    · exact packed_spillNext m start n _
  | spillCopy m index =>
    obtain rfl := Option.some.inj h
    rfl
  | spillFull m =>
    obtain rfl := Option.some.inj h
    rfl
  | loadPos m spill =>
    obtain rfl := Option.some.inj h
    rfl
  | loadSeq m spill pos =>
    rw [pushStep] at h
    split at h <;> obtain rfl := Option.some.inj h <;> rfl
  -- the position is won here, and nowhere else
  | casPos m spill pos =>
    rw [pushStep] at h
    split_ifs at h <;> obtain rfl := Option.some.inj h <;> rfl
  | giveBack m spill =>
    obtain rfl := Option.some.inj h
    rfl
  | pack m spill pos rest =>
    cases rest <;> obtain rfl := Option.some.inj h <;> rfl

/-- A step that ends a push reserves no position. -/
theorem pushStep_returned {c : PushChoice} {q : Queue} {pc : PushPc} {e : PushEffect}
    {published : Bool} (h : pushStep g q c pc = some e) (hpc : e.pc = .returned published) :
    e.queue.enqueuePos = q.enqueuePos := by
  cases pc with
  | idle => exact absurd h (by rintro ⟨⟩)
  | returned published => exact absurd h (by rintro ⟨⟩)
  | enter m =>
    rw [pushStep] at h
    split_ifs at h <;> obtain rfl := Option.some.inj h <;> rfl
  | spillLoad m start n =>
    obtain rfl := Option.some.inj h
    rfl
  | spillCas m start n used =>
    rw [pushStep] at h
    split_ifs at h <;> obtain rfl := Option.some.inj h <;> rfl
  | spillCopy m index =>
    obtain rfl := Option.some.inj h
    rfl
  | spillFull m =>
    obtain rfl := Option.some.inj h
    rfl
  | loadPos m spill =>
    obtain rfl := Option.some.inj h
    rfl
  | loadSeq m spill pos =>
    rw [pushStep] at h
    split at h <;> obtain rfl := Option.some.inj h <;> rfl
  -- the only step that moves `enqueue_pos` goes on to the writing
  | casPos m spill pos =>
    rw [pushStep] at h
    split_ifs at h <;> obtain rfl := Option.some.inj h
    · exact absurd hpc (by rintro ⟨⟩)
    · rfl
  | giveBack m spill =>
    obtain rfl := Option.some.inj h
    exact Queue.spillPut_enqueuePos q spill
  | pack m spill pos rest =>
    cases rest <;> obtain rfl := Option.some.inj h <;> rfl

/-- What a step of a push does with the rest of the ring. -/
structure PushEffects (n : ℕ) (ring : QueueSys ℕ) (r : Unit ⊕ Bool) (ring' : QueueSys ℕ) :
    Prop where
  others : ∀ m, m ≠ n → ring'.push m = ring.push m
  pop : ring'.pop = ring.pop
  popped : ring'.popped = ring.popped
  dequeuePos : ring'.q.dequeuePos = ring.q.dequeuePos
  /-- The position of a published record has been reserved in this push. -/
  reserved : ring'.reserved.length + packed (ring.push n) =
    ring.reserved.length + r.elim (fun _ => packed (ring'.push n)) fun published => published.toNat
  grown : ring.reserved.length ≤ ring'.reserved.length
  idle : ∀ published, r = .inr published → ring'.push n = .idle

theorem pushRing_effects {n : ℕ} {c : PushChoice} {ring ring' : QueueSys ℕ} {r : Unit ⊕ Bool}
    (h : pushRing g n c ring = some (r, ring')) : PushEffects n ring r ring' := by
  have hpos := (pushRing_words h).1
  obtain ⟨e, he, hr⟩ := pushRing_cases h
  have hpacked := pushStep_packed he
  have hreserved : (ring.applyPush n e).reserved.length =
      ring.reserved.length + e.won.toList.length := by
    cases hwon : e.won <;> simp only [QueueSys.applyPush, hwon, Option.map_none, Option.map_some,
      Option.toList_none, Option.toList_some, List.append_nil, List.length_append, List.length_nil,
      List.length_cons, Nat.add_zero]
  rcases hr with ⟨published, hpc, rfl, rfl⟩ | ⟨hpc, rfl, rfl⟩
  · refine ⟨fun m hm => ?_, rfl, ?_, hpos, ?_, hreserved.ge.trans' (Nat.le_add_right _ _),
      fun _ _ => Function.update_self _ _ _⟩
    · exact (Function.update_of_ne hm _ _).trans (Function.update_of_ne hm _ _)
    · rfl
    · show (ring.applyPush n e).reserved.length + _ = _ + published.toNat
      rw [hpc] at hpacked
      cases published <;> simp only [packed, Bool.toNat_false, Bool.toNat_true] at hpacked ⊢ <;>
        omega
  · refine ⟨fun m hm => Function.update_of_ne hm _ _, rfl, rfl, hpos, ?_,
      hreserved.ge.trans' (Nat.le_add_right _ _), fun published hr => absurd hr (by rintro ⟨⟩)⟩
    show (ring.applyPush n e).reserved.length + _ = _ + packed ((ring.applyPush n e).push n)
    rw [applyPush_push, hpacked]
    omega

/-- The entry of a push. -/
theorem callPush_effects {n : ℕ} {m : LoggerMessage} {ring ring' : QueueSys ℕ}
    (h : queueNext g ring (.callPush n m) = some ring') : PushEffects n ring (.inl ()) ring' := by
  rw [queueNext] at h
  split at h
  · rename_i hidle
    obtain rfl := Option.some.inj h
    refine ⟨fun u hu => Function.update_of_ne hu _ _, rfl, rfl, rfl, ?_, le_rfl,
      fun published hr => absurd hr (by rintro ⟨⟩)⟩
    simp only [hidle, Sum.elim_inl, Function.update_self, packed]
  · exact absurd h (by rintro ⟨⟩)

theorem pushRing_reachable {n : ℕ} {c : PushChoice} {ring ring' : QueueSys ℕ} {r : Unit ⊕ Bool}
    (hring : QueueReachable g ring) (hfresh : Fresh g ring)
    (h : pushRing g n c ring = some (r, ring')) : QueueReachable g ring' := by
  obtain ⟨e, he, hr⟩ := pushRing_cases h
  have hpush : queueNext g ring (.push n c) = some (ring.applyPush n e) := by
    rw [queueNext, he]
    rfl
  have hmid := hring.tail hpush hfresh
  rcases hr with ⟨published, hpc, -, rfl⟩ | ⟨-, -, rfl⟩
  · have hreturn : queueNext g (ring.applyPush n e) (.returnPush n) =
        some { ring.applyPush n e with
          push := Function.update (ring.applyPush n e).push n .idle } := by
      rw [queueNext, applyPush_push, hpc]
    refine hmid.tail hreturn fun i pos hpos => ?_
    -- a producer that returns has no loaded position, and `enqueue_pos` has not moved
    by_cases hi : i = n
    · rw [hi, applyPush_push, hpc] at hpos
      exact absurd hpos (by rintro ⟨⟩)
    · have hsame : (ring.applyPush n e).push i = ring.push i := Function.update_of_ne hi _ _
      rw [hsame] at hpos
      show Recent g e.queue.enqueuePos pos
      rw [pushStep_returned he hpc]
      exact hfresh i pos hpos
  · exact hmid

/-- A step of a pop takes what it hands out. -/
theorem popStep_out {q : Queue} {entry : LoggerMessage} {pc : PopPc} {e : PopEffect}
    (h : popStep g q entry pc = some e) :
    e.pc.out = pc.out ++ e.taken.toList ∧ e.pc ≠ .idle ∧ e.queue.enqueuePos = q.enqueuePos := by
  cases pc with
  | idle => exact absurd h (by rintro ⟨⟩)
  | returned out => exact absurd h (by rintro ⟨⟩)
  -- only the last step of a record hands it out
  | drainHead out max =>
    rw [popStep] at h
    split_ifs at h <;> obtain rfl := Option.some.inj h <;>
      exact ⟨(List.append_nil _).symm, by rintro ⟨⟩, rfl⟩
  | loadPos out max dst =>
    obtain rfl := Option.some.inj h
    exact ⟨(List.append_nil _).symm, by rintro ⟨⟩, rfl⟩
  | loadSeq out max dst pos =>
    rw [popStep] at h
    split_ifs at h <;> obtain rfl := Option.some.inj h <;>
      exact ⟨(List.append_nil _).symm, by rintro ⟨⟩, rfl⟩
  | readSpill out max dst pos =>
    obtain rfl := Option.some.inj h
    exact ⟨(List.append_nil _).symm, by rintro ⟨⟩, rfl⟩
  | unpack out max dst pos spill rest =>
    cases rest with
    | nil =>
      obtain rfl := Option.some.inj h
      exact ⟨(List.append_nil _).symm, by rintro ⟨⟩, Queue.spillPut_enqueuePos q spill⟩
    | cons read rest =>
      obtain rfl := Option.some.inj h
      exact ⟨(List.append_nil _).symm, by rintro ⟨⟩, rfl⟩
  | storeSeq out max dst pos =>
    obtain rfl := Option.some.inj h
    exact ⟨(List.append_nil _).symm, by rintro ⟨⟩, rfl⟩
  -- the record read so far is the one that is handed out
  | storePos out max dst pos =>
    obtain rfl := Option.some.inj h
    cases max with
    | none => exact ⟨rfl, by rintro ⟨⟩, rfl⟩
    | some max => exact ⟨rfl, by rintro ⟨⟩, rfl⟩

/-- What a step of the drain does with the rest of the ring. -/
structure PopEffects (ring : QueueSys ℕ) (r : Unit ⊕ List LoggerMessage) (ring' : QueueSys ℕ) :
    Prop where
  push : ring'.push = ring.push
  reserved : ring'.reserved = ring.reserved
  enqueuePos : ring'.q.enqueuePos = ring.q.enqueuePos
  /-- The call hands out what has been popped since it began. -/
  popped : ∃ taken, ring'.popped = ring.popped ++ taken ∧
    r.elim (fun _ => ring'.pop.out) id = ring.pop.out ++ taken
  idle : ∀ out, r = .inr out → ring'.pop = .idle

theorem popRing_cases {entry : LoggerMessage} {ring ring' : QueueSys ℕ}
    {r : Unit ⊕ List LoggerMessage} (h : popRing g entry ring = some (r, ring')) :
    ∃ e, popStep g ring.q entry ring.pop = some e ∧
      ((∃ out, e.pc = .returned out ∧ r = .inr out ∧
          ring' = { ring.applyPop e with pop := .idle }) ∨
        (r = .inl () ∧ ring' = ring.applyPop e)) := by
  obtain ⟨ring₁, hpop, hrest⟩ := Option.bind_eq_some_iff.mp h
  obtain ⟨e, he, rfl⟩ := Option.map_eq_some_iff.mp hpop
  refine ⟨e, he, ?_⟩
  split at hrest
  · rename_i out hreturned
    refine .inl ⟨out, hreturned, ?_⟩
    rw [queueNext, hreturned] at hrest
    obtain ⟨rfl, rfl⟩ := Prod.mk.inj (Option.some.inj hrest)
    exact ⟨rfl, rfl⟩
  · obtain ⟨rfl, rfl⟩ := Prod.mk.inj (Option.some.inj hrest)
    exact .inr ⟨rfl, rfl⟩

theorem popRing_effects {entry : LoggerMessage} {ring ring' : QueueSys ℕ}
    {r : Unit ⊕ List LoggerMessage} (h : popRing g entry ring = some (r, ring')) :
    PopEffects ring r ring' := by
  obtain ⟨e, he, hr⟩ := popRing_cases h
  obtain ⟨hout, -, henq⟩ := popStep_out he
  rcases hr with ⟨out, hpc, rfl, rfl⟩ | ⟨rfl, rfl⟩
  · refine ⟨rfl, rfl, henq, ⟨e.taken.toList, rfl, ?_⟩, fun _ _ => rfl⟩
    rw [hpc] at hout
    exact hout
  · exact ⟨rfl, rfl, henq, ⟨e.taken.toList, rfl, hout⟩, fun _ hr => absurd hr (by rintro ⟨⟩)⟩

theorem popRing_reachable {entry : LoggerMessage} {ring ring' : QueueSys ℕ}
    {r : Unit ⊕ List LoggerMessage} (hring : QueueReachable g ring) (hfresh : Fresh g ring)
    (h : popRing g entry ring = some (r, ring')) : QueueReachable g ring' := by
  obtain ⟨e, he, hr⟩ := popRing_cases h
  have hpop : queueNext g ring (.pop entry) = some (ring.applyPop e) := by
    rw [queueNext, he]
    rfl
  have hmid := hring.tail hpop hfresh
  rcases hr with ⟨out, hpc, -, rfl⟩ | ⟨-, rfl⟩
  · have hreturn : queueNext g (ring.applyPop e) .returnPop =
        some { ring.applyPop e with pop := .idle } := by
      have hdone : (ring.applyPop e).pop = .returned out := hpc
      rw [queueNext, hdone]
    refine hmid.tail hreturn fun i pos hpos => ?_
    show Recent g e.queue.enqueuePos pos
    rw [(popStep_out he).2.2]
    exact hfresh i pos hpos
  · exact hmid

end CLogger.Instance
