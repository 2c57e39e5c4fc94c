import CLogger.Errno
import CLogger.Lib.SizeT
import CLogger.Queue.Steps
import Mathlib.Data.Nat.Log
import Mathlib.Order.Bounds.Basic

/-!
# The sizes of a queue, in machine words

`logger_queue_init` computes the capacity of a queue, its spill capacity and its storage size in
`size_t`. The definitions below are that code with every operation on words of the width of
`size_t`, where a product, a sum or a difference that leaves the range wraps silently.

## Main results

* `SizeWords.queueCapacityLoop_eq`: the doubling loop ends, at the least power of two.
* `SizeWords.loggerQueueInit_layout`: the unbounded sizing of `Queue.Model` is what the words
  compute, so no accepted size is the result of a wrap-around.
* `queue_sizing_exact`: when the sizing succeeds, with which sizes, and what positions and bitmap
  words mean under them.
-/

namespace CLogger

open SizeWidth

/-- The words of `size_t` on a platform and the sizes of the two records of a queue, which like
those of all types are positive. -/
structure SizeWords extends SizeWidth where
  /-- `sizeof(struct logger_queue_slot)`. -/
  slotSize : BitVec bits
  /-- `sizeof(struct logger_queue_spill)`. -/
  spillSize : BitVec bits
  slotSize_pos : 0 < slotSize
  spillSize_pos : 0 < spillSize

namespace SizeWords

variable (T : SizeWords)

/-- The doubling loop of `queue_capacity`; `none` is a loop that the fuel did not see end. -/
def queueCapacityLoop (requested : T.SizeT) : ℕ → T.SizeT → Option (Except ℤ T.SizeT)
  | 0, _ => none
  | fuel + 1, n =>
    if n < requested then
      if T.sizeMax / 2#T.bits < n then some (.error eoverflow)
      else queueCapacityLoop requested fuel (n * 2#T.bits)
    else some (.ok n)

/-- `queue_capacity`. -/
def queueCapacity (requested : T.SizeT) : Option (Except ℤ T.SizeT) :=
  match T.queueCapacityLoop (if requested < 2#T.bits then 2#T.bits else requested) (T.bits + 1)
      2#T.bits with
  | none => none
  | some (.error e) => some (.error e)
  | some (.ok n) =>
    if T.sizeMax / 2#T.bits < n ∨ T.sizeMax / T.slotSize < n then some (.error eoverflow)
    else some (.ok n)

/-- `queue_spill_capacity`. -/
def queueSpillCapacity (queueCap : T.SizeT) : T.SizeT :=
  if queueCap < BitVec.ofNat T.bits loggerQueueSpillLimit then queueCap
  else BitVec.ofNat T.bits loggerQueueSpillLimit

/-- `queue_storage_size`. -/
def queueStorageSize (queueCap spillCap : T.SizeT) : Except ℤ T.SizeT :=
  if T.sizeMax / T.spillSize < spillCap then .error (-eoverflow)
  else
    let spillBytes := spillCap * T.spillSize
    if (T.sizeMax - spillBytes) / T.slotSize < queueCap then .error (-eoverflow)
    else .ok (queueCap * T.slotSize + spillBytes)

end SizeWords

/-- The fields of `struct logger_queue` that `logger_queue_init` writes. The words of the ring
and of the bitmap are those of `Queue`, once the arrays are there. -/
structure QueueObject (T : SizeWords) where
  slots : Option ℕ
  cap : T.SizeT
  mask : T.SizeT
  spills : Option ℕ
  spillCap : T.SizeT
  storageBytes : T.SizeT
  ring : Option Queue
  waitMuError : ℤ

/-- The object after `memset(q, 0, sizeof(*q))`. -/
def QueueObject.zero (T : SizeWords) : QueueObject T :=
  { slots := none, cap := 0, mask := 0, spills := none, spillCap := 0, storageBytes := 0,
    ring := none, waitMuError := 0 }

/-- What `logger_queue_init` asks of the allocator and of the thread library. -/
inductive QueueInitCall (T : SizeWords) where
  | calloc (count size : T.SizeT)
  | free (pointer : ℕ)
  | mutexInit
  | condInit
  | mutexDestroy

/-- What they answer: a pointer or an error number, and `0` or an error number. -/
structure QueueInitAnswers where
  slots : Except ℤ ℕ
  spills : Except ℤ ℕ
  mutexInit : ℤ
  condInit : ℤ
  mutexDestroy : ℤ

/-- The end of a call of `logger_queue_init`. -/
structure QueueInitRun (T : SizeWords) where
  ret : ℤ
  errno : ℤ
  queue : QueueObject T
  calls : List (QueueInitCall T)

namespace SizeWords

variable (T : SizeWords)

/-- The part of `logger_queue_init` after the sizes are known. The arrays are freed on every
return before the two pointers are stored. -/
def loggerQueueInitStorage (a : QueueInitAnswers) (errno : ℤ) (q : QueueObject T) :
    QueueInitRun T :=
  match a.slots with
  | .error e => ⟨-1, e, q, [.calloc q.cap T.slotSize]⟩
  | .ok slots =>
    let allocated := [.calloc q.cap T.slotSize, .calloc q.spillCap T.spillSize]
    match a.spills with
    | .error e => ⟨-1, e, q, allocated ++ [.free slots]⟩
    | .ok spills =>
      if a.mutexInit ≠ 0 then
        ⟨-1, a.mutexInit, { q with ring := some .init },
          allocated ++ [.mutexInit, .free spills, .free slots]⟩
      else if a.condInit ≠ 0 then
        ⟨-1, a.condInit,
          { q with
            ring := some .init
            waitMuError := if a.mutexDestroy ≠ 0 then a.mutexDestroy else q.waitMuError },
          allocated ++ [.mutexInit, .condInit, .mutexDestroy, .free spills, .free slots]⟩
      else
        ⟨0, errno, { q with ring := some .init, slots := some slots, spills := some spills },
          allocated ++ [.mutexInit, .condInit]⟩

/-- `logger_queue_init`, entered with `errno`; `none` only if the capacity loop does not end. -/
def loggerQueueInit (a : QueueInitAnswers) (errno : ℤ) (requested : T.SizeT) :
    Option (QueueInitRun T) :=
  match T.queueCapacity requested with
  | none => none
  | some (.error e) => some ⟨-1, e, .zero T, []⟩
  | some (.ok capacity) =>
    let spillCapacity := T.queueSpillCapacity capacity
    let q : QueueObject T :=
      { QueueObject.zero T with cap := capacity, mask := capacity - 1, spillCap := spillCapacity }
    match T.queueStorageSize capacity spillCapacity with
    | .error _ => some ⟨-1, eoverflow, q, []⟩
    | .ok storageBytes =>
      some (T.loggerQueueInitStorage a errno { q with storageBytes := storageBytes })

/-- `spill_valid_mask`. -/
def spillValidMask (spillCap word : T.SizeT) : BitVec 32 :=
  let first := word * BitVec.ofNat T.bits loggerQueueSpillWordBits
  let remaining := spillCap - first
  if BitVec.ofNat T.bits loggerQueueSpillWordBits ≤ remaining then BitVec.allOnes 32
  else (1#32 <<< remaining.toNat) - 1#32

/-- The number of bitmap words that `queue_spill_try_take` visits. -/
def spillWords (spillCap : T.SizeT) : T.SizeT :=
  (spillCap + BitVec.ofNat T.bits loggerQueueSpillWordBits - 1) /
    BitVec.ofNat T.bits loggerQueueSpillWordBits

/-- What a scan sees: attempt `k` on the word it visits as number `n` finds `used n k` there, and
its compare-and-swap succeeds or not. -/
structure ScanView where
  used : ℕ → ℕ → BitVec 32
  swapped : ℕ → ℕ → Bool

/-- The inner loop of `queue_spill_try_take` from attempt `k` on. `none` is a loop that the fuel
did not see end, `some none` a word without a free block. -/
def spillTryWord (v : ScanView) (n : ℕ) (valid : BitVec 32) (word : T.SizeT) :
    ℕ → ℕ → Option (Option (BitVec 32))
  | 0, _ => none
  | fuel + 1, k =>
    let available := ~~~(v.used n k) &&& valid
    if available = 0#32 then some none
    else if v.swapped n k then
      let index := word * BitVec.ofNat T.bits loggerQueueSpillWordBits +
        BitVec.ofNat T.bits available.ctz.toNat
      some (some (BitVec.ofNat 32 index.toNat))
    else spillTryWord v n valid word fuel (k + 1)

/-- The outer loop of `queue_spill_try_take`, `left` words before its end. -/
def spillTryWords (v : ScanView) (fuel : ℕ) (spillCap start : T.SizeT) :
    ℕ → ℕ → Option (Option (BitVec 32))
  | 0, _ => some none
  | left + 1, n =>
    let word := (start + BitVec.ofNat T.bits n) % T.spillWords spillCap
    match T.spillTryWord v n (T.spillValidMask spillCap word) word fuel 0 with
    | some none => spillTryWords v fuel spillCap start left (n + 1)
    | found => found

/-- `queue_spill_try_take`: the block it takes, if it takes one. `cursor` is the thread's seed
plus its probe cursor. -/
def queueSpillTryTake (v : ScanView) (fuel : ℕ) (spillCap cursor : T.SizeT) :
    Option (Option (BitVec 32)) :=
  T.spillTryWords v fuel spillCap (cursor % T.spillWords spillCap)
    (T.spillWords spillCap).toNat 0

end SizeWords

section Arithmetic

namespace SizeWords

variable (T : SizeWords)

@[simp] theorem toNat_two : (2#T.bits).toNat = 2 := by
  exact T.toNat_ofNat_small (by decide)

@[simp] theorem toNat_spillLimit :
    (BitVec.ofNat T.bits loggerQueueSpillLimit).toNat = 1024 := by
  exact T.toNat_ofNat_small (by decide)

@[simp] theorem toNat_spillWordBits :
    (BitVec.ofNat T.bits loggerQueueSpillWordBits).toNat = 32 := by
  exact T.toNat_ofNat_small (by decide)

/-- `SIZE_MAX / 2` is one below half the range. -/
theorem toNat_half : (T.sizeMax / 2#T.bits).toNat = 2 ^ (T.bits - 1) - 1 := by
  rw [BitVec.toNat_udiv, toNat_sizeMax, toNat_two, WrapCounter.half_max T.bits_pos]

/-- A value that passed the guard `n > SIZE_MAX / 2` doubles exactly. -/
theorem toNat_double {n : T.SizeT} (h : ¬T.sizeMax / 2#T.bits < n) :
    (n * 2#T.bits).toNat = n.toNat * 2 := by
  rw [BitVec.lt_def, toNat_half] at h
  have hrange := WrapCounter.two_mul_half T.bits_pos
  have hpos := Nat.two_pow_pos (T.bits - 1)
  rw [BitVec.toNat_mul_of_lt (by rw [toNat_two]; omega), toNat_two]

end SizeWords

end Arithmetic

section Capacity

/-- The least power of two that is at least `2` and at least the request. -/
def leastCapacity (requested : ℕ) : ℕ := 2 ^ Nat.clog 2 (max 2 requested)

theorem isLeast_leastCapacity (requested : ℕ) :
    IsLeast {n | (∃ k, n = 2 ^ k) ∧ max 2 requested ≤ n} (leastCapacity requested) := by
  constructor
  · exact ⟨⟨_, rfl⟩, Nat.le_pow_clog (by decide) _⟩
  · rintro n ⟨⟨k, rfl⟩, hle⟩
    exact Nat.pow_le_pow_right (by decide) (Nat.clog_le_of_le_pow hle)

theorem two_le_leastCapacity (requested : ℕ) : 2 ≤ leastCapacity requested :=
  le_trans (le_max_left _ _) (isLeast_leastCapacity requested).1.2

namespace SizeWords

variable (T : SizeWords)

/-- The doubling loop from `2 ^ k` on ends within `bits - k` rounds: at the least power of two
from there that covers the request, or with `EOVERFLOW` when that power is not a `size_t`. -/
theorem queueCapacityLoop_eq {requested n : T.SizeT} {fuel k : ℕ} (hn : n.toNat = 2 ^ k)
    (hk : k < T.bits) (hfuel : T.bits ≤ fuel + k) :
    T.queueCapacityLoop requested fuel n =
      if requested.toNat ≤ 2 ^ (T.bits - 1) then
        some (.ok (BitVec.ofNat T.bits (2 ^ max k (Nat.clog 2 requested.toNat))))
      else some (.error eoverflow) := by
  induction fuel generalizing n k with
  | zero => omega
  | succ fuel ih =>
    rw [queueCapacityLoop]
    by_cases hlt : n < requested
    · rw [if_pos hlt]
      rw [BitVec.lt_def, hn] at hlt
      -- the guard stops the loop exactly at the largest power of two that `size_t` holds
      have hguard : T.sizeMax / 2#T.bits < n ↔ k = T.bits - 1 := by
        rw [BitVec.lt_def, toNat_half, hn]
        constructor
        · intro h
          by_contra hne
          have hpow : 2 ^ (k + 1) ≤ 2 ^ (T.bits - 1) := Nat.pow_le_pow_right (by decide) (by omega)
          have := Nat.two_pow_pos k
          rw [pow_succ] at hpow
          omega
        · rintro rfl
          have := Nat.two_pow_pos (T.bits - 1)
          omega
      -- at the last power of two the loop gives up
      by_cases hlast : k = T.bits - 1
      · rw [if_pos (hguard.mpr hlast), if_neg (by rw [← hlast]; omega)]
      · have hpass : ¬T.sizeMax / 2#T.bits < n := fun h => hlast (hguard.mp h)
        -- below it the doubling is exact
        have hdouble : (n * 2#T.bits).toNat = 2 ^ (k + 1) := by
          rw [T.toNat_double hpass, hn, pow_succ]
        have hclog : k < Nat.clog 2 requested.toNat := (Nat.lt_clog_iff_pow_lt (by decide)).mpr hlt
        rw [if_neg hpass, ih hdouble (by omega) (by omega), max_eq_right hclog,
          max_eq_right hclog.le]
    -- the capacity covers the request
    · rw [if_neg hlt]
      rw [BitVec.lt_def, hn, not_lt] at hlt
      have hclog : Nat.clog 2 requested.toNat ≤ k := Nat.clog_le_of_le_pow hlt
      have hle : 2 ^ k ≤ 2 ^ (T.bits - 1) := Nat.pow_le_pow_right (by decide) (by omega)
      rw [if_pos (by omega), max_eq_left hclog, ← hn, BitVec.ofNat_toNat, BitVec.setWidth_eq]

/-- The request as `queue_capacity` uses it. -/
theorem toNat_atLeastTwo (requested : T.SizeT) :
    (if requested < 2#T.bits then 2#T.bits else requested).toNat = max 2 requested.toNat := by
  split
  · rename_i hlt
    rw [BitVec.lt_def, toNat_two] at hlt
    rw [toNat_two]
    omega
  · rename_i hge
    rw [BitVec.lt_def, toNat_two] at hge
    omega

/-- `queue_capacity` returns the least power of two, or `EOVERFLOW` when that capacity takes half
of the positions or its slots take more than `SIZE_MAX` bytes. -/
theorem queueCapacity_eq (requested : T.SizeT) :
    T.queueCapacity requested =
      if leastCapacity requested.toNat ≤ (2 ^ T.bits - 1) / 2 ∧
          leastCapacity requested.toNat * T.slotSize.toNat ≤ 2 ^ T.bits - 1 then
        some (.ok (BitVec.ofNat T.bits (leastCapacity requested.toNat)))
      else some (.error eoverflow) := by
  -- the least request is 2, where the loop begins
  have hbits := T.bits_ge
  have hslot : 0 < T.slotSize.toNat := by simpa [BitVec.lt_def] using T.slotSize_pos
  have hclog : 1 ≤ Nat.clog 2 (max 2 requested.toNat) :=
    Nat.clog_pos (by decide) (lt_of_lt_of_le (by decide) (le_max_left _ _))
  rw [queueCapacity, T.queueCapacityLoop_eq (k := 1) T.toNat_two (by omega) (by omega),
    toNat_atLeastTwo, max_eq_right hclog, ← leastCapacity]
  by_cases hfound : max 2 requested.toNat ≤ 2 ^ (T.bits - 1)
  · -- the loop found a capacity; the guards after it decide
    have hle : leastCapacity requested.toNat ≤ 2 ^ (T.bits - 1) :=
      Nat.pow_le_pow_right (by decide) (Nat.clog_le_of_le_pow hfound)
    have hrange := WrapCounter.two_mul_half T.bits_pos
    have hpos := Nat.two_pow_pos (T.bits - 1)
    have hcap : (BitVec.ofNat T.bits (leastCapacity requested.toNat)).toNat =
        leastCapacity requested.toNat := by
      rw [BitVec.toNat_ofNat, Nat.mod_eq_of_lt (by omega)]
    have hhalf : T.sizeMax / 2#T.bits < BitVec.ofNat T.bits (leastCapacity requested.toNat) ↔
        ¬leastCapacity requested.toNat ≤ (2 ^ T.bits - 1) / 2 := by
      rw [BitVec.lt_def, BitVec.toNat_udiv, toNat_sizeMax, toNat_two, hcap, not_le]
    have hslots : T.sizeMax / T.slotSize < BitVec.ofNat T.bits (leastCapacity requested.toNat) ↔
        ¬leastCapacity requested.toNat * T.slotSize.toNat ≤ 2 ^ T.bits - 1 := by
      rw [BitVec.lt_def, BitVec.toNat_udiv, toNat_sizeMax, hcap, ← Nat.le_div_iff_mul_le hslot,
        not_le]
    rw [if_pos hfound]
    simp only [hhalf, hslots, ← not_and_or]
    split_ifs <;> simp_all
  -- the loop found none, so the least power is too large for half of the positions
  · rw [if_neg hfound]
    have hbig : ¬leastCapacity requested.toNat ≤ (2 ^ T.bits - 1) / 2 := by
      have hle := (isLeast_leastCapacity requested.toNat).1.2
      rw [WrapCounter.half_max T.bits_pos]
      omega
    rw [if_neg fun h => hbig h.1]

theorem toNat_queueSpillCapacity (queueCap : T.SizeT) :
    (T.queueSpillCapacity queueCap).toNat = min queueCap.toNat 1024 := by
  rw [queueSpillCapacity]
  split
  · rename_i hlt
    rw [BitVec.lt_def, toNat_spillLimit] at hlt
    rw [min_eq_left hlt.le]
  · rename_i hge
    rw [BitVec.lt_def, toNat_spillLimit] at hge
    rw [toNat_spillLimit, min_eq_right (by omega)]

/-- `queue_storage_size` returns the size of both arrays whenever that is a `size_t`. -/
theorem queueStorageSize_eq (queueCap spillCap : T.SizeT) :
    T.queueStorageSize queueCap spillCap =
      if queueCap.toNat * T.slotSize.toNat + spillCap.toNat * T.spillSize.toNat ≤
          2 ^ T.bits - 1 then
        .ok (queueCap * T.slotSize + spillCap * T.spillSize)
      else .error (-eoverflow) := by
  have hslot : 0 < T.slotSize.toNat := by simpa [BitVec.lt_def] using T.slotSize_pos
  have hspill : 0 < T.spillSize.toNat := by simpa [BitVec.lt_def] using T.spillSize_pos
  rw [queueStorageSize]
  by_cases hguard : T.sizeMax / T.spillSize < spillCap
  · rw [if_pos hguard]
    rw [BitVec.lt_def, BitVec.toNat_udiv, toNat_sizeMax, Nat.div_lt_iff_lt_mul hspill] at hguard
    rw [if_neg (by omega)]
  · have hbytes := SizeWidth.toNat_mul_of_guard T.spillSize_pos hguard
    have hrange : (spillCap * T.spillSize).toNat ≤ 2 ^ T.bits - 1 :=
      Nat.le_sub_one_of_lt (BitVec.isLt _)
    have hsub : (T.sizeMax - spillCap * T.spillSize).toNat =
        2 ^ T.bits - 1 - spillCap.toNat * T.spillSize.toNat := by
      rw [BitVec.toNat_sub_of_le (by rwa [BitVec.le_def, toNat_sizeMax]), toNat_sizeMax, hbytes]
    have hrest : (T.sizeMax - spillCap * T.spillSize) / T.slotSize < queueCap ↔
        ¬queueCap.toNat * T.slotSize.toNat + spillCap.toNat * T.spillSize.toNat ≤
          2 ^ T.bits - 1 := by
      rw [BitVec.lt_def, BitVec.toNat_udiv, hsub, Nat.div_lt_iff_lt_mul hslot]
      omega
    rw [if_neg hguard]
    by_cases hfits : queueCap.toNat * T.slotSize.toNat + spillCap.toNat * T.spillSize.toNat ≤
        2 ^ T.bits - 1
    · rw [if_neg fun h => hrest.mp h hfits, if_pos hfits]
    · rw [if_pos (hrest.mpr hfits), if_neg hfits]

end SizeWords

end Capacity

section Init

namespace SizeWords

variable (T : SizeWords)

/-- The capacity `c` leaves more than half of the positions and its two arrays have a size. -/
def Fits (c : ℕ) : Prop :=
  c ≤ T.sizeMax.toNat / 2 ∧
    c * T.slotSize.toNat + min c 1024 * T.spillSize.toNat ≤ T.sizeMax.toNat

instance (c : ℕ) : Decidable (T.Fits c) := inferInstanceAs (Decidable (_ ∧ _))

end SizeWords

/-- The sizes in a queue object are those of the capacity `c`, and the products and the sum behind
them did not wrap. -/
structure QueueObject.SizedFor {T : SizeWords} (q : QueueObject T) (c : ℕ) : Prop where
  cap : q.cap.toNat = c
  mask : q.mask.toNat = c - 1
  spillCap : q.spillCap.toNat = min c 1024
  slotBytes : (q.cap * T.slotSize).toNat = c * T.slotSize.toNat
  spillBytes : (q.spillCap * T.spillSize).toNat = min c 1024 * T.spillSize.toNat
  storageBytes_eq : q.storageBytes = q.cap * T.slotSize + q.spillCap * T.spillSize
  storageBytes : q.storageBytes.toNat = c * T.slotSize.toNat + min c 1024 * T.spillSize.toNat

namespace SizeWords

variable (T : SizeWords)

/-- The queue object whose sizes are those of the capacity `c`. -/
def sized (c : ℕ) : QueueObject T :=
  let cap := BitVec.ofNat T.bits c
  { QueueObject.zero T with
    cap := cap
    mask := cap - 1
    spillCap := T.queueSpillCapacity cap
    storageBytes := cap * T.slotSize + T.queueSpillCapacity cap * T.spillSize }

theorem sizedFor_sized {c : ℕ} (hc : 2 ≤ c) (hfits : T.Fits c) : (T.sized c).SizedFor c := by
  obtain ⟨hhalf, hbytes⟩ := hfits
  rw [toNat_sizeMax] at hhalf hbytes
  have hrange := Nat.two_pow_pos T.bits
  have hcap : (BitVec.ofNat T.bits c).toNat = c := by
    rw [BitVec.toNat_ofNat, Nat.mod_eq_of_lt (by omega)]
  have hone : (1 : T.SizeT).toNat = 1 := by
    exact T.toNat_ofNat_small (n := 1) (by decide)
  have hspill : (T.queueSpillCapacity (BitVec.ofNat T.bits c)).toNat = min c 1024 := by
    rw [T.toNat_queueSpillCapacity, hcap]
  have hslotBytes : (BitVec.ofNat T.bits c * T.slotSize).toNat = c * T.slotSize.toNat := by
    rw [BitVec.toNat_mul_of_lt (by rw [hcap]; omega), hcap]
  have hspillBytes : (T.queueSpillCapacity (BitVec.ofNat T.bits c) * T.spillSize).toNat =
      min c 1024 * T.spillSize.toNat := by
    rw [BitVec.toNat_mul_of_lt (by rw [hspill]; omega), hspill]
  refine ⟨hcap, ?_, hspill, hslotBytes, hspillBytes, rfl, ?_⟩
  · show (BitVec.ofNat T.bits c - 1).toNat = c - 1
    rw [BitVec.toNat_sub_of_le (by rw [BitVec.le_def, hcap, hone]; omega), hcap, hone]
  · show (BitVec.ofNat T.bits c * T.slotSize +
      T.queueSpillCapacity (BitVec.ofNat T.bits c) * T.spillSize).toNat = _
    rw [BitVec.toNat_add_of_lt (by rw [hslotBytes, hspillBytes]; omega), hslotBytes, hspillBytes]

/-- `logger_queue_init` goes on to the allocations with the sizes of the least power of two that
covers the request, when these fit. -/
theorem loggerQueueInit_of_fits (a : QueueInitAnswers) (errno : ℤ) {requested : T.SizeT}
    (hfits : T.Fits (leastCapacity requested.toNat)) :
    T.loggerQueueInit a errno requested =
      some (T.loggerQueueInitStorage a errno (T.sized (leastCapacity requested.toNat))) := by
  have hslot : leastCapacity requested.toNat * T.slotSize.toNat ≤ 2 ^ T.bits - 1 := by
    have hbytes := hfits.2
    rw [toNat_sizeMax] at hbytes
    omega
  have hcap : (BitVec.ofNat T.bits (leastCapacity requested.toNat)).toNat =
      leastCapacity requested.toNat := by
    have hhalf := hfits.1
    rw [toNat_sizeMax] at hhalf
    have := Nat.two_pow_pos T.bits
    rw [BitVec.toNat_ofNat, Nat.mod_eq_of_lt (by omega)]
  rw [loggerQueueInit, T.queueCapacity_eq, if_pos ⟨by simpa using hfits.1, hslot⟩]
  dsimp only
  rw [T.queueStorageSize_eq, T.toNat_queueSpillCapacity, hcap, if_pos (by simpa using hfits.2)]
  rfl

/-- `logger_queue_init` refuses a request whose sizes do not fit, and asks nobody for anything. -/
theorem loggerQueueInit_of_not_fits (a : QueueInitAnswers) (errno : ℤ) {requested : T.SizeT}
    (hfits : ¬T.Fits (leastCapacity requested.toNat)) :
    ∃ q : QueueObject T, T.loggerQueueInit a errno requested = some ⟨-1, eoverflow, q, []⟩ := by
  rw [loggerQueueInit, T.queueCapacity_eq]
  by_cases hcap : leastCapacity requested.toNat ≤ (2 ^ T.bits - 1) / 2 ∧
      leastCapacity requested.toNat * T.slotSize.toNat ≤ 2 ^ T.bits - 1
  · -- the slots alone would fit: `queue_storage_size` finds that the blocks do not
    have hc : (BitVec.ofNat T.bits (leastCapacity requested.toNat)).toNat =
        leastCapacity requested.toNat := by
      have := Nat.two_pow_pos T.bits
      rw [BitVec.toNat_ofNat, Nat.mod_eq_of_lt (by omega)]
    have hbytes : ¬leastCapacity requested.toNat * T.slotSize.toNat +
        min (leastCapacity requested.toNat) 1024 * T.spillSize.toNat ≤ 2 ^ T.bits - 1 :=
      fun h => hfits ⟨by simpa using hcap.1, by simpa using h⟩
    rw [if_pos hcap]
    dsimp only
    rw [T.queueStorageSize_eq, T.toNat_queueSpillCapacity, hc, if_neg hbytes]
    exact ⟨_, rfl⟩
  · rw [if_neg hcap]
    exact ⟨_, rfl⟩

end SizeWords

end Init

section Unbounded

namespace SizeWords

variable (T : SizeWords)

/-- The platform of the unbounded sizing. -/
def platform : Platform := ⟨T.bits, T.slotSize.toNat, T.spillSize.toNat⟩

theorem sizeMax_platform : T.platform.sizeMax = T.sizeMax.toNat := T.toNat_sizeMax.symm

/-- The doubling loop on words takes the branches and computes the values of the unbounded loop. -/
theorem queueCapacityLoop_unbounded {requested n : T.SizeT} {fuel : ℕ} :
    CLogger.queueCapacityLoop T.sizeMax.toNat requested.toNat fuel n.toNat =
      (T.queueCapacityLoop requested fuel n).bind fun r => r.toOption.map BitVec.toNat := by
  induction fuel generalizing n with
  | zero => rfl
  | succ fuel ih =>
    have hguard : T.sizeMax.toNat / 2 < n.toNat ↔ T.sizeMax / 2#T.bits < n := by
      rw [BitVec.lt_def, BitVec.toNat_udiv, toNat_two]
    rw [CLogger.queueCapacityLoop, queueCapacityLoop]
    simp only [← BitVec.lt_def, hguard]
    split_ifs with hlt hbig
    · rfl
    · rw [← T.toNat_double hbig]
      exact ih
    · rfl

theorem queueCapacity_unbounded (requested : T.SizeT) :
    CLogger.queueCapacity T.platform requested.toNat =
      (T.queueCapacity requested).bind fun r => r.toOption.map BitVec.toNat := by
  have hclamp : (if requested.toNat < 2 then 2 else requested.toNat) =
      (if requested < 2#T.bits then 2#T.bits else requested).toNat := by
    rw [toNat_atLeastTwo]
    split <;> omega
  have hloop : CLogger.queueCapacityLoop T.sizeMax.toNat
      (if requested < 2#T.bits then 2#T.bits else requested).toNat (T.bits + 1) (2#T.bits).toNat =
      _ := T.queueCapacityLoop_unbounded
  rw [T.toNat_two] at hloop
  rw [CLogger.queueCapacity, queueCapacity, hclamp, sizeMax_platform, platform, hloop]
  rcases T.queueCapacityLoop _ (T.bits + 1) 2#T.bits with _ | e | n
  · rfl
  · rfl
  · have hhalf : T.sizeMax.toNat / 2 < n.toNat ↔ T.sizeMax / 2#T.bits < n := by
      rw [BitVec.lt_def, BitVec.toNat_udiv, toNat_two]
    have hslots : T.sizeMax.toNat / T.slotSize.toNat < n.toNat ↔ T.sizeMax / T.slotSize < n := by
      rw [BitVec.lt_def, BitVec.toNat_udiv]
    simp only [Option.bind_some, Except.toOption, Option.map_some, hhalf, hslots]
    split_ifs <;> rfl

/-- The unbounded sizing of `Queue.Model` accepts the requests that the words accept, with the
same sizes. -/
theorem loggerQueueInit_layout {requested : T.SizeT}
    (hfits : T.Fits (leastCapacity requested.toNat)) :
    CLogger.loggerQueueInit T.platform requested.toNat =
      some ⟨leastCapacity requested.toNat, leastCapacity requested.toNat - 1,
        min (leastCapacity requested.toNat) 1024,
        leastCapacity requested.toNat * T.slotSize.toNat +
          min (leastCapacity requested.toNat) 1024 * T.spillSize.toNat⟩ := by
  have hsized := T.sizedFor_sized (two_le_leastCapacity requested.toNat) hfits
  obtain ⟨hhalf, hbytes⟩ := hfits
  have hslot : 0 < T.slotSize.toNat := by simpa [BitVec.lt_def] using T.slotSize_pos
  have hspill : 0 < T.spillSize.toNat := by simpa [BitVec.lt_def] using T.spillSize_pos
  -- the capacities agree
  have hcapacity : CLogger.queueCapacity T.platform requested.toNat =
      some (leastCapacity requested.toNat) := by
    rw [T.queueCapacity_unbounded, T.queueCapacity_eq, if_pos ⟨by simpa using hhalf, by
      rw [toNat_sizeMax] at hbytes
      omega⟩]
    exact congrArg some hsized.cap
  have hmin : CLogger.queueSpillCapacity (leastCapacity requested.toNat) =
      min (leastCapacity requested.toNat) 1024 := by
    rw [CLogger.queueSpillCapacity, loggerQueueSpillLimit]
    split <;> omega
  -- the blocks of the spill fit, and so do the slots beside them
  have hblocks :
      ¬T.sizeMax.toNat / T.spillSize.toNat < min (leastCapacity requested.toNat) 1024 := by
    rw [Nat.div_lt_iff_lt_mul hspill]
    omega
  have hslots : ¬(T.sizeMax.toNat - min (leastCapacity requested.toNat) 1024 * T.spillSize.toNat) /
      T.slotSize.toNat < leastCapacity requested.toNat := by
    rw [Nat.div_lt_iff_lt_mul hslot]
    omega
  rw [CLogger.loggerQueueInit, hcapacity]
  dsimp only
  rw [CLogger.queueStorageSize, hmin, sizeMax_platform, platform, if_neg hblocks, if_neg hslots]

/-- The geometry of a queue whose request fits. -/
def geometry {requested : T.SizeT} (hfits : T.Fits (leastCapacity requested.toNat)) :
    QueueGeometry :=
  QueueLayout.geometry (T.loggerQueueInit_layout hfits) true

end SizeWords

end Unbounded

section Words

namespace SizeWords

variable {T : SizeWords} {requested : T.SizeT} {q : QueueObject T}

/-- `pos & mask` is the position modulo the capacity, wherever the counter has wrapped. -/
theorem land_mask (hfits : T.Fits (leastCapacity requested.toNat))
    (hq : q.SizedFor (leastCapacity requested.toNat)) (pos : ℕ) :
    (BitVec.ofNat T.bits pos &&& q.mask).toNat = pos % leastCapacity requested.toNat := by
  have hindex := (T.geometry hfits).slotIndex_eq pos
  rw [BitVec.toNat_and, BitVec.toNat_ofNat, hq.mask]
  exact hindex

/-- The spill capacity of an accepted queue in numbers. -/
theorem spillCap_bounds (hq : q.SizedFor (leastCapacity requested.toNat)) :
    2 ≤ q.spillCap.toNat ∧ q.spillCap.toNat ≤ 1024 := by
  have hcap := two_le_leastCapacity requested.toNat
  have hspill := hq.spillCap
  omega

theorem toNat_spillWords (hq : q.SizedFor (leastCapacity requested.toNat)) :
    (T.spillWords q.spillCap).toNat = (q.spillCap.toNat + 31) / 32 := by
  have hbounds := spillCap_bounds hq
  have hrange : 2 ^ 16 ≤ 2 ^ T.bits := Nat.pow_le_pow_right (by decide) T.bits_ge
  have hone : (1 : T.SizeT).toNat = 1 := by
    exact T.toNat_ofNat_small (n := 1) (by decide)
  have hsum : (q.spillCap + BitVec.ofNat T.bits loggerQueueSpillWordBits).toNat =
      q.spillCap.toNat + 32 := by
    rw [BitVec.toNat_add_of_lt (by rw [toNat_spillWordBits]; omega), toNat_spillWordBits]
  rw [spillWords, BitVec.toNat_udiv, toNat_spillWordBits,
    BitVec.toNat_sub_of_le (by rw [BitVec.le_def, hsum, hone]; omega), hsum, hone]
  rfl

/-- On the words that the scan visits, the mask of the machine is that of `Queue.Model`. -/
theorem spillValidMask_eq (hfits : T.Fits (leastCapacity requested.toNat))
    (hq : q.SizedFor (leastCapacity requested.toNat)) {word : T.SizeT}
    (hword : word < T.spillWords q.spillCap) :
    T.spillValidMask q.spillCap word = (T.geometry hfits).spillValidMask word.toNat := by
  have hbounds := spillCap_bounds hq
  rw [BitVec.lt_def, toNat_spillWords hq] at hword
  have hrange : 2 ^ 16 ≤ 2 ^ T.bits := Nat.pow_le_pow_right (by decide) T.bits_ge
  have hfirst : (word * BitVec.ofNat T.bits loggerQueueSpillWordBits).toNat = word.toNat * 32 := by
    rw [BitVec.toNat_mul_of_lt (by rw [toNat_spillWordBits]; omega), toNat_spillWordBits]
  have hremaining : (q.spillCap - word * BitVec.ofNat T.bits loggerQueueSpillWordBits).toNat =
      q.spillCap.toNat - word.toNat * loggerQueueSpillWordBits := by
    rw [BitVec.toNat_sub_of_le (by rw [BitVec.le_def, hfirst]; omega), hfirst,
      loggerQueueSpillWordBits]
  have hgeometry : (T.geometry hfits).spillCap = q.spillCap.toNat := hq.spillCap.symm
  have hfull : BitVec.ofNat T.bits loggerQueueSpillWordBits ≤
      q.spillCap - word * BitVec.ofNat T.bits loggerQueueSpillWordBits ↔
        loggerQueueSpillWordBits ≤ q.spillCap.toNat - word.toNat * loggerQueueSpillWordBits := by
    rw [BitVec.le_def, toNat_spillWordBits, hremaining]
    rfl
  rw [spillValidMask, QueueGeometry.spillValidMask, hgeometry]
  simp only [hfull, hremaining]

/-- A block found in a word is the lowest free valid bit that the successful attempt saw. -/
theorem spillTryWord_found {v : ScanView} {n : ℕ} {valid : BitVec 32} {word : T.SizeT}
    {fuel k : ℕ} {index : BitVec 32}
    (h : T.spillTryWord v n valid word fuel k = some (some index)) :
    ∃ used : BitVec 32, ~~~used &&& valid ≠ 0#32 ∧
      index = BitVec.ofNat 32 (word * BitVec.ofNat T.bits loggerQueueSpillWordBits +
        BitVec.ofNat T.bits (~~~used &&& valid).ctz.toNat).toNat := by
  induction fuel generalizing k with
  | zero => contradiction
  | succ fuel ih =>
    rw [spillTryWord] at h
    dsimp only at h
    split_ifs at h with hnone hswap
    · simp at h
    · exact ⟨v.used n k, hnone, by simpa using h.symm⟩
    · exact ih h

/-- A block found by a scan was found in one of the words that cover the spill capacity. -/
theorem spillTryWords_found {v : ScanView} {fuel : ℕ} {spillCap start : T.SizeT} {left n : ℕ}
    {index : BitVec 32} (hwords : T.spillWords spillCap ≠ 0#T.bits)
    (h : T.spillTryWords v fuel spillCap start left n = some (some index)) :
    ∃ word < T.spillWords spillCap, ∃ used : BitVec 32,
      ~~~used &&& T.spillValidMask spillCap word ≠ 0#32 ∧
        index = BitVec.ofNat 32 (word * BitVec.ofNat T.bits loggerQueueSpillWordBits +
          BitVec.ofNat T.bits (~~~used &&& T.spillValidMask spillCap word).ctz.toNat).toNat := by
  induction left generalizing n with
  | zero => simp [spillTryWords] at h
  | succ left ih =>
    rw [spillTryWords] at h
    split at h
    · exact ih h
    · refine ⟨_, ?_, spillTryWord_found h⟩
      rw [BitVec.lt_def, BitVec.toNat_umod]
      apply Nat.mod_lt
      rw [pos_iff_ne_zero]
      exact fun hzero => hwords (BitVec.eq_of_toNat_eq (by simpa using hzero))

/-- A block that `queue_spill_try_take` takes lies below the spill capacity. -/
theorem queueSpillTryTake_lt (hfits : T.Fits (leastCapacity requested.toNat))
    (hq : q.SizedFor (leastCapacity requested.toNat)) {v : ScanView} {fuel : ℕ} {cursor : T.SizeT}
    {index : BitVec 32} (h : T.queueSpillTryTake v fuel q.spillCap cursor = some (some index)) :
    index.toNat < q.spillCap.toNat := by
  have hbounds := spillCap_bounds hq
  have hwords := toNat_spillWords hq
  have hne : T.spillWords q.spillCap ≠ 0#T.bits := by
    intro hzero
    rw [hzero, BitVec.toNat_ofNat, Nat.zero_mod] at hwords
    omega
  obtain ⟨word, hword, used, havail, rfl⟩ := spillTryWords_found hne h
  rw [spillValidMask_eq hfits hq hword] at havail ⊢
  obtain ⟨hbit, -, hlt⟩ := ctz_available (T.geometry hfits) havail
  generalize (~~~used &&& (T.geometry hfits).spillValidMask word.toNat).ctz.toNat =
    bit at hbit hlt ⊢
  have hgeometry : (T.geometry hfits).spillCap = q.spillCap.toNat := hq.spillCap.symm
  rw [hgeometry] at hlt
  have hrange : 2 ^ 16 ≤ 2 ^ T.bits := Nat.pow_le_pow_right (by decide) T.bits_ge
  have hfirst : (word * BitVec.ofNat T.bits loggerQueueSpillWordBits).toNat = word.toNat * 32 := by
    rw [BitVec.toNat_mul_of_lt (by rw [toNat_spillWordBits]; omega), toNat_spillWordBits]
  have hsmall : (BitVec.ofNat T.bits bit).toNat = bit := by
    rw [BitVec.toNat_ofNat, Nat.mod_eq_of_lt (by omega)]
  have hindex : (word * BitVec.ofNat T.bits loggerQueueSpillWordBits +
      BitVec.ofNat T.bits bit).toNat = word.toNat * 32 + bit := by
    rw [BitVec.toNat_add_of_lt (by rw [hfirst, hsmall]; omega), hfirst, hsmall]
  rw [hindex, BitVec.toNat_ofNat, Nat.mod_eq_of_lt (by omega)]
  exact hlt

end SizeWords

end Words

section Correctness

variable {T : SizeWords}

/-- The doubling loop ends from its start value, after at most as many rounds as `size_t` has
bits, and what it doubles never leaves the range. -/
structure CapacityLoopEnds (T : SizeWords) (requested : T.SizeT) : Prop where
  ends : ∀ fuel, T.bits ≤ fuel → ∃ r, T.queueCapacityLoop requested fuel 2#T.bits = some r ∧
    T.queueCapacityLoop requested T.bits 2#T.bits = some r
  doubles : ∀ n : T.SizeT, ¬T.sizeMax / 2#T.bits < n → (n * 2#T.bits).toNat = n.toNat * 2

/-- The sizing refused the request: `EOVERFLOW`, with nothing allocated. -/
structure QueueInitRun.SizingFailed (run : QueueInitRun T) : Prop where
  ret : run.ret = -1
  errno : run.errno = eoverflow
  calls : run.calls = []

/-- The sizing accepted the capacity `c`: its sizes are in the queue, and the first thing that is
asked of anyone is the slot array of that capacity. -/
structure QueueInitRun.SizingDone (run : QueueInitRun T) (c : ℕ) : Prop where
  sizes : run.queue.SizedFor c
  calls : ∃ rest, run.calls = .calloc run.queue.cap T.slotSize :: rest

/-- What positions and bitmap words mean in a queue of capacity `c`. -/
structure QueueObject.WordsExact (q : QueueObject T) (c : ℕ) : Prop where
  index : ∀ pos : ℕ, (BitVec.ofNat T.bits pos &&& q.mask).toNat = pos % c
  validMask : ∀ word < T.spillWords q.spillCap, ∀ i < 32,
    (T.spillValidMask q.spillCap word).getLsbD i = true ↔
      word.toNat * 32 + i < q.spillCap.toNat
  words : ∀ b < q.spillCap.toNat, b / 32 < (T.spillWords q.spillCap).toNat
  scan : ∀ (v : SizeWords.ScanView) (fuel : ℕ) (cursor : T.SizeT) (index : BitVec 32),
    T.queueSpillTryTake v fuel q.spillCap cursor = some (some index) →
      index.toNat < q.spillCap.toNat

theorem capacityLoopEnds (T : SizeWords) (requested : T.SizeT) : CapacityLoopEnds T requested where
  ends := by
    intro fuel hfuel
    have hbits := T.bits_ge
    have hfuel₁ : T.bits ≤ fuel + 1 := by omega
    have hbits₁ : T.bits ≤ T.bits + 1 := by omega
    rw [T.queueCapacityLoop_eq (k := 1) T.toNat_two (by omega) hfuel₁,
      T.queueCapacityLoop_eq (k := 1) T.toNat_two (by omega) hbits₁]
    split
    · exact ⟨_, rfl, rfl⟩
    · exact ⟨_, rfl, rfl⟩
  doubles := fun _ h => T.toNat_double h

/-- The allocations and initialisations after the sizing leave the sizes alone. -/
theorem sizingDone_storage (T : SizeWords) (a : QueueInitAnswers) (errno : ℤ) {c : ℕ}
    {q : QueueObject T} (hq : q.SizedFor c) :
    (T.loggerQueueInitStorage a errno q).SizingDone c := by
  have hsizes : ∀ q' : QueueObject T, q'.cap = q.cap → q'.mask = q.mask →
      q'.spillCap = q.spillCap → q'.storageBytes = q.storageBytes → q'.SizedFor c := by
    intro q' hcap hmask hspill hbytes
    refine ⟨?_, ?_, ?_, ?_, ?_, ?_, ?_⟩
    · rw [hcap, hq.cap]
    · rw [hmask, hq.mask]
    · rw [hspill, hq.spillCap]
    · rw [hcap, hq.slotBytes]
    · rw [hspill, hq.spillBytes]
    · rw [hbytes, hcap, hspill, hq.storageBytes_eq]
    · rw [hbytes, hq.storageBytes]
  unfold SizeWords.loggerQueueInitStorage
  split
  · exact ⟨hq, _, rfl⟩
  · dsimp only
    split
    · exact ⟨hq, _, rfl⟩
    · split_ifs <;> exact ⟨hsizes _ rfl rfl rfl rfl, _, rfl⟩

theorem wordsExact_of_sizedFor {requested : T.SizeT} {q : QueueObject T}
    (hfits : T.Fits (leastCapacity requested.toNat))
    (hq : q.SizedFor (leastCapacity requested.toNat)) :
    q.WordsExact (leastCapacity requested.toNat) where
  index := SizeWords.land_mask hfits hq
  validMask := by
    intro word hword i hi
    have hgeometry : (T.geometry hfits).spillCap = q.spillCap.toNat := hq.spillCap.symm
    rw [SizeWords.spillValidMask_eq hfits hq hword, QueueGeometry.getLsbD_spillValidMask _ hi,
      hgeometry]
  words := by
    intro b hb
    rw [SizeWords.toNat_spillWords hq]
    omega
  scan := fun _ _ _ _ h => SizeWords.queueSpillTryTake_lt hfits hq h

/-- The sizing of a queue. With `c` the least power of two that is at least `2` and at least the
request, the capacity loop ends, and `logger_queue_init` accepts the sizes of `c` if `c` is at most
`SIZE_MAX / 2` and both arrays together take at most `SIZE_MAX` bytes; otherwise it fails with
`EOVERFLOW` before it allocates. In an accepted queue a masked position is the position modulo the
capacity, and the bitmap words stand for exactly the blocks below the spill capacity. -/
theorem queue_sizing_exact (T : SizeWords) (requested : T.SizeT) :
    ∃ c, IsLeast {n | (∃ k, n = 2 ^ k) ∧ max 2 requested.toNat ≤ n} c ∧
      CapacityLoopEnds T (if requested < 2#T.bits then 2#T.bits else requested) ∧
      ∀ (a : QueueInitAnswers) (errno : ℤ), ∃ run, T.loggerQueueInit a errno requested = some run ∧
        (T.Fits c → run.SizingDone c ∧ run.queue.WordsExact c) ∧
        (¬T.Fits c → run.SizingFailed) := by
  refine ⟨leastCapacity requested.toNat, isLeast_leastCapacity _, capacityLoopEnds T _, ?_⟩
  intro a errno
  by_cases hfits : T.Fits (leastCapacity requested.toNat)
  · have hdone := sizingDone_storage T a errno
      (T.sizedFor_sized (two_le_leastCapacity requested.toNat) hfits)
    exact ⟨_, T.loggerQueueInit_of_fits a errno hfits,
      fun _ => ⟨hdone, wordsExact_of_sizedFor hfits hdone.sizes⟩, fun h => absurd hfits h⟩
  · obtain ⟨q, hq⟩ := T.loggerQueueInit_of_not_fits a errno hfits
    exact ⟨_, hq, fun h => absurd h hfits, fun _ => ⟨rfl, rfl, rfl⟩⟩

end Correctness

end CLogger
