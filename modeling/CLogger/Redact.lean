import CLogger.Errno
import CLogger.Lib.FlatMemory
import CLogger.Lib.SizeT

/-!
# Masking a secret

`logger_mask_secret` of `logger_redact.c`, on a flat memory in which the value and the output may
lie anywhere, over each other in particular. Lengths are words of `size_t`.

## Main results

* `maskStore_eq`: in both copy orders, what is stored is the masked text of the value as it was
  before the call.
* `mask_secret_exact`: the outcome of a call.
-/

namespace CLogger

open FlatMemory SizeWidth

/-- A NUL-terminated string in memory, whose length is a `size_t`. -/
structure StringAt (W : SizeWidth) (m : Memory UInt8) where
  addr : ℕ
  length : W.SizeT
  text_ne : ∀ i < length.toNat, m (addr + i) ≠ 0
  terminated : m (addr + length.toNat) = 0

/-- The bytes of a string before its NUL. -/
def StringAt.text {W : SizeWidth} {m : Memory UInt8} (v : StringAt W m) : List UInt8 :=
  read m v.addr v.length.toNat

/-- The text `"[REDACTED]"`. -/
def redactedText : List UInt8 := [91, 82, 69, 68, 65, 67, 84, 69, 68, 93]

/-- The text `"***"`. -/
def maskText : List UInt8 := [42, 42, 42]

/-- The end of a call of `logger_mask_secret`. -/
structure MaskRun where
  ret : ℤ
  errno : ℤ
  memory : Memory UInt8

section Code

variable (W : SizeWidth)

/-- The lengths of the shown parts: clipped to the value, and both `0` when they would cover it. -/
def maskClip (n pre suf : W.SizeT) : W.SizeT × W.SizeT :=
  let pre := if n < pre then n else pre
  let suf := if n - pre < suf then n - pre else suf
  if n ≤ pre + suf then (0#W.bits, 0#W.bits) else (pre, suf)

/-- The stores of `logger_mask_secret`: the two parts in the order that reads before it destroys,
then the mask and the terminator. -/
def maskStore (m : Memory UInt8) (v n out pre suf need : ℕ) : Memory UInt8 :=
  let parts :=
    if out ≤ v then
      let m := if pre ≠ 0 then memmove m out v pre else m
      if suf ≠ 0 then memmove m (out + pre + 3) (v + n - suf) suf else m
    else
      let m := if suf ≠ 0 then memmove m (out + pre + 3) (v + n - suf) suf else m
      if pre ≠ 0 then memmove m out v pre else m
  write (write parts (out + pre) maskText) (out + need - 1) [0]

/-- `logger_mask_secret`, entered with `errno`. -/
def loggerMaskSecret (m : Memory UInt8) (v : Option (StringAt W m)) (out : Option ℕ)
    (cap pre suf : W.SizeT) (errno : ℤ) : MaskRun :=
  match out with
  | none => ⟨-einval, errno, m⟩
  | some out =>
    if cap = 0#W.bits then ⟨-einval, errno, m⟩
    else
      match v with
      | none =>
        if cap < BitVec.ofNat W.bits (redactedText.length + 1) then ⟨-enospc, errno, m⟩
        else ⟨0, errno, write m out (redactedText ++ [0])⟩
      | some v =>
        let shown := maskClip W v.length pre suf
        let visible := shown.1 + shown.2
        let starsSize := BitVec.ofNat W.bits (maskText.length + 1)
        if W.sizeMax - starsSize < visible then ⟨-eoverflow, errno, m⟩
        else
          let need := visible + starsSize
          if cap < need then ⟨-enospc, errno, m⟩
          else
            ⟨0, errno, maskStore m v.addr v.length.toNat out shown.1.toNat shown.2.toNat
              need.toNat⟩

end Code

/-- How many bytes of a value of `n` bytes are to be shown at its start and at its end. -/
def shownParts (n pre suf : ℕ) : ℕ × ℕ :=
  if n ≤ min pre n + min suf n then (0, 0) else (min pre n, min suf n)

/-- What is to be written for a value: its shown parts around the mask, with a NUL, or the
placeholder when there is no value. -/
def maskedBytes {W : SizeWidth} {m : Memory UInt8} (v : Option (StringAt W m)) (pre suf : ℕ) :
    List UInt8 :=
  match v with
  | none => redactedText ++ [0]
  | some v =>
    let shown := shownParts v.length.toNat pre suf
    v.text.take shown.1 ++ maskText ++ v.text.drop (v.length.toNat - shown.2) ++ [0]

section Clipping

/-- Never all bytes of a value are shown. -/
theorem shownParts_lt {n : ℕ} (hn : 0 < n) (pre suf : ℕ) :
    (shownParts n pre suf).1 + (shownParts n pre suf).2 < n := by
  unfold shownParts
  split
  · exact hn
  · dsimp only
    omega

theorem shownParts_le (n pre suf : ℕ) :
    (shownParts n pre suf).1 + (shownParts n pre suf).2 ≤ n := by
  obtain rfl | hn := Nat.eq_zero_or_pos n
  · simp [shownParts]
  · exact (shownParts_lt hn pre suf).le

/-- Clipping in words computes the shown parts. -/
theorem maskClip_eq {W : SizeWidth} (n pre suf : W.SizeT) :
    (maskClip W n pre suf).1.toNat = (shownParts n.toNat pre.toNat suf.toNat).1 ∧
      (maskClip W n pre suf).2.toNat = (shownParts n.toNat pre.toNat suf.toNat).2 := by
  have hrange := n.isLt
  -- the prefix is clipped first, so the difference and the sum stay within the value
  have hpre : (if n < pre then n else pre).toNat = min pre.toNat n.toNat := by
    simp only [BitVec.lt_def]
    split <;> omega
  unfold maskClip shownParts
  dsimp only
  generalize (if n < pre then n else pre) = p at hpre
  have hrest : (n - p).toNat = n.toNat - p.toNat :=
    BitVec.toNat_sub_of_le (by rw [BitVec.le_def]; omega)
  have hsuf : (if n - p < suf then n - p else suf).toNat =
      min suf.toNat (n.toNat - p.toNat) := by
    simp only [BitVec.lt_def, hrest]
    split
    · rw [hrest]
      omega
    · omega
  generalize (if n - p < suf then n - p else suf) = s at hsuf
  have hsum : (p + s).toNat = p.toNat + s.toNat := BitVec.toNat_add_of_lt (by omega)
  simp only [BitVec.le_def, hsum]
  by_cases hcover : n.toNat ≤ p.toNat + s.toNat
  · rw [if_pos hcover, if_pos (by omega)]
    simp
  · rw [if_neg hcover, if_neg (by omega)]
    dsimp only
    omega

end Clipping

section Stores

variable {m : Memory UInt8} {v n out pre suf : ℕ}

theorem memmove_if {dst src k : ℕ} :
    (if k ≠ 0 then memmove m dst src k else m) = memmove m dst src k := by
  split
  · rfl
  · rename_i hzero
    rw [not_not] at hzero
    rw [hzero, memmove_zero]

/-- Both copy orders store the two parts as they were before the call: towards lower addresses the
prefix cannot reach the suffix it leaves for later, towards higher ones the suffix lands behind
the prefix. -/
theorem maskStore_parts (hle : pre + suf ≤ n) :
    (if out ≤ v then memmove (memmove m out v pre) (out + pre + 3) (v + n - suf) suf
      else memmove (memmove m (out + pre + 3) (v + n - suf) suf) out v pre) =
      write (write m out (read m v pre)) (out + pre + 3) (read m (v + n - suf) suf) := by
  split
  · have hspared : Apart out pre (v + n - suf) suf := by
      unfold Apart
      omega
    rw [memmove_memmove hspared]
  · have hspared : Apart (out + pre + 3) suf v pre := by
      unfold Apart
      omega
    have hapart : Apart (out + pre + 3) (read m (v + n - suf) suf).length out
        (read m v pre).length := by
      rw [length_read, length_read]
      unfold Apart
      omega
    rw [memmove_memmove hspared, write_comm hapart]

/-- The stores write the prefix, the mask, the suffix and the terminator in a row, all taken from
memory as it was. -/
theorem maskStore_eq (hle : pre + suf ≤ n) :
    maskStore m v n out pre suf (pre + suf + 4) =
      write m out (read m v pre ++ maskText ++ read m (v + n - suf) suf ++ [0]) := by
  unfold maskStore
  simp only [memmove_if, maskStore_parts hle]
  have hmask : maskText.length = 3 := rfl
  have hapart : Apart (out + pre + 3) (read m (v + n - suf) suf).length (out + pre)
      maskText.length := by
    rw [hmask]
    unfold Apart
    omega
  rw [write_comm hapart, write_append, write_append, write_append]
  simp only [List.length_append, length_read, hmask]
  congr 1
  omega

end Stores

section Correctness

variable {W : SizeWidth} {m : Memory UInt8}

theorem length_maskedBytes_some (v : StringAt W m) (pre suf : ℕ) :
    (maskedBytes (some v) pre suf).length =
      (shownParts v.length.toNat pre suf).1 + (shownParts v.length.toNat pre suf).2 + 4 := by
  have hle := shownParts_le v.length.toNat pre suf
  simp only [maskedBytes, StringAt.text, List.length_append, List.length_take, List.length_drop,
    length_read, List.length_singleton]
  have hmask : maskText.length = 3 := rfl
  omega

/-- What a call of `logger_mask_secret` leaves, for an output of `cap` bytes and the bytes
`masked` that it is to write. -/
structure MaskOutcome (m : Memory UInt8) (out : Option ℕ) (cap : ℕ) (masked : List UInt8)
    (r : MaskRun) : Prop where
  /-- It succeeds exactly when there is room. -/
  succeeds : r.ret = 0 ↔ out ≠ none ∧ masked.length ≤ cap
  /-- Then the bytes are at the output, and nothing else has changed. -/
  written : r.ret = 0 → ∃ o, out = some o ∧ read r.memory o masked.length = masked ∧
    ∀ a, (a < o ∨ o + masked.length ≤ a) → r.memory a = m a
  failed : r.ret ≠ 0 → (r.ret = -einval ∨ r.ret = -enospc ∨ r.ret = -eoverflow) ∧ r.memory = m

/-- A call that failed for lack of room. -/
theorem maskOutcome_of_failure {out : Option ℕ} {cap : ℕ} {masked : List UInt8} {e : ℤ} (errno : ℤ)
    (he : e = einval ∨ e = enospc ∨ e = eoverflow) (hroom : out ≠ none → cap < masked.length) :
    MaskOutcome m out cap masked ⟨-e, errno, m⟩ := by
  have hne : -e ≠ 0 := by
    rcases he with rfl | rfl | rfl <;> decide
  refine ⟨⟨fun h => absurd h hne, fun hfits => ?_⟩, fun h => absurd h hne, fun _ => ⟨?_, rfl⟩⟩
  · exact absurd hfits.2 (not_le.mpr (hroom hfits.1))
  · rcases he with rfl | rfl | rfl
    · exact Or.inl rfl
    · exact Or.inr (Or.inl rfl)
    · exact Or.inr (Or.inr rfl)

/-- A call that wrote what it is to write. -/
theorem maskOutcome_of_write {out cap : ℕ} {masked : List UInt8} (errno : ℤ)
    (hroom : masked.length ≤ cap) :
    MaskOutcome m (some out) cap masked ⟨0, errno, write m out masked⟩ where
  succeeds := ⟨fun _ => ⟨Option.some_ne_none out, hroom⟩, fun _ => rfl⟩
  written := fun _ => ⟨out, rfl, read_write_self, fun _ ha => write_apply_of_outside ha⟩
  failed := fun h => absurd rfl h

/-- The outcome for a value. -/
theorem loggerMaskSecret_some (v : StringAt W m) (out : ℕ) (cap pre suf : W.SizeT) (errno : ℤ) :
    MaskOutcome m (some out) cap.toNat (maskedBytes (some v) pre.toNat suf.toNat)
      (loggerMaskSecret W m (some v) (some out) cap pre suf errno) := by
  -- the parts that are shown are cut to the text
  obtain ⟨hpre, hsuf⟩ := maskClip_eq v.length pre suf
  have hlength := length_maskedBytes_some v pre.toNat suf.toNat
  have hle := shownParts_le v.length.toNat pre.toNat suf.toNat
  have hrange := v.length.isLt
  rw [← hpre, ← hsuf] at hlength hle
  -- with the stars and the end the need is the length of the result
  unfold loggerMaskSecret
  dsimp only
  have hstars : (BitVec.ofNat W.bits (maskText.length + 1)).toNat = 4 :=
    W.toNat_ofNat_small (by decide)
  have hvisible : ((maskClip W v.length pre suf).1 + (maskClip W v.length pre suf).2).toNat =
      (maskClip W v.length pre suf).1.toNat + (maskClip W v.length pre suf).2.toNat :=
    BitVec.toNat_add_of_lt (by omega)
  have hcapRange := cap.isLt
  split_ifs with hcap hlarge hroom
  -- no room at all, so nothing is written
  · refine maskOutcome_of_failure errno (Or.inl rfl) fun _ => ?_
    rw [hcap, hlength, BitVec.toNat_ofNat, Nat.zero_mod]
    omega
  · -- the need is no `size_t`, so it is more than any capacity
    refine maskOutcome_of_failure errno (Or.inr (Or.inr rfl)) fun _ => ?_
    rw [BitVec.lt_def, toNat_sizeMax_sub, hvisible, hstars] at hlarge
    omega
  -- the need is more than the capacity
  · refine maskOutcome_of_failure errno (Or.inr (Or.inl rfl)) fun _ => ?_
    rw [BitVec.lt_def, toNat_add_of_guard hlarge, hvisible, hstars] at hroom
    omega
  -- there is room, and the parts are copied before anything is written
  · have hneed := toNat_add_of_guard hlarge
    rw [hvisible, hstars] at hneed
    rw [BitVec.lt_def, hneed] at hroom
    have htext : maskedBytes (some v) pre.toNat suf.toNat =
        read m v.addr (maskClip W v.length pre suf).1.toNat ++ maskText ++
          read m (v.addr + v.length.toNat - (maskClip W v.length pre suf).2.toNat)
            (maskClip W v.length pre suf).2.toNat ++ [0] := by
      rw [maskedBytes, StringAt.text]
      rw [← hpre, ← hsuf, take_read (by omega), drop_read (Nat.sub_le _ _)]
      congr 3
      · omega
      · omega
    rw [hneed, maskStore_eq hle, ← htext]
    exact maskOutcome_of_write errno (by omega)

/-- Masking a secret, wherever value and output lie in memory. A call succeeds exactly when the
output has room; then the masked bytes of the value as it was before the call are at the output and
no other byte has changed. A call that fails with `-EINVAL`, `-ENOSPC` or `-EOVERFLOW` changes no
byte. Of a value that is not empty, fewer bytes are shown than it has. -/
theorem mask_secret_exact (W : SizeWidth) (m : Memory UInt8) (v : Option (StringAt W m))
    (out : Option ℕ) (cap pre suf : W.SizeT) (errno : ℤ) :
    MaskOutcome m out cap.toNat (maskedBytes v pre.toNat suf.toNat)
        (loggerMaskSecret W m v out cap pre suf errno) ∧
      ∀ n, 0 < n →
        (shownParts n pre.toNat suf.toNat).1 + (shownParts n pre.toNat suf.toNat).2 < n := by
  refine ⟨?_, fun n hn => shownParts_lt hn _ _⟩
  cases out with
  | none => exact maskOutcome_of_failure errno (Or.inl rfl) fun h => absurd rfl h
  | some out =>
    cases v with
    | some v => exact loggerMaskSecret_some v out cap pre suf errno
    | none =>
      have hsize : (BitVec.ofNat W.bits (redactedText.length + 1)).toNat = 11 :=
        W.toNat_ofNat_small (by decide)
      have hlength : (maskedBytes (none : Option (StringAt W m)) pre.toNat suf.toNat).length = 11 :=
        rfl
      unfold loggerMaskSecret
      dsimp only
      split_ifs with hcap hroom
      · refine maskOutcome_of_failure errno (Or.inl rfl) fun _ => ?_
        rw [hcap, hlength, BitVec.toNat_ofNat, Nat.zero_mod]
        decide
      · refine maskOutcome_of_failure errno (Or.inr (Or.inl rfl)) fun _ => ?_
        rw [BitVec.lt_def, hsize] at hroom
        rwa [hlength]
      · rw [BitVec.lt_def, hsize, not_lt] at hroom
        exact maskOutcome_of_write errno (by rwa [hlength])

end Correctness

end CLogger
