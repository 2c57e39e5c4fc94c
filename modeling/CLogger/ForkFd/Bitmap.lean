import CLogger.ForkFd.Model

/-!
# The bitmap and its set

* `BitmapInv` and `KernelInv`: the bitmap and the calls to the kernel, against a set.
* `growFor_spec`, `registerFd_spec`, `unregisterFd_spec`, `releaseEmpty_spec`: the operations on the
  bitmap.
* `acquired_spec` and `consumeFd_spec`: the bodies of the calls, which keep `RegistryInv`.
-/

namespace CLogger

open BitWords

/-! ## The bitmap -/

/-- The bitmap and the count stand for the set `owned`. -/
structure BitmapInv (g : FdRegistry) (owned : Finset ℕ) : Prop where
  mem : ∀ fd : ℕ, isOwned g fd = true ↔ fd ∈ owned
  count : g.ownedCount = owned.card
  unmapped : g.owned = none → g.ownedBytes = 0
  bytes : g.ownedBytes ≤ sizeMax
  poisoned : g.munmapFailed = true → g.gateError ≠ 0

/-- The bitmap is mapped for descriptors only. -/
def Tidy (g : FdRegistry) (owned : Finset ℕ) : Prop :=
  g.munmapFailed = false → owned = ∅ → g.owned = none

/-- The library has `live` open, and has closed nothing twice. -/
structure KernelInv (g : FdRegistry) (live : Finset ℕ) : Prop where
  trace : liveAfter g.trace = some live
  isOpen : live ⊆ g.openFds

theorem isOwned_natCast (g : FdRegistry) (fd : ℕ) :
    isOwned g fd = true ↔ fd / 64 < g.ownedBytes / 8 ∧ bitAt g.words fd = true := by
  simp [isOwned]

/-- Membership of any `int`: a negative one is never owned. -/
theorem BitmapInv.isOwned_iff {g : FdRegistry} {owned : Finset ℕ} (h : BitmapInv g owned) (fd : ℤ) :
    isOwned g fd = true ↔ 0 ≤ fd ∧ fd.toNat ∈ owned := by
  by_cases hfd : 0 ≤ fd
  · have hcast : ((fd.toNat : ℕ) : ℤ) = fd := Int.toNat_of_nonneg hfd
    rw [← h.mem, hcast]
    simp [hfd]
  · simp [isOwned, hfd]

/-- An owned descriptor has its word in the bitmap, so the bitmap is mapped. -/
theorem BitmapInv.mapped {g : FdRegistry} {owned : Finset ℕ} (h : BitmapInv g owned) {fd : ℕ}
    (hfd : fd ∈ owned) : ∃ address, g.owned = some address := by
  cases hown : g.owned with
  | some address => exact ⟨address, rfl⟩
  | none =>
    have hmem := (isOwned_natCast g fd).mp ((h.mem fd).mpr hfd)
    rw [h.unmapped hown] at hmem
    exact absurd hmem.1 (Nat.not_lt_zero _)

/-- Storing to the bitmap changes its words and nothing else. -/
theorem FdRegistry.setWords_words {g : FdRegistry} {address : ℕ} (h : g.owned = some address)
    (words : ℕ → BitVec 64) : (g.setWords words).words = words := by
  unfold setWords FdRegistry.words wordsAt
  simp [h]

/-- The doubling loop stops with enough bytes, far from the limit. -/
theorem doubled_spec {required bytes fuel : ℕ} (hreq : required ≤ 2 ^ 29)
    (hfuel : required ≤ bytes * 2 ^ fuel) :
    ∃ n, doubled required (fuel + 1) bytes = some n ∧ required ≤ n ∧
      (n = bytes ∨ n < 2 * required) := by
  induction fuel generalizing bytes with
  | zero =>
    refine ⟨bytes, ?_, by omega, .inl rfl⟩
    rw [doubled, if_neg (by omega)]
  | succ fuel ih =>
    rw [doubled]
    by_cases hlt : bytes < required
    · have hguard : ¬ bytes > sizeMax / 2 := by
        unfold sizeMax
        omega
      have hnext : required ≤ bytes * 2 * 2 ^ fuel := by
        rw [Nat.mul_assoc, ← Nat.pow_succ']
        exact hfuel
      obtain ⟨n, hn, hle, hbound⟩ := ih hnext
      refine ⟨n, ?_, hle, ?_⟩
      · rw [if_pos hlt, if_neg hguard]
        exact hn
      · omega
    · exact ⟨bytes, if_neg hlt, by omega, .inl rfl⟩

/-- The outcome of `grow_for`: no overflow, room for the descriptor, and the same members. -/
structure Grown (r : ForkReplies) (fd : ℕ) (g : FdRegistry) (rc : ℤ) (g' : FdRegistry) : Prop where
  success : rc = 0 → fd / 64 < g'.ownedBytes / 8
  failure : rc ≠ 0 → r.mapped.ok = false ∧ rc = r.mapped.errno ∧ g' = g
  members : ∀ other : ℤ, isOwned g' other = isOwned g other
  bytes : g'.ownedBytes ≤ sizeMax
  unmapped : g'.owned = none → g'.ownedBytes = 0
  same : g'.ownedCount = g.ownedCount ∧ g'.gateError = g.gateError ∧ g'.openFds = g.openFds ∧
    g'.trace = g.trace ∧ g'.munmapFailed = g.munmapFailed

/-- `grow_for` at any descriptor that fits an `int`. -/
theorem growFor_spec (r : ForkReplies) {fd : ℕ} (hfd : fd < 2 ^ 31) {g : FdRegistry}
    (hg : g.owned = none → g.ownedBytes = 0) (hsize : g.ownedBytes ≤ sizeMax) :
    Grown r fd g (growFor r fd g).1 (growFor r fd g).2 := by
  unfold growFor
  by_cases hroom : (fd / 64 + 1) * 8 ≤ g.ownedBytes
  -- nothing to do: every clause is about an unchanged registry
  · rw [if_pos hroom]
    exact ⟨fun _ => by dsimp only; omega, fun h => absurd rfl h, fun _ => rfl, hsize, hg,
      rfl, rfl, rfl, rfl, rfl⟩
  rw [if_neg hroom]
  obtain ⟨start, hstart⟩ : ∃ n, n = if g.ownedBytes ≠ 0 then g.ownedBytes else 4096 := ⟨_, rfl⟩
  have hpos : 1 ≤ start := by
    rw [hstart]
    split <;> omega
  -- the doubling starts at a positive size, so 64 of them pass any descriptor
  have hfuel : (fd / 64 + 1) * 8 ≤ start * 2 ^ 64 := by
    calc (fd / 64 + 1) * 8 ≤ 1 * 2 ^ 64 := by omega
      _ ≤ start * 2 ^ 64 := Nat.mul_le_mul_right _ hpos
  obtain ⟨bytes, hbytes, hle, hbound⟩ := doubled_spec (by omega) hfuel
  rw [← hstart, hbytes]
  by_cases hok : r.mapped.ok = true
  · simp only [hok, Bool.not_true, Bool.false_eq_true, if_false]
    refine ⟨fun _ => by dsimp only; omega, fun h => absurd rfl h, fun other => ?_, ?_,
      nofun, rfl, rfl, rfl, rfl, rfl⟩
    · -- Words inside the old bitmap are moved, words behind it are zero.
      have hwords : ∀ b, (b / 64 < bytes / 8 ∧ bitAt (remapped g) b = true) ↔
          (b / 64 < g.ownedBytes / 8 ∧ bitAt g.words b = true) := by
        intro b
        by_cases hb : b / 64 < g.ownedBytes / 8
        · have hmapped : g.owned.isSome = true := by
            cases hown : g.owned with
            | none =>
              rw [hg hown] at hb
              exact absurd hb (Nat.not_lt_zero _)
            | some address => rfl
          have hword : bitAt (remapped g) b = bitAt g.words b := by
            unfold bitAt remapped
            rw [if_pos ⟨hmapped, hb⟩]
          have hin : b / 64 < bytes / 8 := by omega
          simp [hb, hword, hin]
        · have hword : bitAt (remapped g) b = false := by
            unfold bitAt remapped
            rw [if_neg fun h => hb h.2]
            exact BitVec.getLsbD_zero
          simp [hb, hword]
      rw [Bool.eq_iff_iff]
      simp only [isOwned, Bool.and_eq_true, decide_eq_true_eq, and_assoc]
      -- a word beyond the old size holds no bit, so the members agree
      refine and_congr_right fun _ => ?_
      simpa [FdRegistry.words, FdRegistry.wordsAt] using hwords other.toNat
    · unfold sizeMax
      dsimp only
      rcases hbound with rfl | hbound
      · rw [hstart]
        split <;> omega
      · omega
  -- a failed mapping leaves the registry as it was
  · have hfail : r.mapped.ok = false := by simpa using hok
    simp only [hfail, Bool.not_false, if_true]
    exact ⟨fun h => absurd h r.mapped.errno_ne_zero, fun _ => ⟨hfail, rfl, rfl⟩, fun _ => rfl,
      hsize, hg, rfl, rfl, rfl, rfl, rfl⟩

theorem isOwned_of_words {g : FdRegistry} {address : ℕ} (h : g.owned = some address)
    (words : ℕ → BitVec 64) (count fd : ℕ) :
    isOwned { g.setWords words with ownedCount := count } fd = true ↔
      fd / 64 < g.ownedBytes / 8 ∧ bitAt words fd = true := by
  have hwords : ({ g.setWords words with ownedCount := count } : FdRegistry).words = words :=
    FdRegistry.setWords_words h words
  rw [isOwned_natCast, hwords]
  rfl

/-- The outcome of `register_fd` for a descriptor that is not in the set. -/
structure Registered (r : ForkReplies) (fd : ℕ) (owned : Finset ℕ) (g : FdRegistry) (rc : ℤ)
    (g' : FdRegistry) : Prop where
  success : rc = 0 → BitmapInv g' (insert fd owned)
  failure : rc ≠ 0 → g' = g
  same : g'.openFds = g.openFds ∧ g'.trace = g.trace

theorem registerFd_spec (r : ForkReplies) {fd : ℕ} (hfd : fd < 2 ^ 31) {g : FdRegistry}
    {owned : Finset ℕ} (hg : BitmapInv g owned) (hnew : fd ∉ owned) :
    Registered r fd owned g (registerFd r fd g).1 (registerFd r fd g).2 := by
  have hgrow := growFor_spec r hfd hg.unmapped hg.bytes
  unfold registerFd
  obtain ⟨rc, g', hres⟩ : ∃ rc g', growFor r fd g = (rc, g') := ⟨_, _, rfl⟩
  rw [hres] at hgrow ⊢
  dsimp only at hgrow ⊢
  obtain ⟨hcount, hgate, hopen, htrace, hmunmap⟩ := hgrow.same
  by_cases hrc : rc = 0
  · have hroom := hgrow.success hrc
    -- a bitmap with room for the word is mapped
    obtain ⟨address, haddress⟩ : ∃ address, g'.owned = some address := by
      apply Option.ne_none_iff_exists'.mp
      intro hnone
      rw [hgrow.unmapped hnone] at hroom
      exact Nat.not_lt_zero _ hroom
    -- growing changes no member, so the new descriptor is still free
    have hfree : isOwned g' fd = false := by
      rw [hgrow.members, ← Bool.not_eq_true, hg.mem]
      exact hnew
    rw [if_neg (not_not.mpr hrc), hfree, if_neg Bool.false_ne_true]
    refine ⟨fun _ => ⟨fun other => ?_, ?_, hgrow.unmapped, hgrow.bytes, ?_⟩,
      fun h => absurd rfl h, hopen, htrace⟩
    · -- The new bit lies in the bitmap; the others are as before.
      rw [isOwned_of_words haddress, bitAt_setBit (Nat.mod_lt _ (by decide)), Finset.mem_insert,
        ← hg.mem, ← hgrow.members, isOwned_natCast, Nat.mul_comm, Nat.div_add_mod]
      constructor
      · rintro ⟨hlt, heq | hbit⟩
        · exact .inl heq
        · exact .inr ⟨hlt, hbit⟩
      · rintro (rfl | ⟨hlt, hbit⟩)
        · exact ⟨hroom, .inl rfl⟩
        · exact ⟨hlt, .inr hbit⟩
    -- the set and the counter both gain one
    · rw [Finset.card_insert_of_notMem hnew, ← hg.count, ← hcount]
    · intro hfailed
      exact hgate ▸ hg.poisoned (hmunmap ▸ hfailed)
  · rw [if_pos hrc]
    obtain ⟨-, -, rfl⟩ := hgrow.failure hrc
    exact ⟨fun h => absurd h hrc, fun _ => rfl, rfl, rfl⟩

/-- `release_empty` leaves an empty set unmapped, or has poisoned the domain. -/
theorem releaseEmpty_spec (r : ForkReplies) {g : FdRegistry} {owned : Finset ℕ}
    (hg : BitmapInv g owned) :
    BitmapInv (releaseEmpty r g).2 owned ∧ Tidy (releaseEmpty r g).2 owned ∧
      (releaseEmpty r g).2.openFds = g.openFds ∧ (releaseEmpty r g).2.trace = g.trace := by
  unfold releaseEmpty
  by_cases hkeep : g.ownedCount ≠ 0 ∨ g.owned = none
  · rw [if_pos hkeep]
    refine ⟨hg, fun _ hempty => ?_, rfl, rfl⟩
    rcases hkeep with hcount | hnone
    · rw [hg.count, hempty, Finset.card_empty] at hcount
      exact absurd rfl hcount
    · exact hnone
  rw [if_neg hkeep]
  have hempty : owned = ∅ := by
    rw [← Finset.card_eq_zero, ← hg.count]
    exact not_not.mp fun h => hkeep (.inl h)
  by_cases hok : r.unmapped.ok = true
  · rw [if_neg (by simp [hok])]
    refine ⟨⟨fun fd => ?_, hg.count, fun _ => rfl, Nat.zero_le _, hg.poisoned⟩, fun _ _ => rfl, rfl,
      rfl⟩
    rw [isOwned_natCast, hempty]
    simp
  · have hfail : r.unmapped.ok = false := by simpa using hok
    rw [if_pos (by simp [hfail])]
    exact ⟨⟨hg.mem, hg.count, hg.unmapped, hg.bytes, fun _ => r.unmapped.errno_ne_zero⟩, nofun, rfl,
      rfl⟩

/-- `unregister_fd` removes a descriptor that is in the set. -/
theorem unregisterFd_spec {g : FdRegistry} {owned : Finset ℕ} (hg : BitmapInv g owned) {fd : ℕ}
    (hfd : fd ∈ owned) : BitmapInv (unregisterFd fd g) (owned.erase fd) := by
  obtain ⟨address, haddress⟩ := hg.mapped hfd
  refine ⟨fun other => ?_, ?_, hg.unmapped, hg.bytes, hg.poisoned⟩
  · rw [unregisterFd, isOwned_of_words haddress, bitAt_clearBit (by decide), Finset.mem_erase,
      ← hg.mem, isOwned_natCast]
    exact and_left_comm
  · rw [Finset.card_erase_of_mem hfd, ← hg.count]
    rfl

/-! ## The calls to the kernel -/

theorem liveAfter_append (trace : List FdEvent) (event : FdEvent) :
    liveAfter (trace ++ [event]) = (liveAfter trace).bind fun live => event.apply live := by
  unfold liveAfter
  rw [List.foldlM_append]
  cases trace.foldlM FdEvent.apply ∅ with
  | none => rfl
  | some live => simp [Option.bind_eq_bind]

/-- The kernel hands out a descriptor that is not open. -/
theorem KernelInv.sysOpen {g : FdRegistry} {live : Finset ℕ} (hg : KernelInv g live) {fd : ℕ}
    (hfd : fd ∉ g.openFds) : KernelInv (g.sysOpen fd) (insert fd live) where
  trace := by
    have hnew : fd ∉ live := fun h => hfd (hg.isOpen h)
    rw [FdRegistry.sysOpen, liveAfter_append, hg.trace]
    simp [FdEvent.apply, hnew]
  isOpen := Finset.insert_subset_insert fd hg.isOpen

/-- A descriptor that the library has open is closed. -/
theorem KernelInv.sysClose {g : FdRegistry} {live : Finset ℕ} (hg : KernelInv g live) {fd : ℕ}
    (hfd : fd ∈ live) : KernelInv (g.sysClose fd) (live.erase fd) where
  trace := by
    rw [FdRegistry.sysClose, liveAfter_append, hg.trace]
    simp [FdEvent.apply, hfd]
  isOpen := Finset.erase_subset_erase fd hg.isOpen

theorem KernelInv.congr {g g' : FdRegistry} {live : Finset ℕ} (hg : KernelInv g live)
    (hopen : g'.openFds = g.openFds) (htrace : g'.trace = g.trace) : KernelInv g' live :=
  ⟨htrace ▸ hg.trace, hopen ▸ hg.isOpen⟩

/-! ## Whole calls -/

/-- The registry between calls stands for the set of descriptors that were handed out. -/
structure RegistryInv (g : FdRegistry) (handed : Finset ℕ) : Prop where
  bitmap : BitmapInv g handed
  tidy : Tidy g handed
  kernel : KernelInv g handed
  fits : ∀ fd ∈ handed, fd < 2 ^ 31

/-- The outcome of the part of an acquiring call under the lock. -/
structure Acquired (r : ForkReplies) (handed : Finset ℕ) (g : FdRegistry) (error fd : ℤ)
    (g' : FdRegistry) : Prop where
  success : error = 0 → fd = r.fd ∧ r.opened.ok = true ∧ RegistryInv g' (insert r.fd handed) ∧
    g'.trace = g.trace ++ [.opened r.fd]
  failure : error ≠ 0 → RegistryInv g' handed ∧
    (r.opened.ok = false ∧ g' = g ∨
      r.opened.ok = true ∧ g'.trace = g.trace ++ [.opened r.fd, .closed r.fd])

theorem acquired_spec (r : ForkReplies) {g : FdRegistry} {handed : Finset ℕ}
    (hg : RegistryInv g handed) (hfd : r.opened.ok = true → r.fd ∉ g.openFds ∧ r.fd < 2 ^ 31) :
    Acquired r handed g (acquired r (sysAcquire r g).1 (sysAcquire r g).2).1
      (acquired r (sysAcquire r g).1 (sysAcquire r g).2).2.1
      (acquired r (sysAcquire r g).1 (sysAcquire r g).2).2.2 := by
  unfold sysAcquire acquired
  by_cases hok : r.opened.ok = true
  · obtain ⟨hnotOpen, hfits⟩ := hfd hok
    -- what the kernel has just opened cannot be in the set, whose members are open
    have hnew : r.fd ∉ handed := fun h => hnotOpen (hg.kernel.isOpen h)
    have hbitmap : BitmapInv (g.sysOpen r.fd) handed :=
      ⟨hg.bitmap.mem, hg.bitmap.count, hg.bitmap.unmapped, hg.bitmap.bytes, hg.bitmap.poisoned⟩
    have hkernel := hg.kernel.sysOpen hnotOpen
    have hreg := registerFd_spec r hfits hbitmap hnew
    rw [if_pos hok]
    dsimp only
    rw [if_neg (by omega), Int.toNat_natCast]
    obtain ⟨rc, g', hres⟩ : ∃ rc g', registerFd r r.fd (g.sysOpen r.fd) = (rc, g') := ⟨_, _, rfl⟩
    rw [hres] at hreg ⊢
    dsimp only at hreg ⊢
    by_cases hrc : rc = 0
    · rw [if_neg (not_not.mpr hrc)]
      refine ⟨fun _ => ⟨rfl, hok, ⟨hreg.success hrc, fun _ hempty => ?_, ?_, ?_⟩, hreg.same.2⟩,
        fun h => absurd rfl h⟩
      -- a set with a member is not the empty one the bitmap is released for
      · exact absurd hempty (Finset.insert_ne_empty _ _)
      · exact hkernel.congr hreg.same.1 hreg.same.2
      · exact Finset.forall_mem_insert .. |>.mpr ⟨hfits, hg.fits⟩
    · rw [if_pos hrc]
      obtain rfl := hreg.failure hrc
      -- the registration failed: the descriptor is closed again at once
      have hclosed := hkernel.sysClose (Finset.mem_insert_self r.fd handed)
      rw [Finset.erase_insert hnew] at hclosed
      refine ⟨fun h => absurd h hrc, fun _ => ⟨⟨?_, hg.tidy, hclosed, hg.fits⟩, .inr ⟨hok, ?_⟩⟩⟩
      · exact ⟨hg.bitmap.mem, hg.bitmap.count, hg.bitmap.unmapped, hg.bitmap.bytes,
          hg.bitmap.poisoned⟩
      · simp [FdRegistry.sysClose, FdRegistry.sysOpen]
  · rw [if_neg hok]
    have hfail : r.opened.ok = false := by simpa using hok
    exact ⟨fun h => absurd h r.opened.errno_ne_zero, fun _ => ⟨hg, .inl ⟨hfail, rfl⟩⟩⟩

/-- The error that consuming a descriptor reports: that of the close or, when the set has become
empty, that of unmapping the bitmap. -/
def consumeError (r : ForkReplies) (handed : Finset ℕ) (fd : ℕ) : ℤ :=
  if r.closed.ok = false then r.closed.errno
  else if handed = {fd} ∧ r.unmapped.ok = false then r.unmapped.errno else 0

/-- The outcome of consuming a descriptor of the set: one `close`, whatever the kernel answers. -/
structure Consumed (r : ForkReplies) (handed : Finset ℕ) (g : FdRegistry) (fd : ℕ) (error : ℤ)
    (g' : FdRegistry) : Prop where
  inv : RegistryInv g' (handed.erase fd)
  trace : g'.trace = g.trace ++ [.closed fd]
  openFds : g'.openFds = g.openFds.erase fd
  error : error = consumeError r handed fd

/-- What `release_empty` reports for a bitmap that is mapped. -/
theorem releaseEmpty_error (r : ForkReplies) {g : FdRegistry} {owned : Finset ℕ}
    (hcount : g.ownedCount = owned.card) (hmapped : g.owned ≠ none) :
    (releaseEmpty r g).1 = if owned = ∅ ∧ r.unmapped.ok = false then r.unmapped.errno else 0 := by
  rw [releaseEmpty, hcount]
  by_cases hempty : owned = ∅
  · have hgo : ¬(owned.card ≠ 0 ∨ g.owned = none) :=
      not_or.mpr ⟨not_not.mpr (Finset.card_eq_zero.mpr hempty), hmapped⟩
    rw [if_neg hgo]
    cases hok : r.unmapped.ok with
    | true => simp
    | false => simp [hempty]
  · rw [if_pos (.inl (mt Finset.card_eq_zero.mp hempty)), if_neg fun h => hempty h.1]

theorem consumeFd_spec (r : ForkReplies) {g : FdRegistry} {handed : Finset ℕ}
    (hg : RegistryInv g handed) {fd : ℕ} (hfd : fd ∈ handed) :
    Consumed r handed g fd (consumeFd r fd g).1 (consumeFd r fd g).2 := by
  have hbitmap : BitmapInv ((unregisterFd fd g).sysClose fd) (handed.erase fd) := by
    have hun := unregisterFd_spec hg.bitmap hfd
    exact ⟨hun.mem, hun.count, hun.unmapped, hun.bytes, hun.poisoned⟩
  have hlive : KernelInv (unregisterFd fd g) handed := hg.kernel.congr rfl rfl
  have hkernel := hlive.sysClose hfd
  obtain ⟨hreleased, htidy, hopen, htrace⟩ := releaseEmpty_spec r hbitmap
  refine ⟨⟨hreleased, htidy, hkernel.congr hopen htrace, fun other hother => ?_⟩, htrace, hopen, ?_⟩
  · exact hg.fits other (Finset.mem_of_mem_erase hother)
  · obtain ⟨address, hmapped⟩ := hg.bitmap.mapped hfd
    have herror := releaseEmpty_error r hbitmap.count
      (show g.owned ≠ none from hmapped ▸ Option.some_ne_none address)
    have hlast : handed.erase fd = ∅ ↔ handed = {fd} :=
      (Finset.erase_eq_empty_iff handed fd).trans (or_iff_right (Finset.ne_empty_of_mem hfd))
    simp only [hlast] at herror
    unfold consumeFd consumeError
    dsimp only
    rw [herror]
    cases r.closed.ok with
    | true => simp
    | false => simp [r.closed.errno_ne_zero]

end CLogger
