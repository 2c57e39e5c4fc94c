import CLogger.ForkFd.Correctness
import CLogger.Lib.DoublyLinked
import CLogger.Lib.SizeT

/-!
# The allocations of the runtime domain

`logger_runtime.c` gives every allocation a private mapping with a header, and keeps the headers in
a doubly linked list in the domain. The calls run under the resource lock of `ForkFd.Model`. A
mapping that cannot be unmapped stays in the list, and poisons the domain.

* `RuntimeDomain`: the list, the mapped headers and the lock.
* `runtimeNext`: one call of the allocator, or of another user of the lock.
* `CallocEffect`, `FreeEffect`: everything a call can do.
* `runtime_allocation_list`: the list in every run.
-/

namespace CLogger

open DoublyLinked SizeWidth TransitionSystem

/-- The words of `size_t`, and `sizeof(struct logger_allocation)`. -/
structure RuntimeWords extends SizeWidth where
  headerSize : BitVec bits
  headerSize_pos : 0 < headerSize

/-- What the allocator asks of the kernel, with what the kernel did. -/
inductive MapCall (T : RuntimeWords) where
  | mmap (bytes : T.SizeT) (address : Option ℕ)
  | madvise (address : ℕ) (bytes : T.SizeT) (ok : Bool)
  | munmap (address : ℕ) (bytes : T.SizeT) (ok : Bool)

/-- What the calls inside one allocator call answer. -/
structure RuntimeReplies extends ForkReplies where
  /-- `madvise`. -/
  advised : Answer := {}

/-- The parts of `struct logger_runtime` that the allocator uses, and the headers
`struct logger_allocation` of the mappings by address; `bytes` is the data of a node. -/
structure RuntimeDomain (T : RuntimeWords) (ι : Type) where
  fork : ForkDomain ι := {}
  allocations : Option ℕ := none
  allocationCount : ℕ := 0
  memory : Memory T.SizeT := fun _ => none
  /-- The pointers that calls have returned and no call has freed since; no code reads it. -/
  live : Finset ℕ := ∅
  /-- The calls of the kernel; no code reads it. -/
  calls : List (MapCall T) := []
  /-- Whether a header was accessed that is not mapped; no code reads it. -/
  faulted : Bool := false

/-- What `logger_runtime_calloc` returns, and the error number it sets, `0` for none. -/
structure RuntimeReturn where
  pointer : Option ℕ := none
  errno : ℤ := 0

section Code

variable {T : RuntimeWords} {ι : Type} [DecidableEq ι]

namespace RuntimeDomain

/-- `logger_fork_resource_poison`. -/
def poison (s : RuntimeDomain T ι) (error : ℤ) : RuntimeDomain T ι :=
  { s with fork := s.fork.poison error }

/-- The kernel maps zeroed pages. -/
def sysMmap (s : RuntimeDomain T ι) (address : ℕ) (bytes : T.SizeT) : RuntimeDomain T ι :=
  { s with
    memory := Function.update s.memory address (some ⟨none, none, 0⟩)
    calls := s.calls ++ [.mmap bytes (some address)] }

/-- The kernel takes a mapping away, or fails to. -/
def sysMunmap (s : RuntimeDomain T ι) (address : ℕ) (bytes : T.SizeT) (ok : Bool) :
    RuntimeDomain T ι :=
  { s with
    memory := if ok then Function.update s.memory address none else s.memory
    calls := s.calls ++ [.munmap address bytes ok] }

/-- The assignment `allocation->bytes = bytes`. -/
def storeBytes (s : RuntimeDomain T ι) (address : ℕ) (bytes : T.SizeT) : RuntimeDomain T ι :=
  match s.memory address with
  | none => { s with faulted := true }
  | some node =>
    { s with memory := Function.update s.memory address (some { node with data := bytes }) }

/-- `link_allocation`. -/
def linkAllocation (s : RuntimeDomain T ι) (address : ℕ) : RuntimeDomain T ι :=
  match pushFront s.memory s.allocations address with
  | none => { s with faulted := true }
  | some memory =>
    { s with
      memory := memory
      allocations := some address
      allocationCount := s.allocationCount + 1 }

end RuntimeDomain

/-- The size that `logger_runtime_calloc` maps. -/
def allocationBytes (T : RuntimeWords) (count size : T.SizeT) : T.SizeT :=
  T.headerSize + count * size

/-- The part of `logger_runtime_calloc` under the lock: the error, the mapping, and the domain. -/
def mapAllocation (r : RuntimeReplies) (bytes : T.SizeT) (s : RuntimeDomain T ι) :
    ℤ × Option ℕ × RuntimeDomain T ι :=
  if !r.mapped.ok then
    (r.mapped.errno, none, { s with calls := s.calls ++ [.mmap bytes none] })
  else
    let s := (s.sysMmap r.address bytes).storeBytes r.address bytes
    let s : RuntimeDomain T ι :=
      { s with calls := s.calls ++ [.madvise r.address bytes r.advised.ok] }
    if !r.advised.ok then
      let s := s.sysMunmap r.address bytes r.unmapped.ok
      -- the candidate stays with the domain when it cannot be unmapped
      let s := if !r.unmapped.ok then (s.linkAllocation r.address).poison r.unmapped.errno else s
      (r.advised.errno, none, s)
    else (0, some r.address, s.linkAllocation r.address)

/-- `logger_runtime_calloc`; nothing while another thread holds the lock. -/
def loggerRuntimeCalloc (r : RuntimeReplies) (t : ι) (count size : T.SizeT)
    (s : RuntimeDomain T ι) : Option (RuntimeReturn × RuntimeDomain T ι) :=
  if count = 0#T.bits ∨ size = 0#T.bits ∨ (T.sizeMax - T.headerSize) / count < size then
    some ({ errno := eoverflow }, s)
  else
    (loggerForkResourceEnter r.toForkReplies t s.fork).map fun entered =>
      let s := { s with fork := entered.2 }
      if entered.1 ≠ 0 then ({ errno := entered.1 }, s)
      else
        let mapped := mapAllocation r (allocationBytes T count size) s
        let left := loggerForkResourceLeave r.toForkReplies t mapped.1 mapped.2.2.fork
        let s := { mapped.2.2 with fork := left.2 }
        if left.1 ≠ 0 then ({ errno := left.1 }, s)
        else ({ pointer := mapped.2.1.map (· + T.headerSize.toNat) }, s)

/-- `logger_runtime_malloc`. -/
def loggerRuntimeMalloc (r : RuntimeReplies) (t : ι) (size : T.SizeT) (s : RuntimeDomain T ι) :
    Option (RuntimeReturn × RuntimeDomain T ι) := loggerRuntimeCalloc r t 1#T.bits size s

/-- The part of `logger_runtime_free` under the lock: the error and the domain. The links are read
before the mapping is gone. -/
def releaseAllocation (r : RuntimeReplies) (address : ℕ) (s : RuntimeDomain T ι) :
    ℤ × RuntimeDomain T ι :=
  match s.memory address with
  | none => (0, { s with faulted := true })
  | some node =>
    let s := s.sysMunmap address node.data r.unmapped.ok
    if !r.unmapped.ok then (r.unmapped.errno, s.poison r.unmapped.errno)
    else
      match unlink s.memory s.allocations node.prev node.next with
      | none => (0, { s with faulted := true })
      | some unlinked =>
        (0, { s with
          memory := unlinked.1
          allocations := unlinked.2
          allocationCount := s.allocationCount - 1 })

/-- `logger_runtime_free`; nothing while another thread holds the lock. -/
def loggerRuntimeFree (r : RuntimeReplies) (t : ι) (ptr : Option ℕ) (s : RuntimeDomain T ι) :
    Option (ℤ × RuntimeDomain T ι) :=
  match ptr with
  | none => some (0, s)
  | some ptr =>
    (loggerForkResourceEnter r.toForkReplies t s.fork).map fun entered =>
      let s := { s with fork := entered.2 }
      if entered.1 ≠ 0 then (-entered.1, s)
      else
        let released := releaseAllocation r (ptr - T.headerSize.toNat) s
        let left := loggerForkResourceLeave r.toForkReplies t released.1 released.2.fork
        (-released.1, { released.2 with fork := left.2 })

/-- A call of the allocator, or a step of the other users of the resource lock. -/
inductive RuntimeAction (T : RuntimeWords) (ι : Type) where
  | calloc (t : ι) (count size : T.SizeT) (r : RuntimeReplies)
  | malloc (t : ι) (size : T.SizeT) (r : RuntimeReplies)
  | free (t : ι) (ptr : Option ℕ) (r : RuntimeReplies)
  | fork (a : ForkAction ι)

/-- A caller keeps the pointer it got. -/
def RuntimeDomain.keep (s : RuntimeDomain T ι) (ret : RuntimeReturn) : RuntimeDomain T ι :=
  { s with live := ret.pointer.elim s.live fun p => insert p s.live }

/-- A caller gives up the pointer it freed, if the call says so. -/
def RuntimeDomain.giveUp (s : RuntimeDomain T ι) (ptr : Option ℕ) (rc : ℤ) :
    RuntimeDomain T ι :=
  { s with live := if rc = 0 then ptr.elim s.live s.live.erase else s.live }

/-- One step of a run. -/
def runtimeNext (s : RuntimeDomain T ι) : RuntimeAction T ι → Option (RuntimeDomain T ι)
  | .calloc t count size r => (loggerRuntimeCalloc r t count size s).map fun c => c.2.keep c.1
  | .malloc t size r => (loggerRuntimeMalloc r t size s).map fun c => c.2.keep c.1
  | .free t ptr r => (loggerRuntimeFree r t ptr s).map fun c => c.2.giveUp ptr c.1
  | .fork a => (forkNext s.fork a).map fun fork => { s with fork := fork }

/-- The kernel maps where nothing is mapped, and not at the null address. -/
def FreshMapping (r : RuntimeReplies) (s : RuntimeDomain T ι) : Prop :=
  r.mapped.ok = true → r.address ≠ 0 ∧ s.memory r.address = none

/-- The side condition on runs: the resource lock works, the kernel maps and opens what is free,
and only live pointers are freed. -/
def RuntimeStep (s : RuntimeDomain T ι) : RuntimeAction T ι → RuntimeDomain T ι → Prop
  | .calloc _ _ _ r, _ => r.lock = 0 ∧ r.unlock = 0 ∧ FreshMapping r s
  | .malloc _ _ r, _ => r.lock = 0 ∧ r.unlock = 0 ∧ FreshMapping r s
  | .free _ ptr r, _ => r.lock = 0 ∧ r.unlock = 0 ∧ ∀ p, ptr = some p → p ∈ s.live
  | .fork a, s' => KernelStep s.fork a s'.fork

/-- A domain without allocations, whatever its other users do. -/
def runtimeStart (T : RuntimeWords) (fork : ForkDomain ι) : RuntimeDomain T ι := { fork := fork }

end Code

section Sizes

variable (T : RuntimeWords)

/-- The guard of `logger_runtime_calloc` passes exactly the sizes that fit, and then the size that
is mapped is exact. -/
theorem calloc_guard (count size : T.SizeT) :
    (¬(count = 0#T.bits ∨ size = 0#T.bits ∨ (T.sizeMax - T.headerSize) / count < size) ↔
      0 < count.toNat ∧ 0 < size.toNat ∧
        T.headerSize.toNat + count.toNat * size.toNat ≤ T.sizeMax.toNat) ∧
    (T.headerSize.toNat + count.toNat * size.toNat ≤ T.sizeMax.toNat →
      (allocationBytes T count size).toNat = T.headerSize.toNat + count.toNat * size.toNat) := by
  have hheader := T.headerSize.isLt
  have hrange := Nat.two_pow_pos T.bits
  have hzero : ∀ n : T.SizeT, n = 0#T.bits ↔ n.toNat = 0 := by
    intro n
    rw [← BitVec.toNat_inj, BitVec.toNat_ofNat, Nat.zero_mod]
  constructor
  · simp only [not_or, hzero, BitVec.lt_def, BitVec.toNat_udiv, toNat_sizeMax_sub, not_lt,
      toNat_sizeMax]
    constructor
    · rintro ⟨hcount, hsize, hguard⟩
      rw [Nat.le_div_iff_mul_le (by omega), mul_comm] at hguard
      omega
    · rintro ⟨hcount, hsize, hfits⟩
      refine ⟨by omega, by omega, ?_⟩
      rw [Nat.le_div_iff_mul_le hcount, mul_comm]
      omega
  · intro hfits
    rw [toNat_sizeMax] at hfits
    have hproduct : (count * size).toNat = count.toNat * size.toNat :=
      BitVec.toNat_mul_of_lt (by omega)
    rw [allocationBytes, BitVec.toNat_add_of_lt (by rw [hproduct]; omega), hproduct]

end Sizes

section Poison

variable {ι : Type} [DecidableEq ι] {s s' : ForkDomain ι} {r : ForkReplies} {t : ι}

/-- A poisoned domain admits nobody. -/
theorem enter_poisoned (h : s.registry.gateError ≠ 0) :
    ∃ rc, rc ≠ 0 ∧ loggerForkResourceEnter r t s = some (rc, s) := by
  unfold loggerForkResourceEnter
  split_ifs with hrequire hgate
  · exact ⟨_, neg_ne_zero.mpr hrequire, rfl⟩
  · exact ⟨_, by decide, rfl⟩
  · exact ⟨_, h, rfl⟩

theorem unlock_poisoned (h : s.registry.gateError ≠ 0) (error : ℤ) :
    (s.unlock t error).registry.gateError ≠ 0 := by
  unfold ForkDomain.unlock
  dsimp only
  split
  · assumption
  · exact h

theorem consumeFd_poisoned {g : FdRegistry} (h : g.gateError ≠ 0) (fd : ℕ) :
    (consumeFd r fd g).2.gateError ≠ 0 := by
  unfold consumeFd releaseEmpty
  dsimp only
  split_ifs
  · exact h
  · exact r.unmapped.errno_ne_zero
  · exact h

/-- Nothing the registry does lifts the poison. -/
theorem forkNext_poisoned {a : ForkAction ι} (h : s.registry.gateError ≠ 0)
    (hnext : forkNext s a = some s') : s'.registry.gateError ≠ 0 := by
  cases a with
  -- the actions of the host do not look at the gate
  | hostOpen fd =>
    simp only [forkNext] at hnext
    split_ifs at hnext
    rw [← Option.some.inj hnext]
    exact h
  | hostClose fd =>
    simp only [forkNext] at hnext
    split_ifs at hnext
    rw [← Option.some.inj hnext]
    exact h
  | poison error =>
    simp only [forkNext] at hnext
    split_ifs at hnext with herror
    rw [← Option.some.inj hnext]
    exact herror
  | call t call r =>
    simp only [forkNext, Option.map_eq_some_iff] at hnext
    obtain ⟨⟨ret, s₁⟩, hcall, rfl⟩ := hnext
    show s₁.registry.gateError ≠ 0
    -- the gate is found poisoned, and each call returns before it does anything
    obtain ⟨rc, hrc, henter⟩ := enter_poisoned (r := r) (t := t) h
    cases call with
    | «open» =>
      simp only [forkCall, loggerForkOpen, forkAcquire, henter, Option.bind_eq_bind,
        Option.bind_some, if_pos hrc] at hcall
      rwa [← (Prod.mk.inj (Option.some.inj hcall)).2]
    | openat =>
      simp only [forkCall, loggerForkOpenat, forkAcquire, henter, Option.bind_eq_bind,
        Option.bind_some, if_pos hrc] at hcall
      rwa [← (Prod.mk.inj (Option.some.inj hcall)).2]
    | socket =>
      simp only [forkCall, loggerForkSocket, forkAcquire, henter, Option.bind_eq_bind,
        Option.bind_some, if_pos hrc] at hcall
      rwa [← (Prod.mk.inj (Option.some.inj hcall)).2]
    | close fd =>
      simp only [forkCall, loggerForkClose, henter, Option.bind_eq_bind, Option.bind_some,
        if_pos hrc] at hcall
      rwa [← (Prod.mk.inj (Option.some.inj hcall)).2]
    | fdopendir fd =>
      simp only [forkCall, loggerForkFdopendir, henter, Option.bind_eq_bind, Option.bind_some,
        if_pos hrc] at hcall
      rwa [← (Prod.mk.inj (Option.some.inj hcall)).2]
    -- a `closedir` takes the lock only for a stream that is its own
    | closedir dir =>
      have hs₁ : (loggerForkClosedir r t dir s).2 = s₁ :=
        congrArg Prod.snd (Option.some.inj hcall)
      rw [← hs₁]
      unfold loggerForkClosedir
      split
      · exact h
      · split
        · exact h
        · refine unlock_poisoned ?_ r.unlock
          show FdRegistry.gateError _ ≠ 0
          split
          · show euclean ≠ 0
            decide
          · exact consumeFd_poisoned h _
    -- the fork handlers take and give back locks
    | prepare =>
      simp only [forkCall, Option.map_eq_some_iff] at hcall
      obtain ⟨s₂, hprepare, heq⟩ := hcall
      rw [← (Prod.mk.inj heq).2]
      unfold loggerForkFdPrepare at hprepare
      split_ifs at hprepare
      all_goals
        rw [← Option.some.inj hprepare]
        exact h
    | parent =>
      have hs₁ : loggerForkFdParent r t s = s₁ := congrArg Prod.snd (Option.some.inj hcall)
      rw [← hs₁]
      unfold loggerForkFdParent
      split
      · exact h
      · show FdRegistry.gateError (if _ then _ else _ : ForkDomain ι).registry ≠ 0
        split
        · exact unlock_poisoned h r.unlock
        · exact h

end Poison

section Links

variable {T : RuntimeWords} {ι : Type} {s : RuntimeDomain T ι} {r : RuntimeReplies} {xs : List ℕ}

/-- The list is the one at `xs`, and nothing else is mapped. -/
structure ListAt (s : RuntimeDomain T ι) (xs : List ℕ) : Prop where
  linked : Linked s.memory s.allocations xs
  count : s.allocationCount = xs.length
  mapped : ∀ a, (s.memory a).isSome ↔ a ∈ xs
  sound : s.faulted = false

/-- The domain with a new mapping that is not linked. -/
def RuntimeDomain.withNode (s : RuntimeDomain T ι) (a : ℕ) (bytes : T.SizeT)
    (calls : List (MapCall T)) : RuntimeDomain T ι :=
  { s with
    memory := Function.update s.memory a (some ⟨none, none, bytes⟩)
    calls := s.calls ++ calls }

theorem linkAllocation_fork (a : ℕ) : (s.linkAllocation a).fork = s.fork := by
  unfold RuntimeDomain.linkAllocation
  split <;> rfl

theorem linkAllocation_live (a : ℕ) : (s.linkAllocation a).live = s.live := by
  unfold RuntimeDomain.linkAllocation
  split <;> rfl

theorem linkAllocation_calls (a : ℕ) : (s.linkAllocation a).calls = s.calls := by
  unfold RuntimeDomain.linkAllocation
  split <;> rfl

/-- Linking a new mapping puts it in front of the list. -/
theorem linkAllocation_new (h : ListAt s xs) {a : ℕ} (ha : s.memory a = none) (bytes : T.SizeT)
    (calls : List (MapCall T)) :
    ListAt ((s.withNode a bytes calls).linkAllocation a) (a :: xs) := by
  have hnot : a ∉ xs := by
    rw [← h.mapped, ha]
    exact Bool.false_ne_true
  have hsegment : Segment (Function.update s.memory a (some ⟨none, none, bytes⟩)) none xs none := by
    refine h.linked.segment.congr fun x hx => Function.update_of_ne ?_ _ _
    rintro rfl
    exact hnot hx
  obtain ⟨memory, hpush, hlinked, hdata⟩ :=
    pushFront_linked ⟨h.linked.head, h.linked.nodup, hsegment⟩ hnot
      (by rw [Function.update_self]; rfl)
  rw [RuntimeDomain.linkAllocation, RuntimeDomain.withNode, hpush]
  refine ⟨hlinked, ?_, fun x => ?_, h.sound⟩
  · show s.allocationCount + 1 = _
    rw [h.count, List.length_cons]
  · show (memory x).isSome ↔ _
    rw [hdata.isSome, List.mem_cons]
    by_cases hx : x = a
    · simp [hx]
    · rw [Function.update_of_ne hx, h.mapped, or_iff_right hx]

/-- What `mapAllocation` does when `mmap` succeeds, by the answers of `madvise` and `munmap`. -/
theorem mapAllocation_mapped (hmapped : r.mapped.ok = true) (bytes : T.SizeT) :
    mapAllocation r bytes s =
      if r.advised.ok then
        (0, some r.address, (s.withNode r.address bytes [.mmap bytes (some r.address),
          .madvise r.address bytes true]).linkAllocation r.address)
      else if r.unmapped.ok then
        (r.advised.errno, none, { s with
          memory := Function.update s.memory r.address none
          calls := s.calls ++ [.mmap bytes (some r.address), .madvise r.address bytes false,
            .munmap r.address bytes true] })
      else
        (r.advised.errno, none, ((s.withNode r.address bytes [.mmap bytes (some r.address),
          .madvise r.address bytes false, .munmap r.address bytes false]).linkAllocation
            r.address).poison r.unmapped.errno) := by
  -- the header is written to the new mapping
  have hstored : (s.sysMmap r.address bytes).storeBytes r.address bytes =
      s.withNode r.address bytes [.mmap bytes (some r.address)] := by
    have hnode : (s.sysMmap r.address bytes).memory r.address = some ⟨none, none, 0⟩ :=
      Function.update_self _ _ _
    rw [RuntimeDomain.storeBytes, hnode]
    simp [RuntimeDomain.sysMmap, RuntimeDomain.withNode]
  unfold mapAllocation
  rw [hstored, hmapped]
  cases hadvised : r.advised.ok with
  -- after a failed `madvise` the mapping is undone
  | true => simp [RuntimeDomain.withNode]
  | false =>
    cases hunmapped : r.unmapped.ok with
    | true => simp [RuntimeDomain.withNode, RuntimeDomain.sysMunmap]
    -- unless `munmap` fails too, and then the list keeps it
    | false => simp [RuntimeDomain.withNode, RuntimeDomain.sysMunmap]

end Links

section Effects

variable {T : RuntimeWords} {ι : Type} [DecidableEq ι] {s s' : RuntimeDomain T ι}
  {r : RuntimeReplies} {t : ι} {xs : List ℕ}

/-- What refusing a caller does to the domain: nothing, or what another thread stored meanwhile. -/
def RefusedFork (fork fork' : ForkDomain ι) : Prop :=
  fork' = fork ∨ ∃ error, error ≠ 0 ∧ fork' = fork.poison error

/-- Everything `logger_runtime_calloc` can do with the size `bytes`. -/
inductive CallocEffect (r : RuntimeReplies) (bytes : T.SizeT) (s : RuntimeDomain T ι)
    (xs : List ℕ) : RuntimeReturn → RuntimeDomain T ι → Prop
  | refused {error : ℤ} {fork : ForkDomain ι} : error ≠ 0 → RefusedFork s.fork fork →
      CallocEffect r bytes s xs { errno := error } { s with fork := fork }
  | unmapped : CallocEffect r bytes s xs { errno := r.mapped.errno }
      { s with calls := s.calls ++ [.mmap bytes none] }
  | dropped : CallocEffect r bytes s xs { errno := r.advised.errno }
      { s with calls := s.calls ++ [.mmap bytes (some r.address),
          .madvise r.address bytes false, .munmap r.address bytes true] }
  | retained {s' : RuntimeDomain T ι} : s.fork.registry.gateError = 0 →
      ListAt s' (r.address :: xs) → s'.live = s.live →
      s'.fork = s.fork.poison r.unmapped.errno →
      s'.calls = s.calls ++ [.mmap bytes (some r.address), .madvise r.address bytes false,
        .munmap r.address bytes false] →
      CallocEffect r bytes s xs { errno := r.advised.errno } s'
  | allocated {s' : RuntimeDomain T ι} : s.fork.registry.gateError = 0 →
      ListAt s' (r.address :: xs) → s'.live = s.live → s'.fork = s.fork →
      s'.calls = s.calls ++ [.mmap bytes (some r.address), .madvise r.address bytes true] →
      CallocEffect r bytes s xs { pointer := some (r.address + T.headerSize.toNat) } s'

/-- Everything `logger_runtime_free` can do with the mapping `a` of the list. -/
inductive FreeEffect (r : RuntimeReplies) (s : RuntimeDomain T ι) (xs : List ℕ) (a : ℕ) :
    ℤ → RuntimeDomain T ι → Prop
  | refused {error : ℤ} {fork : ForkDomain ι} : error ≠ 0 → RefusedFork s.fork fork →
      FreeEffect r s xs a (-error) { s with fork := fork }
  | retained {bytes : T.SizeT} : s.fork.registry.gateError = 0 →
      FreeEffect r s xs a (-r.unmapped.errno)
        { s with
          fork := s.fork.poison r.unmapped.errno
          calls := s.calls ++ [.munmap a bytes false] }
  | released {bytes : T.SizeT} {s' : RuntimeDomain T ι} {ys zs : List ℕ} :
      s.fork.registry.gateError = 0 → xs = ys ++ a :: zs → ListAt s' (ys ++ zs) →
      s'.live = s.live → s'.fork = s.fork → s'.calls = s.calls ++ [.munmap a bytes true] →
      FreeEffect r s xs a 0 s'

/-- The entry: the caller is refused, or has the lock and a way out that works. -/
theorem enter_runtime (hlock : r.lock = 0) (hunlock : r.unlock = 0) {entered : ℤ × ForkDomain ι}
    (h : loggerForkResourceEnter r.toForkReplies t s.fork = some entered) :
    (entered.1 ≠ 0 ∧ RefusedFork s.fork entered.2) ∨
      (entered.1 = 0 ∧ s.fork.registry.gateError = 0 ∧ entered.2 = s.fork.entered t ∧
        ∀ error g, loggerForkResourceLeave r.toForkReplies t error
          ((s.fork.entered t).setRegistry g) = (error, s.fork.setRegistry g)) := by
  rcases enter_cases hlock hunlock h with ⟨hrc, -, hsame | hpoison⟩ | ⟨hrc, hadmitted, hidle, hs⟩
  · exact .inl ⟨hrc, .inl hsame⟩
  · exact .inl ⟨hrc, .inr ⟨_, hrc, hpoison⟩⟩
  · exact .inr ⟨hrc, hadmitted.2.2.1, hs, leave_entered hunlock hidle hadmitted.2.1⟩

/-- The way out of `logger_runtime_calloc` after `mapAllocation`. -/
def callocLeave (r : RuntimeReplies) (t : ι) (mapped : ℤ × Option ℕ × RuntimeDomain T ι) :
    RuntimeReturn × RuntimeDomain T ι :=
  let left := loggerForkResourceLeave r.toForkReplies t mapped.1 mapped.2.2.fork
  let s := { mapped.2.2 with fork := left.2 }
  if left.1 ≠ 0 then ({ errno := left.1 }, s)
  else ({ pointer := mapped.2.1.map (· + T.headerSize.toNat) }, s)

/-- The way out with an error, the domain left being `s'`. -/
theorem callocLeave_failed {error : ℤ} (herror : error ≠ 0) {a : Option ℕ}
    {fork' : ForkDomain ι}
    (hleave : loggerForkResourceLeave r.toForkReplies t error s.fork = (error, fork')) :
    callocLeave r t (error, a, s) = ({ errno := error }, { s with fork := fork' }) := by
  simp only [callocLeave, hleave, if_pos herror]

theorem callocLeave_done {a : ℕ} {fork' : ForkDomain ι}
    (hleave : loggerForkResourceLeave r.toForkReplies t 0 s.fork = (0, fork')) :
    callocLeave r t (0, some a, s) =
      ({ pointer := some (a + T.headerSize.toNat) }, { s with fork := fork' }) := by
  simp [callocLeave, hleave]

/-- What happens under the lock, and on the way out of it. -/
theorem callocLeave_effect (hs : ListAt s xs) (hfresh : FreshMapping r s) (bytes : T.SizeT)
    (hgate : s.fork.registry.gateError = 0)
    (hleave : ∀ error g, loggerForkResourceLeave r.toForkReplies t error
      ((s.fork.entered t).setRegistry g) = (error, s.fork.setRegistry g)) :
    CallocEffect r bytes s xs
      (callocLeave r t (mapAllocation r bytes { s with fork := s.fork.entered t })).1
      (callocLeave r t (mapAllocation r bytes { s with fork := s.fork.entered t })).2 := by
  -- the way out keeps the error it is given
  have hsame : ∀ error, loggerForkResourceLeave r.toForkReplies t error (s.fork.entered t) =
      (error, s.fork) := fun error => hleave error s.fork.registry
  by_cases hmapped : r.mapped.ok = true
  swap
  -- nothing was mapped
  · rw [mapAllocation, if_pos (by simpa using hmapped),
      callocLeave_failed r.mapped.errno_ne_zero (hsame _)]
    exact .unmapped
  have hnone := (hfresh hmapped).2
  have hlist : ListAt { s with fork := s.fork.entered t } xs :=
    ⟨hs.linked, hs.count, hs.mapped, hs.sound⟩
  rw [mapAllocation_mapped hmapped]
  by_cases hadvised : r.advised.ok = true
  -- the mapping is linked, and its pointer handed out
  · have hnew := linkAllocation_new hlist hnone bytes
      [.mmap bytes (some r.address), .madvise r.address bytes true]
    rw [if_pos hadvised, callocLeave_done (by rw [linkAllocation_fork]; exact hsame 0)]
    refine .allocated hgate ⟨hnew.linked, hnew.count, hnew.mapped, hnew.sound⟩ ?_ rfl ?_
    · exact linkAllocation_live _
    · exact linkAllocation_calls _
  rw [if_neg hadvised]
  by_cases hunmapped : r.unmapped.ok = true
  · rw [if_pos hunmapped, callocLeave_failed r.advised.errno_ne_zero (hsame _)]
    -- the address is as unmapped as it was before
    have hgone : Function.update s.memory r.address none = s.memory := by
      rw [← hnone, Function.update_eq_self]
    simp only [hgone]
    exact .dropped
  -- the mapping could not be undone, so it is linked and the domain poisoned
  · have hnew := linkAllocation_new hlist hnone bytes [.mmap bytes (some r.address),
      .madvise r.address bytes false, .munmap r.address bytes false]
    have hpoison : ∀ error, loggerForkResourceLeave r.toForkReplies t error
        ((s.fork.entered t).poison r.unmapped.errno) = (error, s.fork.poison r.unmapped.errno) :=
      fun error => hleave error (s.fork.registry.poison r.unmapped.errno)
    rw [if_neg hunmapped, callocLeave_failed r.advised.errno_ne_zero (by
      rw [RuntimeDomain.poison, linkAllocation_fork]
      exact hpoison _)]
    refine .retained hgate ⟨hnew.linked, hnew.count, hnew.mapped, hnew.sound⟩ ?_ rfl ?_
    · exact linkAllocation_live _
    · exact linkAllocation_calls _

theorem loggerRuntimeCalloc_effect (hs : ListAt s xs) (hlock : r.lock = 0) (hunlock : r.unlock = 0)
    (hfresh : FreshMapping r s) {count size : T.SizeT} {ret : RuntimeReturn}
    (h : loggerRuntimeCalloc r t count size s = some (ret, s')) :
    CallocEffect r (allocationBytes T count size) s xs ret s' := by
  unfold loggerRuntimeCalloc at h
  split at h
  · obtain ⟨rfl, rfl⟩ := Prod.mk.inj (Option.some.inj h)
    exact .refused (by decide) (.inl rfl)
  obtain ⟨entered, henter, hret⟩ := Option.map_eq_some_iff.mp h
  dsimp only at hret
  rcases enter_runtime hlock hunlock henter with ⟨hrc, hfork⟩ | ⟨hrc, hgate, hentered, hleave⟩
  · rw [if_pos hrc] at hret
    obtain ⟨rfl, rfl⟩ := Prod.mk.inj hret
    exact .refused hrc hfork
  · rw [if_neg (not_not.mpr hrc), hentered] at hret
    have heffect := callocLeave_effect hs hfresh (allocationBytes T count size) hgate hleave
    unfold callocLeave at heffect
    rw [hret] at heffect
    exact heffect

omit [DecidableEq ι] in
/-- Freeing a mapping of the list. -/
theorem releaseAllocation_cases (hs : ListAt s xs) {a : ℕ} (ha : a ∈ xs) :
    ∃ bytes, (r.unmapped.ok = false ∧ releaseAllocation r a s = (r.unmapped.errno,
        { s with
          fork := s.fork.poison r.unmapped.errno
          calls := s.calls ++ [.munmap a bytes false] })) ∨
      ∃ ys zs s', xs = ys ++ a :: zs ∧ ListAt s' (ys ++ zs) ∧ s'.live = s.live ∧
        s'.fork = s.fork ∧ s'.calls = s.calls ++ [.munmap a bytes true] ∧
        releaseAllocation r a s = (0, s') := by
  obtain ⟨ys, zs, rfl⟩ := List.append_of_mem ha
  obtain ⟨bytes, hnode⟩ := hs.linked.links
  refine ⟨bytes, ?_⟩
  unfold releaseAllocation
  rw [hnode]
  -- a failed `munmap` leaves the list as it is
  cases hunmapped : r.unmapped.ok with
  | false => exact .inl ⟨rfl, by simp [RuntimeDomain.sysMunmap, RuntimeDomain.poison]⟩
  | true =>
    -- the node is unlinked, which the neighbours of the list allow
    obtain ⟨memory, head, hunlink, hlinked, hdata⟩ := unlink_linked hs.linked
    refine .inr ⟨ys, zs, { s with
      memory := memory
      allocations := head
      allocationCount := s.allocationCount - 1
      calls := s.calls ++ [.munmap a bytes true] }, rfl, ⟨hlinked, ?_, ?_, hs.sound⟩, rfl, rfl,
      rfl, ?_⟩
    · show s.allocationCount - 1 = _
      rw [hs.count]
      simp only [List.length_append, List.length_cons]
      omega
    · -- what stays mapped are the other nodes
      intro x
      show (memory x).isSome ↔ _
      rw [hdata.isSome]
      have hnodup := hs.linked.nodup
      rw [List.nodup_middle, List.nodup_cons] at hnodup
      by_cases hx : x = a
      · rw [hx, Function.update_self]
        simp only [Option.isSome_none, Bool.false_eq_true, false_iff]
        exact hnodup.1
      · rw [Function.update_of_ne hx, hs.mapped]
        simp [hx]
    · simp [RuntimeDomain.sysMunmap, hunlink]

theorem loggerRuntimeFree_effect (hs : ListAt s xs) (hlock : r.lock = 0) (hunlock : r.unlock = 0)
    {a : ℕ} (ha : a ∈ xs) {rc : ℤ}
    (h : loggerRuntimeFree r t (some (a + T.headerSize.toNat)) s = some (rc, s')) :
    FreeEffect r s xs a rc s' := by
  unfold loggerRuntimeFree at h
  obtain ⟨entered, henter, hret⟩ := Option.map_eq_some_iff.mp h
  dsimp only at hret
  -- the gate has refused the call
  rcases enter_runtime hlock hunlock henter with ⟨hrc, hfork⟩ | ⟨hrc, hgate, hentered, hleave⟩
  · rw [if_pos hrc] at hret
    obtain ⟨rfl, rfl⟩ := Prod.mk.inj hret
    exact .refused hrc hfork
  rw [if_neg (not_not.mpr hrc), hentered, Nat.add_sub_cancel] at hret
  have hlist : ListAt { s with fork := s.fork.entered t } xs :=
    ⟨hs.linked, hs.count, hs.mapped, hs.sound⟩
  obtain ⟨bytes, ⟨-, hreleased⟩ | ⟨ys, zs, s₁, hxs, hs₁, hlive, hfork, hcalls, hreleased⟩⟩ :=
    -- the domain is poisoned, and the error returned
    releaseAllocation_cases (r := r) hlist ha
  · rw [hreleased] at hret
    have hpoison : loggerForkResourceLeave r.toForkReplies t r.unmapped.errno
        ((s.fork.entered t).poison r.unmapped.errno) =
          (r.unmapped.errno, s.fork.poison r.unmapped.errno) :=
      hleave _ (s.fork.registry.poison r.unmapped.errno)
    dsimp only at hret
    rw [hpoison] at hret
    obtain ⟨rfl, rfl⟩ := Prod.mk.inj hret
    exact .retained hgate
  -- the mapping is gone, and the lock given back
  · rw [hreleased] at hret
    dsimp only at hret
    rw [hfork] at hret
    have hout : loggerForkResourceLeave r.toForkReplies t 0 (s.fork.entered t) = (0, s.fork) :=
      hleave 0 s.fork.registry
    rw [hout] at hret
    obtain ⟨rfl, rfl⟩ := Prod.mk.inj hret
    exact .released hgate hxs ⟨hs₁.linked, hs₁.count, hs₁.mapped, hs₁.sound⟩ hlive rfl hcalls

end Effects

section Invariant

variable {T : RuntimeWords} {ι : Type} {s s' : RuntimeDomain T ι} {r : RuntimeReplies}
  {xs : List ℕ}

/-- Whether an `munmap` of the mapping `a` has failed. -/
def RuntimeDomain.Retained (s : RuntimeDomain T ι) (a : ℕ) : Prop :=
  ∃ bytes, .munmap a bytes false ∈ s.calls

/-- Nothing gets past the entry any more. -/
def RuntimeDomain.Poisoned (s : RuntimeDomain T ι) : Prop := s.fork.registry.gateError ≠ 0

/-- What holds of a domain whose list is the one at `xs`. -/
structure AllocationInv (s : RuntimeDomain T ι) (xs : List ℕ) : Prop where
  list : ListAt s xs
  members : ∀ a, a ∈ xs ↔ a + T.headerSize.toNat ∈ s.live ∨ s.Retained a
  pointers : ∀ p ∈ s.live, ∃ a ∈ xs, p = a + T.headerSize.toNat
  poisoned : ∀ a, s.Retained a → s.Poisoned

/-- The list with its nodes is the same in two domains. -/
structure SameList (s s' : RuntimeDomain T ι) : Prop where
  allocations : s'.allocations = s.allocations
  allocationCount : s'.allocationCount = s.allocationCount
  memory : s'.memory = s.memory

theorem SameList.trans {s'' : RuntimeDomain T ι} (h : SameList s s') (h' : SameList s' s'') :
    SameList s s'' :=
  ⟨h'.allocations.trans h.allocations, h'.allocationCount.trans h.allocationCount,
    h'.memory.trans h.memory⟩

theorem ListAt.congr (h : ListAt s xs) (hsame : SameList s s') (hsound : s'.faulted = s.faulted) :
    ListAt s' xs := by
  constructor
  · rw [hsame.memory, hsame.allocations]
    exact h.linked
  · rw [hsame.allocationCount, h.count]
  · rw [hsame.memory]
    exact h.mapped
  · rw [hsound, h.sound]

theorem RefusedFork.poisoned {fork : ForkDomain ι} (h : RefusedFork s.fork fork)
    (hs : s.Poisoned) : fork.registry.gateError ≠ 0 := by
  rcases h with hsame | ⟨error, herror, hpoison⟩
  · rw [hsame]
    exact hs
  · rw [hpoison]
    exact herror

/-- Which mappings could not be unmapped after further calls. -/
theorem retained_of_calls {new : List (MapCall T)} (h : s'.calls = s.calls ++ new) (a : ℕ) :
    s'.Retained a ↔ s.Retained a ∨ ∃ bytes, .munmap a bytes false ∈ new := by
  unfold RuntimeDomain.Retained
  simp only [h, List.mem_append, exists_or]

/-- The invariant depends on the list, the live pointers and the calls. -/
theorem AllocationInv.congr (hs : AllocationInv s xs) (hsame : SameList s s')
    (hsound : s'.faulted = s.faulted) (hlive : s'.live = s.live)
    (hretained : ∀ a, s'.Retained a ↔ s.Retained a) (hpoison : s.Poisoned → s'.Poisoned) :
    AllocationInv s' xs := by
  refine ⟨hs.list.congr hsame hsound, fun a => ?_, ?_, fun a ha => ?_⟩
  · rw [hlive, hretained, hs.members]
  · rw [hlive]
    exact hs.pointers
  · exact hpoison (hs.poisoned a ((hretained a).mp ha))

/-- A call of `logger_runtime_calloc`, with the pointer it returns taken up by its caller. -/
theorem CallocEffect.inv {bytes : T.SizeT} {ret : RuntimeReturn} (hs : AllocationInv s xs)
    (h : CallocEffect r bytes s xs ret s') : ∃ xs', AllocationInv (s'.keep ret) xs' := by
  cases h with
  | refused herror hfork =>
    exact ⟨xs, hs.congr ⟨rfl, rfl, rfl⟩ rfl rfl (fun a => Iff.rfl) hfork.poisoned⟩
  -- neither has changed the list
  | unmapped =>
    refine ⟨xs, hs.congr ⟨rfl, rfl, rfl⟩ rfl rfl (fun a => ?_) id⟩
    refine Iff.trans (retained_of_calls rfl a) ?_
    simp
  | dropped =>
    refine ⟨xs, hs.congr ⟨rfl, rfl, rfl⟩ rfl rfl (fun a => ?_) id⟩
    refine Iff.trans (retained_of_calls rfl a) ?_
    simp
  -- the list has a node that nobody holds
  | retained hgate hlist hlive hfork hcalls =>
    have hretained : ∀ a, (s'.keep { errno := r.advised.errno }).Retained a ↔
        s.Retained a ∨ a = r.address := by
      intro a
      refine Iff.trans (retained_of_calls hcalls a) ?_
      simp
    refine ⟨r.address :: xs, ⟨hlist.linked, hlist.count, hlist.mapped, hlist.sound⟩, ?_, ?_, ?_⟩
    -- the nodes are those of the pointers and those retained
    · intro a
      rw [List.mem_cons, hs.members, hretained]
      show _ ↔ a + _ ∈ s'.live ∨ _
      rw [hlive]
      tauto
    · intro p hp
      have hp' : p ∈ s.live := by rwa [← hlive]
      obtain ⟨a, ha, hpa⟩ := hs.pointers p hp'
      exact ⟨a, List.mem_cons_of_mem _ ha, hpa⟩
    -- what is retained has poisoned the domain
    · intro a ha
      show s'.fork.registry.gateError ≠ 0
      rw [hfork]
      exact r.unmapped.errno_ne_zero
  | allocated hgate hlist hlive hfork hcalls =>
    have hretained : ∀ a,
        (s'.keep { pointer := some (r.address + T.headerSize.toNat) }).Retained a ↔
          s.Retained a := by
      intro a
      refine Iff.trans (retained_of_calls hcalls a) ?_
      simp
    -- the list has a node for the new pointer
    refine ⟨r.address :: xs, ⟨hlist.linked, hlist.count, hlist.mapped, hlist.sound⟩, ?_, ?_, ?_⟩
    · intro a
      rw [List.mem_cons, hs.members, hretained]
      show _ ↔ a + _ ∈ insert _ s'.live ∨ _
      rw [hlive, Finset.mem_insert, Nat.add_right_cancel_iff, or_assoc]
    -- each pointer has its node
    · intro p hp
      have hp' : p = r.address + T.headerSize.toNat ∨ p ∈ s.live := by
        rw [← hlive]
        exact Finset.mem_insert.mp hp
      rcases hp' with hnew | hold
      · exact ⟨r.address, List.mem_cons_self, hnew⟩
      · obtain ⟨a, ha, hpa⟩ := hs.pointers p hold
        exact ⟨a, List.mem_cons_of_mem _ ha, hpa⟩
    · intro a ha
      -- without a failed `munmap` so far there is still none
      exact absurd hgate (hs.poisoned a ((hretained a).mp ha))

/-- A call of `logger_runtime_free`, with the pointer given up by its caller. -/
theorem FreeEffect.inv {a : ℕ} {rc : ℤ} (hs : AllocationInv s xs) (ha : a ∈ xs)
    (h : FreeEffect r s xs a rc s') :
    ∃ xs', AllocationInv (s'.giveUp (some (a + T.headerSize.toNat)) rc) xs' := by
  cases h with
  -- a call that failed keeps its pointer alive
  | refused herror hfork =>
    refine ⟨xs, hs.congr ⟨rfl, rfl, rfl⟩ rfl ?_ (fun a => Iff.rfl) hfork.poisoned⟩
    exact if_neg (neg_ne_zero.mpr herror)
  | retained hgate =>
    rename_i bytes
    have hlive : -r.unmapped.errno ≠ 0 := neg_ne_zero.mpr r.unmapped.errno_ne_zero
    refine ⟨xs, hs.list.congr ⟨rfl, rfl, rfl⟩ rfl, ?_, ?_, ?_⟩
    · intro x
      -- the mapping was in the list already, and stays there
      rw [retained_of_calls (s := s) rfl]
      show _ ↔ x + _ ∈ (if -r.unmapped.errno = 0 then _ else s.live) ∨ _
      rw [if_neg hlive]
      have hx : x ∈ xs ↔ x ∈ xs ∨ x = a := by
        constructor
        · exact Or.inl
        · rintro (hmem | rfl)
          · exact hmem
          · exact ha
      rw [hx, hs.members, or_assoc]
      simp
    -- the pointers are as they were
    · intro p hp
      refine hs.pointers p ?_
      have hp' : p ∈ (if -r.unmapped.errno = 0 then _ else s.live) := hp
      rwa [if_neg hlive] at hp'
    · intro x hx
      exact r.unmapped.errno_ne_zero
  | released hgate hxs hlist hlive hfork hcalls =>
    rename_i bytes ys zs
    have hretained : ∀ x,
        ¬(s'.giveUp (some (a + T.headerSize.toNat)) 0).Retained x ∧ ¬s.Retained x := by
      intro x
      have hnot : ¬s.Retained x := fun hx => hs.poisoned x hx hgate
      refine ⟨fun hx => hnot ?_, hnot⟩
      simpa using (retained_of_calls hcalls x).mp hx
    have hnodup := hs.list.linked.nodup
    rw [hxs, List.nodup_middle, List.nodup_cons] at hnodup
    -- the list is that before without the node
    have hmem : ∀ x, x ∈ ys ++ zs ↔ x ≠ a ∧ x ∈ xs := by
      intro x
      rw [hxs]
      by_cases hx : x = a
      · rw [hx]
        simpa using hnodup.1
      · simp [hx]
    -- the node and the pointer go together
    refine ⟨ys ++ zs, ⟨hlist.linked, hlist.count, hlist.mapped, hlist.sound⟩, ?_, ?_, ?_⟩
    · intro x
      rw [hmem, hs.members, or_iff_left (hretained x).2, or_iff_left (hretained x).1]
      show _ ↔ x + _ ∈ s'.live.erase _
      rw [hlive, Finset.mem_erase, ne_eq, ne_eq, Nat.add_right_cancel_iff]
    · intro p hp
      have hp' : p ∈ s.live.erase (a + T.headerSize.toNat) := by
        rw [← hlive]
        exact hp
      obtain ⟨hne, hlive'⟩ := Finset.mem_erase.mp hp'
      obtain ⟨x, hx, rfl⟩ := hs.pointers p hlive'
      refine ⟨x, (hmem x).mpr ⟨fun hxa => hne ?_, hx⟩, rfl⟩
      rw [hxa]
    · exact fun x hx => absurd hx (hretained x).1

theorem runtimeStart_inv (fork : ForkDomain ι) : AllocationInv (runtimeStart T fork) [] := by
  constructor
  · exact ⟨⟨rfl, List.nodup_nil, trivial⟩, rfl, by simp [runtimeStart], rfl⟩
  · simp [runtimeStart, RuntimeDomain.Retained]
  · simp [runtimeStart]
  · simp [runtimeStart, RuntimeDomain.Retained]

/-- A poisoned domain refuses an allocation. -/
theorem CallocEffect.frozen {bytes : T.SizeT} {ret : RuntimeReturn} (hs : s.Poisoned)
    (h : CallocEffect r bytes s xs ret s') : SameList s s' ∧ s'.Poisoned := by
  cases h with
  | refused herror hfork => exact ⟨⟨rfl, rfl, rfl⟩, hfork.poisoned hs⟩
  | unmapped => exact ⟨⟨rfl, rfl, rfl⟩, hs⟩
  | dropped => exact ⟨⟨rfl, rfl, rfl⟩, hs⟩
  | retained hgate => exact absurd hgate hs
  | allocated hgate => exact absurd hgate hs

/-- A poisoned domain refuses to free. -/
theorem FreeEffect.frozen {a : ℕ} {rc : ℤ} (hs : s.Poisoned) (h : FreeEffect r s xs a rc s') :
    SameList s s' ∧ s'.Poisoned := by
  cases h with
  | refused herror hfork => exact ⟨⟨rfl, rfl, rfl⟩, hfork.poisoned hs⟩
  | retained hgate => exact absurd hgate hs
  | released hgate => exact absurd hgate hs

/-- A call of `logger_runtime_calloc` that gives no pointer adds an entry only if its mapping could
not be unmapped. -/
theorem CallocEffect.failed {bytes : T.SizeT} {ret : RuntimeReturn} (hs : ListAt s xs)
    (h : CallocEffect r bytes s xs ret s') (hfailed : ret.pointer = none) :
    SameList s s' ∨ ∃ xs new, ListAt s xs ∧ ListAt s' (r.address :: xs) ∧
      s'.calls = s.calls ++ new ∧ .munmap r.address bytes false ∈ new := by
  cases h with
  | refused herror hfork => exact .inl ⟨rfl, rfl, rfl⟩
  | unmapped => exact .inl ⟨rfl, rfl, rfl⟩
  | dropped => exact .inl ⟨rfl, rfl, rfl⟩
  | retained hgate hlist hlive hfork hcalls =>
    exact .inr ⟨xs, _, hs, hlist, hcalls, by simp⟩
  | allocated => exact absurd hfailed (Option.some_ne_none _)

/-- A call of `logger_runtime_calloc` maps no other size than its own. -/
theorem CallocEffect.mmap_bytes {bytes : T.SizeT} {ret : RuntimeReturn}
    (h : CallocEffect r bytes s xs ret s') {new : List (MapCall T)}
    (hnew : s'.calls = s.calls ++ new) {asked : T.SizeT} {address : Option ℕ}
    (hmmap : .mmap asked address ∈ new) : asked = bytes := by
  have hcancel : ∀ {calls : List (MapCall T)}, s'.calls = s.calls ++ calls → new = calls :=
    fun hcalls => List.append_cancel_left (hnew.symm.trans hcalls)
  cases h with
  | refused herror hfork =>
    have hnil : new = [] := hcancel (List.append_nil _).symm
    simp [hnil] at hmmap
  | unmapped =>
    have hone := hcancel rfl
    simp only [hone, List.mem_singleton, MapCall.mmap.injEq] at hmmap
    exact hmmap.1
  | dropped =>
    have hthree := hcancel rfl
    simp [hthree] at hmmap
    exact hmmap.1
  | retained hgate hlist hlive hfork hcalls =>
    simp [hcancel hcalls] at hmmap
    exact hmmap.1
  | allocated hgate hlist hlive hfork hcalls =>
    simp [hcancel hcalls] at hmmap
    exact hmmap.1

/-- A call of `logger_runtime_free` whose `munmap` fails keeps the list and poisons the domain. -/
theorem FreeEffect.failed {a : ℕ} {rc : ℤ} (h : FreeEffect r s xs a rc s')
    {new : List (MapCall T)} (hnew : s'.calls = s.calls ++ new) {address : ℕ} {bytes : T.SizeT}
    (hmunmap : .munmap address bytes false ∈ new) : SameList s s' ∧ s'.Poisoned := by
  have hcancel : ∀ {calls : List (MapCall T)}, s'.calls = s.calls ++ calls → new = calls :=
    fun hcalls => List.append_cancel_left (hnew.symm.trans hcalls)
  cases h with
  | refused herror hfork =>
    have hnil : new = [] := hcancel (List.append_nil _).symm
    simp [hnil] at hmunmap
  | retained hgate => exact ⟨⟨rfl, rfl, rfl⟩, r.unmapped.errno_ne_zero⟩
  | released hgate hxs hlist hlive hfork hcalls =>
    simp [hcancel hcalls] at hmunmap

end Invariant

section Runs

variable {T : RuntimeWords} {ι : Type} [DecidableEq ι] {s s' : RuntimeDomain T ι} {xs : List ℕ}

/-- Every step keeps the invariant, for a list that the step may change. -/
theorem AllocationInv.step {a : RuntimeAction T ι} (hs : AllocationInv s xs)
    (hnext : runtimeNext s a = some s') (hok : RuntimeStep s a s') :
    ∃ xs', AllocationInv s' xs' := by
  cases a with
  | calloc t count size r =>
    obtain ⟨⟨ret, s₁⟩, hcall, rfl⟩ := Option.map_eq_some_iff.mp hnext
    exact (loggerRuntimeCalloc_effect hs.list hok.1 hok.2.1 hok.2.2 hcall).inv hs
  | malloc t size r =>
    obtain ⟨⟨ret, s₁⟩, hcall, rfl⟩ := Option.map_eq_some_iff.mp hnext
    exact (loggerRuntimeCalloc_effect hs.list hok.1 hok.2.1 hok.2.2 hcall).inv hs
  | free t ptr r =>
    obtain ⟨⟨rc, s₁⟩, hcall, rfl⟩ := Option.map_eq_some_iff.mp hnext
    cases ptr with
    | none =>
      obtain ⟨rfl, rfl⟩ := Prod.mk.inj (Option.some.inj hcall)
      exact ⟨xs, hs⟩
    | some p =>
      obtain ⟨a, ha, rfl⟩ := hs.pointers p (hok.2.2 p rfl)
      exact (loggerRuntimeFree_effect hs.list hok.1 hok.2.1 ha hcall).inv hs ha
  | fork a =>
    obtain ⟨fork, hfork, rfl⟩ := Option.map_eq_some_iff.mp hnext
    refine ⟨xs, hs.congr ⟨rfl, rfl, rfl⟩ rfl rfl (fun a => Iff.rfl) fun hpoisoned => ?_⟩
    exact forkNext_poisoned hpoisoned hfork

theorem allocationInv_of_reachable {fork : ForkDomain ι}
    (h : Reachable runtimeNext RuntimeStep (runtimeStart T fork) s) :
    ∃ xs, AllocationInv s xs := by
  refine Reachable.invariant (I := fun s => ∃ xs, AllocationInv s xs) ?_ ?_ h
  · exact ⟨[], runtimeStart_inv fork⟩
  · intro s a s' hr hs hnext hok
    obtain ⟨xs, hs⟩ := hs
    exact hs.step hnext hok

/-- No step changes the list of a poisoned domain. -/
theorem AllocationInv.frozen {a : RuntimeAction T ι} (hs : AllocationInv s xs)
    (hpoisoned : s.Poisoned) (hnext : runtimeNext s a = some s') (hok : RuntimeStep s a s') :
    SameList s s' ∧ s'.Poisoned := by
  cases a with
  -- both allocation calls are the same
  | calloc t count size r =>
    obtain ⟨⟨ret, s₁⟩, hcall, rfl⟩ := Option.map_eq_some_iff.mp hnext
    obtain ⟨hsame, hstill⟩ :=
      (loggerRuntimeCalloc_effect hs.list hok.1 hok.2.1 hok.2.2 hcall).frozen hpoisoned
    exact ⟨⟨hsame.allocations, hsame.allocationCount, hsame.memory⟩, hstill⟩
  | malloc t size r =>
    obtain ⟨⟨ret, s₁⟩, hcall, rfl⟩ := Option.map_eq_some_iff.mp hnext
    obtain ⟨hsame, hstill⟩ :=
      (loggerRuntimeCalloc_effect hs.list hok.1 hok.2.1 hok.2.2 hcall).frozen hpoisoned
    exact ⟨⟨hsame.allocations, hsame.allocationCount, hsame.memory⟩, hstill⟩
  | free t ptr r =>
    obtain ⟨⟨rc, s₁⟩, hcall, rfl⟩ := Option.map_eq_some_iff.mp hnext
    -- a null pointer frees nothing
    cases ptr with
    | none =>
      obtain ⟨rfl, rfl⟩ := Prod.mk.inj (Option.some.inj hcall)
      exact ⟨⟨rfl, rfl, rfl⟩, hpoisoned⟩
    | some p =>
      obtain ⟨a, ha, rfl⟩ := hs.pointers p (hok.2.2 p rfl)
      obtain ⟨hsame, hstill⟩ :=
        (loggerRuntimeFree_effect hs.list hok.1 hok.2.1 ha hcall).frozen hpoisoned
      exact ⟨⟨hsame.allocations, hsame.allocationCount, hsame.memory⟩, hstill⟩
  -- the calls of the registry do not touch the list
  | fork a =>
    obtain ⟨fork, hfork, rfl⟩ := Option.map_eq_some_iff.mp hnext
    exact ⟨⟨rfl, rfl, rfl⟩, forkNext_poisoned hpoisoned hfork⟩

/-- No run changes the list of a poisoned domain. -/
theorem AllocationInv.frozen_run (hs : AllocationInv s xs) (hpoisoned : s.Poisoned)
    (h : Reachable runtimeNext RuntimeStep s s') : SameList s s' ∧ s'.Poisoned := by
  have hrun : (∃ xs, AllocationInv s' xs) ∧ SameList s s' ∧ s'.Poisoned := by
    refine Reachable.invariant
      (I := fun s' => (∃ xs, AllocationInv s' xs) ∧ SameList s s' ∧ s'.Poisoned) ?_ ?_ h
    · exact ⟨⟨xs, hs⟩, ⟨rfl, rfl, rfl⟩, hpoisoned⟩
    · rintro s₁ a s₂ - ⟨⟨xs₁, hs₁⟩, hsame, hstill⟩ hnext hok
      obtain ⟨hsame', hstill'⟩ := hs₁.frozen hstill hnext hok
      exact ⟨hs₁.step hnext hok, hsame.trans hsame', hstill'⟩
  exact hrun.2

/-- What is true of the list in every state of a run, and of the calls that are made there;
`logger_runtime_malloc` is a call of `logger_runtime_calloc`. -/
structure AllocationList (s : RuntimeDomain T ι) : Prop where
  /-- The entries are the live mappings and those whose `munmap` failed; nothing else is mapped. -/
  entries : ∃ xs, ListAt s xs ∧
    (∀ a, a ∈ xs ↔ a + T.headerSize.toNat ∈ s.live ∨ s.Retained a) ∧
    ∀ p ∈ s.live, ∃ a ∈ xs, p = a + T.headerSize.toNat
  freeFailed : ∀ t ptr r rc s' new address bytes, RuntimeStep s (.free t ptr r) s' →
    loggerRuntimeFree r t ptr s = some (rc, s') → s'.calls = s.calls ++ new →
    .munmap address bytes false ∈ new → SameList s s' ∧ s'.Poisoned
  poisoned : s.Poisoned → ∀ s', Reachable runtimeNext RuntimeStep s s' → SameList s s'
  callocFailed : ∀ t count size r ret s', RuntimeStep s (.calloc t count size r) s' →
    loggerRuntimeCalloc r t count size s = some (ret, s') → ret.pointer = none →
    SameList s s' ∨ ∃ xs new, ListAt s xs ∧ ListAt s' (r.address :: xs) ∧
      s'.calls = s.calls ++ new ∧ .munmap r.address (allocationBytes T count size) false ∈ new
  /-- A size that does not fit is refused. -/
  overflow : ∀ t count size r, T.sizeMax.toNat < T.headerSize.toNat + count.toNat * size.toNat →
    loggerRuntimeCalloc r t count size s = some ({ errno := eoverflow }, s)
  bytes : ∀ t count size r ret s' new asked address, RuntimeStep s (.calloc t count size r) s' →
    loggerRuntimeCalloc r t count size s = some (ret, s') → s'.calls = s.calls ++ new →
    .mmap asked address ∈ new →
    asked.toNat = T.headerSize.toNat + count.toNat * size.toNat

/-- A size that does not fit is refused before anything else. -/
theorem loggerRuntimeCalloc_overflow {count size : T.SizeT}
    (h : ¬T.headerSize.toNat + count.toNat * size.toNat ≤ T.sizeMax.toNat) :
    loggerRuntimeCalloc r t count size s = some ({ errno := eoverflow }, s) := by
  unfold loggerRuntimeCalloc
  split_ifs with hguard
  · rfl
  · exact absurd ((calloc_guard T count size).1.mp hguard).2.2 h

theorem runtime_allocation_list {fork : ForkDomain ι}
    (h : Reachable runtimeNext RuntimeStep (runtimeStart T fork) s) : AllocationList s := by
  obtain ⟨xs, hs⟩ := allocationInv_of_reachable h
  constructor
  -- the list is well formed
  case entries => exact ⟨xs, hs.list, hs.members, hs.pointers⟩
  case freeFailed =>
    intro t ptr r rc s' new address bytes hok hcall hnew hmunmap
    cases ptr with
    | none =>
      -- nothing is unmapped for a null pointer
      obtain ⟨rfl, rfl⟩ := Prod.mk.inj (Option.some.inj hcall)
      have hnil : new = [] := by simpa using hnew
      rw [hnil] at hmunmap
      exact absurd hmunmap List.not_mem_nil
    -- the free has left its mapping in the list
    | some p =>
      obtain ⟨a, ha, rfl⟩ := hs.pointers p (hok.2.2 p rfl)
      exact (loggerRuntimeFree_effect hs.list hok.1 hok.2.1 ha hcall).failed hnew hmunmap
  case poisoned =>
    intro hpoisoned s' hrun
    exact (hs.frozen_run hpoisoned hrun).1
  case callocFailed =>
    intro t count size r ret s' hok hcall hfailed
    exact (loggerRuntimeCalloc_effect hs.list hok.1 hok.2.1 hok.2.2 hcall).failed hs.list hfailed
  -- a product that is no `size_t` is refused before any call
  case overflow =>
    intro t count size r hbig
    exact loggerRuntimeCalloc_overflow (not_le.mpr hbig)
  case bytes =>
    intro t count size r ret s' new asked address hok hcall hnew hmmap
    have hasked := (loggerRuntimeCalloc_effect hs.list hok.1 hok.2.1 hok.2.2 hcall).mmap_bytes
      hnew hmmap
    rw [hasked]
    refine (calloc_guard T count size).2 ?_
    by_contra hbig
    -- the call that was refused has not mapped anything
    rw [loggerRuntimeCalloc_overflow hbig] at hcall
    obtain ⟨rfl, rfl⟩ := Prod.mk.inj (Option.some.inj hcall)
    have hnil : new = [] := by simpa using hnew
    rw [hnil] at hmmap
    exact absurd hmmap List.not_mem_nil

end Runs

instance {T : RuntimeWords} {ι : Type} [DecidableEq ι] (s : RuntimeDomain T ι)
    (a : RuntimeAction T ι) (s' : RuntimeDomain T ι) : Decidable (RuntimeStep s a s') :=
  match a with
  | .calloc _ _ _ r =>
    inferInstanceAs (Decidable (r.lock = 0 ∧ r.unlock = 0 ∧
      (r.mapped.ok = true → r.address ≠ 0 ∧ s.memory r.address = none)))
  | .malloc _ _ r =>
    inferInstanceAs (Decidable (r.lock = 0 ∧ r.unlock = 0 ∧
      (r.mapped.ok = true → r.address ≠ 0 ∧ s.memory r.address = none)))
  | .free _ ptr r =>
    inferInstanceAs (Decidable (r.lock = 0 ∧ r.unlock = 0 ∧ ∀ p ∈ ptr, p ∈ s.live))
  | .fork a => inferInstanceAs (Decidable (KernelStep s.fork a s'.fork))

/-- The 64-bit platforms. -/
def words64 : RuntimeWords where
  bits := 64
  bits_ge := by decide
  headerSize := 48#64
  headerSize_pos := by decide

/-- Three allocations; the second is freed, and the first cannot be unmapped. -/
def threeAllocations : List (RuntimeAction words64 ℕ) :=
  [.calloc 0 4#64 8#64 { address := 4096 }, .malloc 1 100#64 { address := 8192 },
    .calloc 0 1#64 1#64 { address := 12288 }, .free 1 (some 8240) {},
    .free 0 (some 4144) { unmapped := { ok := false } }]

theorem runtime_allocation_list_three :
    ∃ s, exec runtimeNext (runtimeStart words64 ({} : ForkDomain ℕ)) threeAllocations = some s ∧
      AllocationList s ∧ s.allocations = some 12288 ∧ s.allocationCount = 2 ∧ s.Retained 4096 := by
  obtain ⟨s, hs⟩ : ∃ s, s = (exec runtimeNext (runtimeStart words64 ({} : ForkDomain ℕ))
      threeAllocations).get rfl := ⟨_, rfl⟩
  have hrun : exec runtimeNext (runtimeStart words64 ({} : ForkDomain ℕ)) threeAllocations =
      some s := by
    rw [hs]
    rfl
  have hreach : Reachable runtimeNext RuntimeStep (runtimeStart words64 ({} : ForkDomain ℕ)) s := by
    have hcheck : ∀ (s : RuntimeDomain words64 ℕ) a s', decide (RuntimeStep s a s') = true →
        RuntimeStep s a s' := fun _ _ _ h => of_decide_eq_true h
    refine reachable_of_exec_filter hcheck (?_ : exec _ _ threeAllocations = some s)
    rw [hs]
    rfl
  refine ⟨s, hrun, runtime_allocation_list hreach, ?_, ?_, ?_⟩
  · rw [hs]
    rfl
  · rw [hs]
    rfl
  · refine ⟨48#64 + 4#64 * 8#64, ?_⟩
    rw [hs]
    exact List.mem_of_getLast? rfl

end CLogger
