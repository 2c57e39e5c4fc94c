import CLogger.File.Descriptors
import CLogger.File.Sight
import CLogger.File.Daily

/-!
# Reopening is atomic

* `Owned`: the registry holds the long-lived descriptors and nothing else of the file's. A local
  owner counts among the descriptors of others until it is closed or installed.
* `registryOpenat_spec` and `registryClose_spec`: the calls of the registry, under `Owned`.
* `openCandidate_outcome` and `fileReopenImpl_outcome`: what each failure leaves behind.
* `reopen_atomic`: the main result. The directory can be left marked for synchronisation, which
  `reopen_leaves_mark` shows in a later write.
-/

namespace CLogger

open TapeProgram

section Registry

variable {ι : Type} [DecidableEq ι] {t : ι} {others : Finset ℕ} {table table' : FdTable ι}

/-- The descriptors that the long-lived fields own. -/
def FdTable.fields (table : FdTable ι) : List ℕ :=
  ([table.fd, table.lockFd, table.dirFd].filter (0 ≤ ·)).map Int.toNat

/-- The descriptors registered are those of the fields, each field with its own, and `others`. -/
structure Owned (others : Finset ℕ) (table : FdTable ι) : Prop where
  inv : ForkInv table.domain
  idle : table.domain.fdMu = none
  distinct : table.fields.Nodup
  disjoint : ∀ fd ∈ table.fields, fd ∉ others
  handed : table.domain.handed = table.fields.toFinset ∪ others

omit [DecidableEq ι] in
theorem mem_fields (table : FdTable ι) (n : ℕ) :
    n ∈ table.fields ↔ table.fd = n ∨ table.lockFd = n ∨ table.dirFd = n := by
  unfold FdTable.fields
  simp only [List.mem_map, List.mem_filter, List.mem_cons, List.not_mem_nil, or_false,
    decide_eq_true_eq]
  constructor
  · rintro ⟨fd, ⟨hfd, hpos⟩, rfl⟩
    rw [Int.toNat_of_nonneg hpos]
    rcases hfd with rfl | rfl | rfl <;> simp
  · intro h
    refine ⟨n, ⟨?_, Int.natCast_nonneg n⟩, Int.toNat_natCast n⟩
    rcases h with h | h | h <;> simp [h]

omit [DecidableEq ι] in
/-- The registry has exactly the descriptors of the fields and of others. -/
theorem Owned.isOwned_iff (h : Owned others table) (n : ℕ) :
    isOwned table.domain.registry n = true ↔ n ∈ table.fields ∨ n ∈ others := by
  rw [h.inv.registry.bitmap.mem, h.handed, Finset.mem_union, List.mem_toFinset]

omit [DecidableEq ι] in
/-- What the library has open and what it has closed, each once. -/
theorem Owned.liveAfter (h : Owned others table) :
    liveAfter table.domain.registry.trace = some table.domain.handed := h.inv.registry.kernel.trace

/-! ## Calls of the registry -/

variable {r : ForkReplies} {s : ForkDomain ι}

/-- A caller with a lock that works enters, unless the domain is poisoned. -/
theorem enter_of_locksWork (hr : r.LocksWork) (hidle : s.fdMu = none)
    (hgate : (s.threads t).inGate = false) :
    loggerForkResourceEnter r t s =
      some (s.registry.gateError, if s.registry.gateError ≠ 0 then s else s.entered t) := by
  unfold loggerForkResourceEnter
  rw [if_neg (not_not.mpr hr.require), hgate, if_neg Bool.false_ne_true]
  by_cases herror : s.registry.gateError = 0
  · have hentered : (s.lock t r.raced).setThread t (fun thread => { thread with inGate := true }) =
        s.entered t := by
      unfold ForkDomain.lock
      rw [if_neg (not_not.mpr hr.raced)]
      rfl
    have hzero : (s.entered t).registry.gateError = 0 := herror
    rw [if_neg (not_not.mpr herror), if_neg (not_not.mpr hr.lock), hidle, Option.isSome_none,
      if_neg Bool.false_ne_true, hentered]
    dsimp only
    rw [if_neg (not_not.mpr hzero), if_neg (not_not.mpr herror), hzero, herror]
  · rw [if_pos herror, if_pos herror]

/-- `register_fd` poisons the domain only when it fails. -/
theorem registerFd_gateError {fd : ℕ} {g : FdRegistry} {owned : Finset ℕ} (hfd : fd < 2 ^ 31)
    (hg : BitmapInv g owned) (h : (registerFd r fd g).1 = 0) :
    (registerFd r fd g).2.gateError = g.gateError := by
  have hgrow := growFor_spec r hfd hg.unmapped hg.bytes
  unfold registerFd at h ⊢
  obtain ⟨rc, g', hres⟩ : ∃ rc g', growFor r fd g = (rc, g') := ⟨_, _, rfl⟩
  rw [hres] at h hgrow ⊢
  dsimp only at h hgrow ⊢
  split_ifs at h ⊢ with hrc howned
  · exact absurd h hrc
  · exact absurd h (show euclean ≠ 0 by decide)
  · exact hgrow.same.2.1

/-- So does the part of `acquired` under the lock. -/
theorem acquired_gateError {g : FdRegistry} {owned : Finset ℕ} (hg : BitmapInv g owned)
    (hfd : r.opened.ok = true → r.fd < 2 ^ 31)
    (h : (acquired r (sysAcquire r g).1 (sysAcquire r g).2).1 = 0) :
    (acquired r (sysAcquire r g).1 (sysAcquire r g).2).2.2.gateError = g.gateError := by
  unfold sysAcquire acquired at h ⊢
  by_cases hok : r.opened.ok = true
  · have hopened : BitmapInv (g.sysOpen r.fd) owned :=
      ⟨hg.mem, hg.count, hg.unmapped, hg.bytes, hg.poisoned⟩
    have hregister := registerFd_gateError (r := r) (hfd hok) hopened
    rw [if_pos hok] at h ⊢
    dsimp only at h ⊢
    rw [if_neg (by omega), Int.toNat_natCast] at h ⊢
    obtain ⟨rc, g', hres⟩ : ∃ rc g', registerFd r r.fd (g.sysOpen r.fd) = (rc, g') := ⟨_, _, rfl⟩
    rw [hres] at h hregister ⊢
    dsimp only at h hregister ⊢
    split_ifs at h ⊢ with hrc
    · exact absurd h hrc
    · exact hregister (not_not.mp hrc)
  · rw [if_neg hok] at h ⊢
    rfl

/-- What the registry makes of an `openat`. -/
structure RegistryOpened (r : ForkReplies) (s : ForkDomain ι) (ret : ForkReturn)
    (s' : ForkDomain ι) : Prop where
  inv : ForkInv s'
  idle : s'.fdMu = none
  success : 0 ≤ ret.value → ret.value = r.fd ∧ r.opened.ok = true ∧ r.fd ∉ s.handed ∧
    s'.handed = insert r.fd s.handed ∧ s'.registry.gateError = 0 ∧
    s'.registry.trace = s.registry.trace ++ [.opened r.fd]
  failure : ret.value < 0 → ret.errno ≠ 0 ∧ s'.handed = s.handed ∧
    (s'.registry.trace = s.registry.trace ∨
      s'.registry.trace = s.registry.trace ++ [.opened r.fd, .closed r.fd])

theorem registryOpenat_spec (hs : ForkInv s) (hidle : s.fdMu = none) (hr : r.LocksWork)
    (hfd : r.opened.ok = true → r.fd ∉ s.registry.openFds ∧ r.fd < 2 ^ 31) :
    RegistryOpened r s (FdLevel.registryCall t r .openat s).1
      (FdLevel.registryCall t r .openat s).2 := by
  -- nobody is inside the gate, so it can be entered
  have hgate := hs.notInGate hidle t
  have henter := enter_of_locksWork (t := t) hr hidle hgate
  have hcall : forkCall t r s .openat = forkAcquire r t s := rfl
  unfold FdLevel.registryCall
  rw [hcall]
  unfold forkAcquire
  rw [henter, Option.bind_eq_bind, Option.bind_some]
  dsimp only
  by_cases herror : s.registry.gateError = 0
  swap
  · -- the domain is poisoned: nothing happens
    rw [if_pos herror, if_pos herror]
    dsimp only
    refine ⟨?_, hidle, (by rintro ⟨⟩), fun _ => ⟨herror, ?_, .inl rfl⟩⟩
    · rw [handedAfter_of_failed fun _ _ => id]
      exact hs
    · rw [handedAfter_of_failed fun _ _ => id]
  rw [if_neg (not_not.mpr herror), if_neg (not_not.mpr herror)]
  -- the call works on the registry that the caller found
  have hregistry : (s.entered t).registry = s.registry := rfl
  have hacquired := acquired_spec r hs.registry hfd
  have hpoison := acquired_gateError (r := r) hs.registry.bitmap fun hok => (hfd hok).2
  obtain ⟨error, fd, g, hres⟩ : ∃ error fd g,
      acquired r (sysAcquire r s.registry).1 (sysAcquire r s.registry).2 = (error, fd, g) :=
    ⟨_, _, _, rfl⟩
  rw [hres] at hacquired hpoison
  rw [hregistry, hres]
  dsimp only at hacquired hpoison ⊢
  rw [leave_entered hr.unlock hidle hgate]
  dsimp only
  -- the number is new to the registry, so it is added to those handed out
  by_cases hzero : error = 0
  · obtain ⟨rfl, hok, hinv, htrace⟩ := hacquired.success hzero
    have hvalue : handedAfter r t s .openat
        { value := if error ≠ 0 then -1 else r.fd, errno := error } = insert r.fd s.handed := by
      simp [handedAfter, hzero, ForkCall.acquires]
    have hnew : r.fd ∉ s.handed := fun hmem => (hfd hok).1 (hs.registry.kernel.isOpen hmem)
    rw [hvalue, if_neg (not_not.mpr hzero)]
    refine ⟨hs.setRegistry hidle hinv, hidle, fun _ => ?_, fun hneg => ?_⟩
    · exact ⟨rfl, hok, hnew, rfl, (hpoison hzero).trans herror, htrace⟩
    · exact absurd hneg (by dsimp only; omega)
  -- a failed call may have opened a number and closed it again, and has handed out none
  · obtain ⟨hinv, htrace⟩ := hacquired.failure hzero
    have hvalue : handedAfter r t s .openat
        { value := if error ≠ 0 then -1 else fd, errno := error } = s.handed := by
      simp [handedAfter, hzero, ForkCall.acquires]
    rw [hvalue, if_pos hzero]
    refine ⟨hs.setRegistry hidle hinv, hidle, (by rintro ⟨⟩), fun _ => ⟨hzero, rfl, ?_⟩⟩
    rcases htrace with ⟨-, rfl⟩ | ⟨-, htrace⟩
    · exact .inl rfl
    · exact .inr htrace

/-- Closing a descriptor that is not the last one keeps the bitmap mapped. -/
theorem consumeFd_gateError {g : FdRegistry} {handed : Finset ℕ} (hg : BitmapInv g handed) {n : ℕ}
    (hn : n ∈ handed) (hother : (handed.erase n).Nonempty) :
    (consumeFd r n g).2.gateError = g.gateError := by
  have hcount : ((unregisterFd n g).sysClose n).ownedCount ≠ 0 := by
    have hcard := (unregisterFd_spec hg hn).count
    have hpos := Finset.card_pos.mpr hother
    change (unregisterFd n g).ownedCount ≠ 0
    omega
  have hkeep : releaseEmpty r ((unregisterFd n g).sysClose n) =
      (0, (unregisterFd n g).sysClose n) := by
    rw [releaseEmpty, if_pos (.inl hcount)]
  unfold consumeFd
  dsimp only
  rw [hkeep]
  unfold unregisterFd FdRegistry.setWords FdRegistry.sysClose
  rfl

/-- What the registry makes of a `close`, while other descriptors remain. -/
structure RegistryClosed (n : ℕ) (s s' : ForkDomain ι) : Prop where
  inv : ForkInv s'
  idle : s'.fdMu = none
  gate : s'.registry.gateError = 0
  handed : s'.handed = s.handed.erase n
  trace : s'.registry.trace = s.registry.trace ++ [.closed n]

theorem registryClose_spec (hs : ForkInv s) (hidle : s.fdMu = none) (hr : r.LocksWork)
    (hgate : s.registry.gateError = 0) {n : ℕ} (hn : n ∈ s.handed)
    (hother : (s.handed.erase n).Nonempty) :
    RegistryClosed n s (FdLevel.registryCall t r (.close n) s).2 := by
  have hout := hs.notInGate hidle t
  have henter := enter_of_locksWork (t := t) hr hidle hout
  have howned : isOwned s.registry n = true := (hs.registry.bitmap.mem n).mpr hn
  have hconsumed := consumeFd_spec r hs.registry hn
  have hpoison := consumeFd_gateError (r := r) hs.registry.bitmap hn hother
  have hcall : forkCall t r s (.close n) = loggerForkClose r t n s := rfl
  have hregistry : (s.entered t).registry = s.registry := rfl
  unfold FdLevel.registryCall
  rw [hcall]
  unfold loggerForkClose
  rw [henter, Option.bind_eq_bind, Option.bind_some]
  dsimp only
  rw [if_neg (not_not.mpr hgate), if_neg (not_not.mpr hgate), hregistry, howned, Bool.not_true,
    if_neg Bool.false_ne_true, Int.toNat_natCast, leave_entered hr.unlock hidle hout]
  dsimp only
  have hadmitted : Admitted r t s := ⟨hr.require, hout, hgate, hr.raced⟩
  rw [handedAfter_of_consumes rfl (consumes_close_iff hadmitted n)]
  exact ⟨hs.setRegistry hidle hconsumed.inv, hidle, hpoison.trans hgate, rfl, hconsumed.trace⟩

end Registry

/-! ## Specifications -/

section Specs

variable {ι α : Type} [DecidableEq ι] {t : ι} {libc : Libc} {others : Finset ℕ} {s s' : FdWorld ι}

/-- Assertions about the descriptor-level programs: nothing is claimed of the moments in between. -/
abbrev fdWp (m : FdProg ι α) (Q : α → FdWorld ι → Prop) (s : FdWorld ι) : Prop :=
  wp (fun _ => True) m Q s

omit [DecidableEq ι] in
/-- A program of the file backend leaves the descriptors alone. -/
theorem fdWp_onFst {m : FileProg α} {Q : α → FileWorld → Prop} {R : α → FdWorld ι → Prop}
    (h : wp (fun _ => True) m Q s.1) (hQ : ∀ a w, Q a w → R a (w, s.2)) : fdWp m.onFst R s := by
  refine wp_mono (h.onFst (t := s.2) (fun _ _ => trivial) fun _ _ => trivial) ?_
  rintro a ⟨w, _⟩ ⟨hw, rfl⟩
  exact hQ a w hw

omit [DecidableEq ι] in
theorem fdWp_keeps {τ : Type} {π : FileWorld → τ} {P : α → Prop} {m : FileProg α}
    {R : α → FdWorld ι → Prop} (h : Keeps π P m)
    (hR : ∀ a w, P a → π w = π s.1 → R a (w, s.2)) : fdWp m.onFst R s :=
  fdWp_onFst (wp_of_keeps h (fun _ _ => trivial) (fun _ _ => trivial)
    fun _ _ ha hw => (⟨ha, hw⟩ : _ ∧ _)) fun a w h => hR a w h.1 h.2

/-- The active file may have been created on the way. -/
def CreatedFrom (w : FileWorld) (d : Disk) : Prop :=
  d = w.disk ∨ w.disk.dir w.file.binding.name = none ∧ w.file.binding.managed = true ∧
    d = w.disk.create w.file.binding.name

/-- The long-lived fields are as before. -/
def SameFields (table table' : FdTable ι) : Prop :=
  table'.fd = table.fd ∧ table'.lockFd = table.lockFd ∧ table'.dirFd = table.dirFd

/-- A candidate that was opened is closed. -/
def ClosedAgain (table table' : FdTable ι) : Prop :=
  table'.domain.registry.trace = table.domain.registry.trace ∨
    ∃ n, table'.domain.registry.trace = table.domain.registry.trace ++ [.opened n, .closed n]

/-- The candidate is registered, and no field owns it. -/
structure Held (others : Finset ℕ) (fd : OwnedFd) (table : FdTable ι) : Prop where
  valid : 0 ≤ fd.value
  fresh : fd.value.toNat ∉ others
  owned : Owned (insert fd.value.toNat others) table
  gate : table.domain.registry.gateError = 0

/-- What `logger_fork_openat` of the active name has done. -/
def OpenatOutcome (others : Finset ℕ) (s : FdWorld ι) : Except ℤ OwnedFd → FdWorld ι → Prop
  | .error e, s' => e ≠ 0 ∧ s'.1.file = s.1.file ∧ CreatedFrom s.1 s'.1.disk ∧
      SameFields s.2 s'.2 ∧ s'.2.steps = s.2.steps ∧ Owned others s'.2 ∧ ClosedAgain s.2 s'.2
  | .ok fd, s' => s'.1.file = s.1.file ∧ CreatedFrom s.1 s'.1.disk ∧
      SameFields s.2 s'.2 ∧ s'.2.steps = s.2.steps ∧ Held others fd s'.2 ∧
      s'.2.domain.registry.trace = s.2.domain.registry.trace ++ [.opened fd.value.toNat] ∧
      s'.1.disk.dir s.1.file.binding.name = some fd.ino

omit [DecidableEq ι] in
theorem Owned.withDomain {table : FdTable ι} (h : Owned others table) {domain : ForkDomain ι}
    (hinv : ForkInv domain) (hidle : domain.fdMu = none) {others' : Finset ℕ}
    (hdisjoint : ∀ fd ∈ table.fields, fd ∉ others')
    (hhanded : domain.handed = table.fields.toFinset ∪ others') :
    Owned others' { table with domain } :=
  ⟨hinv, hidle, h.distinct, hdisjoint, hhanded⟩

omit [DecidableEq ι] in
theorem Owned.log {table : FdTable ι} (h : Owned others table) (steps : List (ReopenStep × ℤ)) :
    Owned others { table with steps } := ⟨h.inv, h.idle, h.distinct, h.disjoint, h.handed⟩

omit [DecidableEq ι] in
theorem Held.log {table : FdTable ι} {fd : OwnedFd} (h : Held others fd table)
    (steps : List (ReopenStep × ℤ)) : Held others fd { table with steps } :=
  ⟨h.valid, h.fresh, h.owned.log steps, h.gate⟩

omit [DecidableEq ι] in
theorem fdWp_getFile_bind {β : Type} {f : LoggerFile → FdProg ι β} {R : β → FdWorld ι → Prop}
    (h : fdWp (f s.1.file) R s) : fdWp (getFile.onFst >>= f) R s := h

/-- What the file backend makes of an `openat` that the registry has passed. -/
theorem openAnswer_of_ok (w : FileWorld) (created : Bool)
    (h : w.disk.dir w.file.binding.name = none → w.file.binding.managed = true) :
    ∃ ino w', w.openAnswer w.file.binding.managed false { created } = (.ok ino, w') ∧
      w'.file = w.file ∧ CreatedFrom w w'.disk ∧ w'.disk.dir w.file.binding.name = some ino := by
  unfold FileWorld.openAnswer
  cases hdir : w.disk.dir w.file.binding.name with
  | some ino => exact ⟨ino, w, rfl, rfl, .inl rfl, hdir⟩
  | none =>
    have hmanaged := h hdir
    rw [hmanaged]
    exact ⟨_, _, rfl, rfl, .inr ⟨hdir, hmanaged, rfl⟩, Disk.dir_create_self⟩

/-- And of one that has failed. -/
theorem openAnswer_of_failed (w : FileWorld) (created : Bool) :
    ∃ e w', w.openAnswer w.file.binding.managed false { ok := false, created } = (.error e, w') ∧
      w'.file = w.file ∧ CreatedFrom w w'.disk := by
  unfold FileWorld.openAnswer
  cases hdir : w.disk.dir w.file.binding.name with
  | some ino => exact ⟨_, w, rfl, rfl, .inl rfl⟩
  | none =>
    cases hmanaged : w.file.binding.managed with
    | false => exact ⟨_, w, rfl, rfl, .inl rfl⟩
    | true =>
      cases created with
      | false => exact ⟨_, w, rfl, rfl, .inl rfl⟩
      | true => exact ⟨_, _, rfl, rfl, .inr ⟨hdir, hmanaged, rfl⟩⟩

theorem loggerForkOpenat_spec (hs : Owned others s.2) :
    fdWp (FdLevel.loggerForkOpenat t s.1.file.binding.managed false)
    (OpenatOutcome others s) s := by
  refine wp_ask trivial fun a => ?_
  dsimp only
  -- the kernel's answer is a number that is not in use
  set r := FdLevel.kernelOpenat s.1 s.2.domain.registry.openFds s.1.file.binding.managed false
    a.2.val with hrdef
  have hr : r.LocksWork := ⟨a.2.2.require, a.2.2.lock, a.2.2.unlock, a.2.2.raced⟩
  have hkernel : r.opened.ok = true → (r.fd ∉ s.2.domain.registry.openFds ∧ r.fd < 2 ^ 31) ∧
      (s.1.disk.dir s.1.file.binding.name = none → s.1.file.binding.managed = true) := by
    intro hok
    have hparts : (a.2.val.opened.ok && decide (a.2.val.fd ∉ s.2.domain.registry.openFds ∧
        a.2.val.fd < 2 ^ 31) && if (s.1.disk.dir s.1.file.binding.name).isSome then !false
          else s.1.file.binding.managed) = true := hok
    rw [Bool.and_eq_true, Bool.and_eq_true] at hparts
    refine ⟨of_decide_eq_true hparts.1.2, fun hnone => ?_⟩
    simpa only [hnone, Option.isSome_none, if_neg Bool.false_ne_true] using hparts.2
  -- so the registry's call is the one above
  have hcall := registryOpenat_spec (t := t) hs.inv hs.idle hr fun hok => (hkernel hok).1
  obtain ⟨ret, domain, hres⟩ : ∃ ret domain,
      FdLevel.registryCall t r .openat s.2.domain = (ret, domain) := ⟨_, _, rfl⟩
  rw [hres] at hcall ⊢
  dsimp only at hcall ⊢
  by_cases hvalue : 0 ≤ ret.value
  · obtain ⟨hfd, hok, hnew, hhanded, hgate, htrace⟩ := hcall.success hvalue
    obtain ⟨ino, w', hanswer, hfile, hdisk, hdir⟩ :=
      openAnswer_of_ok s.1 r.opened.ok (hkernel hok).2
    rw [decide_eq_true hvalue, hanswer]
    -- the descriptor is new to the fields and to the local owners
    rw [hs.handed, Finset.mem_union, not_or, List.mem_toFinset] at hnew
    have htoNat : ret.value.toNat = r.fd := by rw [hfd, Int.toNat_natCast]
    refine ⟨hfile, hdisk, ⟨rfl, rfl, rfl⟩, rfl, ⟨hvalue, ?_, ?_, hgate⟩, ?_, hdir⟩
    · exact htoNat ▸ hnew.2
    · refine hs.withDomain hcall.inv hcall.idle (fun fd hfd hmem => ?_) ?_
      · rcases Finset.mem_insert.mp hmem with heq | hmem
        · exact hnew.1 ((heq.trans htoNat) ▸ hfd)
        · exact hs.disjoint fd hfd hmem
      · rw [hhanded, hs.handed, Finset.union_insert]
        dsimp only
        rw [htoNat]
    · dsimp only
      rw [htoNat]
      exact htrace
  -- the world above sees a failed open
  · obtain ⟨herrno, hhanded, htrace⟩ := hcall.failure (not_le.mp hvalue)
    obtain ⟨e, w', hanswer, hfile, hdisk⟩ := openAnswer_of_failed s.1 r.opened.ok
    rw [decide_eq_false hvalue, hanswer]
    refine ⟨herrno, hfile, hdisk, ⟨rfl, rfl, rfl⟩, rfl, ?_, ?_⟩
    · exact hs.withDomain hcall.inv hcall.idle hs.disjoint (hhanded.trans hs.handed)
    · exact htrace.imp id fun h => ⟨r.fd, h⟩

/-- Closing a descriptor that no field owns. -/
theorem loggerFdCloseStatus_spec {fd : OwnedFd} (hheld : Held others fd s.2)
    (hother : s.2.fields ≠ []) :
    fdWp (FdLevel.loggerFdCloseStatus t fd) (fun _ s' => s'.1 = s.1 ∧ SameFields s.2 s'.2 ∧
      s'.2.steps = s.2.steps ∧ Owned others s'.2 ∧
      s'.2.domain.registry.trace = s.2.domain.registry.trace ++ [.closed fd.value.toNat]) s := by
  refine wp_ite (fun hneg => absurd hneg (not_lt.mpr hheld.valid)) fun _ => ?_
  refine wp_ask trivial fun a => ?_
  dsimp only
  have hs := hheld.owned
  obtain ⟨n, hn⟩ : ∃ n : ℕ, fd.value = n := ⟨_, (Int.toNat_of_nonneg hheld.valid).symm⟩
  have htoNat : fd.value.toNat = n := by rw [hn, Int.toNat_natCast]
  rw [htoNat] at hs ⊢
  -- the number was handed out to the local owner, and to no field
  have hfresh : n ∉ others := htoNat ▸ hheld.fresh
  have hnot : n ∉ s.2.fields := fun hmem => hs.disjoint n hmem (Finset.mem_insert_self n others)
  have herase : s.2.domain.handed.erase n = s.2.fields.toFinset ∪ others := by
    rw [hs.handed, Finset.union_insert, Finset.erase_insert]
    rw [Finset.mem_union, List.mem_toFinset]
    exact not_or.mpr ⟨hnot, hfresh⟩
  have hmem : n ∈ s.2.domain.handed := by
    rw [hs.handed]
    exact Finset.mem_union_right _ (Finset.mem_insert_self n others)
  -- the field still owns its own, so the registry does not become empty
  have hleft : (s.2.domain.handed.erase n).Nonempty := by
    obtain ⟨field, hfield⟩ := List.exists_mem_of_ne_nil _ hother
    rw [herase]
    exact ⟨field, Finset.mem_union_left _ (List.mem_toFinset.mpr hfield)⟩
  have hcall := registryClose_spec (t := t) hs.inv hs.idle a.2.2 hheld.gate hmem hleft
  rw [hn]
  refine ⟨rfl, ⟨rfl, rfl, rfl⟩, rfl, ?_, hcall.trace⟩
  refine hs.withDomain hcall.inv hcall.idle (fun fd hfd hmem => ?_) (hcall.handed.trans herase)
  exact hs.disjoint fd hfd (Finset.mem_insert_of_mem hmem)

/-- The log ends with a step that failed, all earlier ones having succeeded. -/
def StoppedAt (step : ReopenStep) (rc : ℤ) (steps : List (ReopenStep × ℤ)) : Prop :=
  rc ≠ 0 ∧ ∃ before, steps = before ++ [(step, rc)] ∧ ∀ e ∈ before, e.2 = 0

/-- What is left after a step has failed, apart from the directory mark. -/
structure Refused (others : Finset ℕ) (s s' : FdWorld ι) : Prop where
  file : s'.1.file = { s.1.file with dirDirty := s'.1.file.dirDirty }
  disk : CreatedFrom s.1 s'.1.disk
  fields : SameFields s.2 s'.2
  owned : Owned others s'.2
  closed : ClosedAgain s.2 s'.2

/-- What `open_candidate` hands to its caller. -/
structure Accepted (others : Finset ℕ) (s : FdWorld ι) (fd : OwnedFd) (st : Stat) (s' : FdWorld ι) :
    Prop where
  file : s'.1.file = { s.1.file with dirDirty := s.1.file.dirDirty || s.1.file.binding.managed }
  disk : CreatedFrom s.1 s'.1.disk
  fields : SameFields s.2 s'.2
  held : Held others fd s'.2
  opened : s'.2.domain.registry.trace = s.2.domain.registry.trace ++ [.opened fd.value.toNat]
  active : s'.1.disk.dir s.1.file.binding.name = some fd.ino
  dev : st.dev = s'.1.disk.device
  ino : st.ino = fd.ino
  size : st.size = (s'.1.disk.data fd.ino).length
  steps : ∀ e ∈ s'.2.steps, e.2 = 0

/-- The outcome of `open_candidate`; no step of it is a synchronisation or a close. -/
def CandidateOutcome (others : Finset ℕ) (s : FdWorld ι) :
    Except ℤ (OwnedFd × Stat) → FdWorld ι → Prop
  | .error rc, s' => Refused others s s' ∧ s'.1.file.dirDirty = s.1.file.dirDirty ∧
      ∃ step, step ≠ .dataSync ∧ step ≠ .directorySync ∧ step ≠ .close ∧
        StoppedAt step rc s'.2.steps
  | .ok (fd, st), s' => Accepted others s fd st s'

/-- The status that a successful check returns is the one of the descriptor. -/
theorem checkNamedFd_stat (w : FileWorld) (name : CString) (fd : ℕ) :
    wp (fun _ => True) (checkNamedFd name (some fd)) (fun r w' => w' = w ∧
      ∀ st, r = .ok st → st.dev = w.disk.device ∧ st.ino = fd ∧
        st.size = (w.disk.data fd).length) w := by
  refine wp_bind (wp_ask trivial fun a => ?_)
  cases a.ok with
  | false => exact wp_pure ⟨rfl, nofun⟩
  | true =>
    refine wp_bind (wp_of_keeps (π := id) (fstatat_keeps name) (fun _ _ => trivial)
      (fun _ _ => trivial) ?_)
    rintro (e | named) w' - rfl
    · exact wp_pure ⟨rfl, nofun⟩
    · refine wp_ite (fun _ => wp_pure ⟨rfl, nofun⟩) fun _ => wp_ite (fun _ => wp_pure ⟨rfl, ?_⟩)
        fun _ => wp_pure ⟨rfl, nofun⟩
      intro st hst
      rw [← Except.ok.inj hst]
      exact ⟨rfl, rfl, rfl⟩

omit [DecidableEq ι] in
theorem FdTable.fields_ne_nil {table : FdTable ι} (h : 0 ≤ table.fd) : table.fields ≠ [] := by
  have hmem : table.fd.toNat ∈ table.fields :=
    (mem_fields table _).mpr (.inl (Int.toNat_of_nonneg h).symm)
  exact List.ne_nil_of_mem hmem

omit [DecidableEq ι] in
/-- The long-lived fields are all that `fields` reads. -/
theorem SameFields.eq {table table' : FdTable ι} (h : SameFields table table') :
    table'.fields = table.fields := by
  obtain ⟨hfd, hlock, hdir⟩ := h
  unfold FdTable.fields
  rw [hfd, hlock, hdir]

theorem StoppedAt.of_record {step : ReopenStep} {rc : ℤ} {steps : List (ReopenStep × ℤ)}
    (hrc : rc ≠ 0) (hsteps : ∀ e ∈ steps, e.2 = 0) : StoppedAt step rc (steps ++ [(step, rc)]) :=
  ⟨hrc, steps, rfl, hsteps⟩

theorem allOk_record (step : ReopenStep) {rc : ℤ} {steps : List (ReopenStep × ℤ)}
    (hsteps : ∀ e ∈ steps, e.2 = 0) (hrc : rc = 0) : ∀ e ∈ steps ++ [(step, rc)], e.2 = 0 := by
  intro e he
  rcases List.mem_append.mp he with he | he
  · exact hsteps e he
  · rw [List.mem_singleton.mp he]
    exact hrc

/-- A candidate that is not accepted is closed at the end of its scope. -/
theorem loggerFdCloseStatus_refused {fd : OwnedFd} (s₀ : FdWorld ι)
    (hfile : s.1.file = { s₀.1.file with dirDirty := s.1.file.dirDirty })
    (hdisk : CreatedFrom s₀.1 s.1.disk) (hfields : SameFields s₀.2 s.2)
    (hheld : Held others fd s.2) (hvalid : 0 ≤ s₀.2.fd)
    (hopened : s.2.domain.registry.trace =
      s₀.2.domain.registry.trace ++ [.opened fd.value.toNat]) :
    fdWp (FdLevel.loggerFdCloseStatus t fd) (fun _ s' => Refused others s₀ s' ∧ s'.1 = s.1 ∧
      s'.2.steps = s.2.steps) s := by
  have hother : s.2.fields ≠ [] := by
    rw [hfields.eq]
    exact FdTable.fields_ne_nil hvalid
  refine wp_mono (loggerFdCloseStatus_spec hheld hother) ?_
  rintro _ s' ⟨hw, hsame, hsteps, howned, htrace⟩
  have hfields' : SameFields s₀.2 s'.2 :=
    ⟨hsame.1.trans hfields.1, hsame.2.1.trans hfields.2.1, hsame.2.2.trans hfields.2.2⟩
  refine ⟨⟨hw ▸ hfile, hw ▸ hdisk, hfields', howned, .inr ⟨fd.value.toNat, ?_⟩⟩, hw, hsteps⟩
  rw [htrace, hopened, List.append_assoc]
  rfl

omit [DecidableEq ι] in
/-- A step of the file backend enters its result in the log. -/
theorem attempt_spec {step : ReopenStep} {m : FileProg ℤ} {Q : ℤ → FileWorld → Prop}
    {R : ℤ → FdWorld ι → Prop} (h : wp (fun _ => True) m Q s.1)
    (hQ : ∀ rc w, Q rc w → R rc (w, { s.2 with steps := s.2.steps ++ [(step, rc)] })) :
    fdWp (FdLevel.attempt step m) R s := by
  refine wp_bind (fdWp_onFst h fun rc w hw => ?_)
  exact wp_bind (wp_modify (wp_pure (hQ rc w hw)))

theorem openCandidate_outcome (hs : Owned others s.2) (hvalid : 0 ≤ s.2.fd)
    (hsteps : ∀ e ∈ s.2.steps, e.2 = 0) :
    fdWp (FdLevel.openCandidate t false) (CandidateOutcome others s) s := by
  have howner : wp (fun _ => True) checkOwner (fun _ w => w = s.1) s.1 :=
    wp_of_keeps (π := id) checkOwner_keeps (fun _ _ => trivial) (fun _ _ => trivial)
      fun _ _ _ h => h
  refine wp_bind (attempt_spec howner ?_)
  -- a process that is not the owner stops here
  rintro rc _ rfl
  refine wp_ite (fun hrc => wp_pure ?_) fun hrc => ?_
  · refine ⟨⟨rfl, .inl rfl, ⟨rfl, rfl, rfl⟩, ?_, .inl rfl⟩, rfl, .owner, nofun, nofun, nofun,
      .of_record hrc hsteps⟩
    exact hs.log _
  obtain rfl : rc = 0 := not_not.mp hrc
  have hsteps₁ := allOk_record .owner hsteps rfl
  refine fdWp_getFile_bind (wp_bind (wp_mono (loggerForkOpenat_spec (hs.log _)) ?_))
  -- nothing was opened, so there is nothing to close
  rintro (e | fd) s₁ hopen
  · obtain ⟨he, hfile, hdisk, hfields, hlog, howned, hclosed⟩ := hopen
    refine wp_bind (wp_modify (wp_pure ?_))
    refine ⟨⟨?_, hdisk, hfields, howned.log _, hclosed⟩, ?_, .open, nofun, nofun, nofun, ?_⟩
    · dsimp only
      rw [hfile]
    · dsimp only
      rw [hfile]
    · dsimp only
      rw [hlog]
      exact .of_record (neg_ne_zero.mpr he) hsteps₁
  obtain ⟨hfile, hdisk, hfields, hlog, hheld, hopened, hactive⟩ := hopen
  replace hlog : s₁.2.steps = s.2.steps ++ [(.owner, 0)] := hlog
  replace hfile : s₁.1.file = s.1.file := hfile
  refine wp_bind (wp_modify ?_)
  have hsteps₂ := allOk_record .open hsteps₁ rfl
  rw [← hlog] at hsteps₂
  -- inside the scope of the candidate; outside of it, what it still owns is closed
  have hrefuse : ∀ (step : ReopenStep) (rc : ℤ) (steps : List (ReopenStep × ℤ)),
      step ≠ .dataSync → step ≠ .directorySync → step ≠ .close → StoppedAt step rc steps →
      fdWp (FdLevel.loggerFdCloseStatus t fd) (fun _ s' => CandidateOutcome others s (.error rc) s')
        (s₁.1, { s₁.2 with steps }) := by
    intro step rc steps hdata hdirectory hclose hstopped
    refine wp_mono (loggerFdCloseStatus_refused s (s := (s₁.1, { s₁.2 with steps })) ?_ hdisk
      hfields (hheld.log steps) hvalid hopened) ?_
    · dsimp only
      rw [hfile]
    · rintro _ s' ⟨hrefused, hw, hlog'⟩
      refine ⟨hrefused, ?_, step, hdata, hdirectory, hclose, ?_⟩
      · rw [hw]
        exact congrArg LoggerFile.dirDirty hfile
      · rw [hlog']
        exact hstopped
  refine wp_bind (wp_bind (fdWp_onFst ((checkNamedFd_stat s₁.1 _ fd.ino).and_keeps
    (checkNamedFd_keeps (π := id) _ _)) ?_))
  -- the names are checked on the open descriptor
  rintro (rc | st) _ ⟨⟨rfl, hstat⟩, hfailing⟩
  · refine wp_bind (wp_modify (wp_pure (wp_bind (wp_mono (hrefuse .identity rc _ nofun nofun nofun
      (.of_record (hfailing rc rfl).ne hsteps₂)) ?_))))
    exact fun _ s' h => wp_pure h
  refine wp_bind (wp_modify ?_)
  dsimp only
  have hsteps₃ := allOk_record .identity hsteps₂ rfl
  -- the last check is of the kind of the file
  refine wp_bind (wp_modify (wp_ite (fun hrc => ?_) fun hrc => ?_))
  · refine wp_pure (wp_bind (wp_mono (hrefuse .kind _ _ nofun nofun nofun
      (.of_record hrc hsteps₃)) ?_))
    exact fun _ s' h => wp_pure h
  refine wp_bind (wp_modify (wp_pure (wp_bind (wp_pure (wp_pure ?_)))))
  obtain ⟨hdev, hino, hsize⟩ := hstat st rfl
  refine ⟨?_, hdisk, hfields, hheld.log _, hopened, hactive, hdev, hino, hsize, ?_⟩
  · dsimp only
    rw [hfile]
  · exact allOk_record .kind hsteps₃ (not_not.mp hrc)

theorem syncData_sight (w : FileWorld) (fd : Option ℕ) :
    wp (fun _ => True) (syncData fd) (fun _ w' => w'.sight = w.sight) w := by
  have hsync : Keeps FileWorld.sight (fun _ => True) (fsync fd) := by
    refine Keeps.ask (fun w a => ?_) fun _ _ => trivial
    cases fd with
    | none => rfl
    | some ino => cases a.ok <;> rfl
  have hcount : ∀ g, Keeps FileWorld.sight (fun _ => True) (countMetrics g) :=
    fun g => Keeps.modify fun _ => rfl
  have hkeeps : Keeps FileWorld.sight (fun _ => True) (syncData fd) := by
    refine (hcount _).bind fun _ _ => (fsyncRetry_keeps hsync).bind fun r _ => ?_
    cases r with
    | none => exact .pure trivial
    | some error => exact (hcount _).bind fun _ _ => .pure trivial
  exact wp_of_keeps hkeeps (fun _ _ => trivial) (fun _ _ => trivial) fun _ _ _ h => h

/-- Synchronising the directory clears its mark and nothing else. -/
theorem syncDirectoryIfDirty_sight (w : FileWorld) :
    wp (fun _ => True) syncDirectoryIfDirty (fun rc w' => w'.disk = w.disk ∧
      w'.file = { w.file with dirDirty := if rc = 0 then false else w.file.dirDirty }) w := by
  refine wp_getFile_bind (wp_ite (fun _ => ?_) fun hdirty => wp_pure ⟨rfl, ?_⟩)
  · refine wp_bind (wp_modify ?_)
    have hsync : Keeps FileWorld.sight (fun _ => True) fsyncDirectory := by
      refine Keeps.ask (fun w a => ?_) fun _ _ => trivial
      cases a.ok <;> rfl
    refine wp_bind
      (wp_of_keeps (fsyncRetry_keeps hsync) (fun _ _ => trivial) (fun _ _ => trivial) ?_)
    rintro (_ | error) w₁ herror hsight
    all_goals obtain ⟨hdisk, hfile⟩ := Prod.mk.inj hsight
    · refine wp_bind (wp_modify (wp_pure ⟨hdisk, ?_⟩))
      dsimp only
      rw [if_pos rfl, hfile]
    · refine wp_bind (wp_modify (wp_pure ⟨hdisk, ?_⟩))
      have hne : -error ≠ 0 := neg_ne_zero.mpr (herror error rfl).ne'
      dsimp only
      rw [if_neg hne, hfile]
  · have hclean : w.file.dirDirty = false := by simpa using hdirty
    rw [if_pos rfl, ← hclean]

/-- What an installation leaves behind. -/
structure Reopened (libc : Libc) (others : Finset ℕ) (s : FdWorld ι) (rc : ℤ) (s' : FdWorld ι) :
    Prop where
  /-- The new descriptor, its identity and its size are those of the active file; the old one is
  closed, after the new one was opened. -/
  installed : ∃ (n ino : ℕ) (sec : ℤ), s'.2.fd = n ∧
    s'.1.disk.dir s.1.file.binding.name = some ino ∧
    s'.1.file = { s.1.file with
      fd := some ino
      device := s'.1.disk.device
      inode := ino
      currentSize := if s.1.file.binding.managed then (s'.1.disk.data ino).length else 0
      currentDay := libc.localDay sec
      detached := false
      switchError := 0
      dirDirty := false } ∧
    s'.2.domain.registry.trace =
      s.2.domain.registry.trace ++ [.opened n, .closed s.2.fd.toNat]
  lockFd : s'.2.lockFd = s.2.lockFd
  dirFd : s'.2.dirFd = s.2.dirFd
  disk : CreatedFrom s.1 s'.1.disk
  owned : Owned others s'.2
  /-- Only the close may have failed, and then the result is its error. -/
  steps : ∃ before, s'.2.steps = before ++ [(.close, rc)] ∧ ∀ e ∈ before, e.2 = 0

/-- The outcome of `file_reopen_impl`. -/
def ReopenOutcome (libc : Libc) (others : Finset ℕ) (s : FdWorld ι) (rc : ℤ) (s' : FdWorld ι) :
    Prop :=
  (∃ step, step ≠ .close ∧ StoppedAt step rc s'.2.steps ∧ Refused others s s' ∧
    s'.1.file.dirDirty = (s.1.file.dirDirty ||
      s.1.file.binding.managed && decide (step = .dataSync ∨ step = .directorySync))) ∨
  Reopened libc others s rc s'

omit [DecidableEq ι] in
/-- The field takes over a candidate, and what it owned is left to a local owner. -/
theorem Owned.swap {table : FdTable ι} {n : ℕ} (h : Owned (insert n others) table)
    (hn : n ∉ others) (hfd : 0 ≤ table.fd) :
    Owned (insert table.fd.toNat others) { table with fd := n } := by
  set rest := ([table.lockFd, table.dirFd].filter (0 ≤ ·)).map Int.toNat with hrest
  -- only the first of the fields is exchanged
  have hfields : table.fields = table.fd.toNat :: rest := by
    simp [FdTable.fields, hrest, hfd]
  have hfields' : FdTable.fields { table with fd := n } = n :: rest := by
    simp [FdTable.fields, hrest]
  have hdistinct := h.distinct
  have hdisjoint := h.disjoint
  have hhanded := h.handed
  rw [hfields] at hdistinct hdisjoint hhanded
  obtain ⟨hold, hnodup⟩ := List.nodup_cons.mp hdistinct
  -- the new descriptor is none of them
  have hnot : ∀ fd ∈ table.fd.toNat :: rest, fd ≠ n ∧ fd ∉ others := by
    intro fd hmem
    have hfresh := hdisjoint fd hmem
    rw [Finset.mem_insert, not_or] at hfresh
    exact hfresh
  have hnew : n ∉ rest := fun hmem => (hnot n (List.mem_cons_of_mem _ hmem)).1 rfl
  refine ⟨h.inv, h.idle, ?_, ?_, ?_⟩
  · rw [hfields']
    exact List.nodup_cons.mpr ⟨hnew, hnodup⟩
  · rw [hfields']
    intro fd hmem
    rw [Finset.mem_insert, not_or]
    rcases List.mem_cons.mp hmem with rfl | hmem
    · exact ⟨fun heq => (hnot _ List.mem_cons_self).1 heq.symm, hn⟩
    · refine ⟨fun heq => hold (heq ▸ hmem), (hnot fd (List.mem_cons_of_mem _ hmem)).2⟩
  · rw [hfields', hhanded]
    ext fd
    simp only [List.toFinset_cons, Finset.mem_union, Finset.mem_insert]
    tauto

/-- What the two synchronisations of `file_reopen_impl` have done. -/
structure Synchronised (s : FdWorld ι) (rc : ℤ) (s' : FdWorld ι) : Prop where
  disk : s'.1.disk = s.1.disk
  table : s'.2 = { s.2 with steps := s'.2.steps }
  success : rc = 0 → s'.1.file = { s.1.file with dirDirty := false } ∧ ∀ e ∈ s'.2.steps, e.2 = 0
  failure : rc ≠ 0 → s'.1.file = s.1.file ∧
    ∃ step, (step = .dataSync ∨ step = .directorySync) ∧ StoppedAt step rc s'.2.steps

omit [DecidableEq ι] in
theorem synchronise_spec {f : LoggerFile} {β : Type} {k : ℤ → FdProg ι β}
    {Q : β → FdWorld ι → Prop} (hsteps : ∀ e ∈ s.2.steps, e.2 = 0)
    (hk : ∀ rc s', Synchronised s rc s' → fdWp (k rc) Q s') :
    fdWp (do
      let rc ← (if f.binding.managed then FdLevel.attempt .dataSync (syncData f.fd) else pure 0)
      let rc ← (if rc = 0 then FdLevel.attempt .directorySync syncDirectoryIfDirty else pure rc)
      k rc) Q s := by
  -- the directory part, from any world that differs in what no code reads
  have hdirectory : ∀ s₁ : FdWorld ι, s₁.1.sight = s.1.sight →
      s₁.2 = { s.2 with steps := s₁.2.steps } → (∀ e ∈ s₁.2.steps, e.2 = 0) →
      fdWp (FdLevel.attempt .directorySync syncDirectoryIfDirty >>= k) Q s₁ := by
    intro s₁ hsight htable hsteps₁
    obtain ⟨hdisk, hfile⟩ := Prod.mk.inj hsight
    refine wp_bind (attempt_spec (syncDirectoryIfDirty_sight s₁.1) fun rc w hw => hk rc _ ?_)
    refine ⟨hw.1.trans hdisk, ?_, fun hrc => ?_, fun hrc => ?_⟩
    · dsimp only
      rw [htable]
    · refine ⟨?_, allOk_record .directorySync hsteps₁ hrc⟩
      dsimp only
      rw [hw.2, if_pos hrc, hfile]
    · refine ⟨?_, .directorySync, .inr rfl, .of_record hrc hsteps₁⟩
      dsimp only
      rw [hw.2, if_neg hrc, hfile]
  -- only a managed file is synchronised
  refine wp_bind (wp_ite (fun _ => ?_) fun _ => wp_pure ?_)
  · refine attempt_spec (syncData_sight s.1 f.fd) fun rc w hw => ?_
    by_cases hrc : rc = 0
    · rw [if_pos hrc]
      exact hdirectory _ hw rfl (allOk_record .dataSync hsteps hrc)
    · rw [if_neg hrc]
      obtain ⟨hdisk, hfile⟩ := Prod.mk.inj hw
      refine wp_bind (wp_pure (hk rc _ ⟨hdisk, rfl, fun h => absurd h hrc, fun _ => ⟨hfile, ?_⟩⟩))
      exact ⟨.dataSync, .inl rfl, .of_record hrc hsteps⟩
  · rw [if_pos rfl]
    exact hdirectory s rfl rfl hsteps

theorem fileReopenImpl_outcome (hs : Owned others s.2) (hvalid : 0 ≤ s.2.fd) :
    fdWp (FdLevel.fileReopenImpl libc t) (ReopenOutcome libc others s) s := by
  refine wp_bind (wp_modify (wp_bind ?_))
  refine wp_bind (fdWp_keeps (π := id) call_keeps ?_)
  rintro now _ - rfl
  refine wp_bind (fdWp_keeps (π := id) (wallDay_day now.time.sec) ?_)
  -- without a day nothing has been opened
  rintro (rc | day) _ ⟨hfailing, hday⟩ rfl
  · refine wp_bind (wp_modify (wp_pure (wp_bind (wp_pure (wp_pure (.inl ?_))))))
    refine ⟨.day, nofun, ⟨(hfailing rc rfl).ne, [], rfl, nofun⟩, ?_, ?_⟩
    · exact ⟨rfl, .inl rfl, ⟨rfl, rfl, rfl⟩, hs.log _, .inl rfl⟩
    · simp
  obtain rfl := hday day rfl
  refine wp_bind (wp_modify ?_)
  have hsteps₁ : ∀ e ∈ [] ++ [(ReopenStep.day, (0 : ℤ))], e.2 = 0 := allOk_record .day nofun rfl
  refine wp_bind (wp_mono (openCandidate_outcome (hs.log _) hvalid hsteps₁) ?_)
  -- a candidate that is refused is already closed
  rintro (rc | ⟨fd, st⟩) s₁ hcandidate
  · obtain ⟨hrefused, hdirty, step, hdata, hdirectory, hclose, hstopped⟩ := hcandidate
    refine wp_pure (wp_bind (wp_pure (wp_pure (.inl ⟨step, hclose, hstopped, ?_, ?_⟩))))
    · exact ⟨hrefused.file, hrefused.disk, hrefused.fields, hrefused.owned, hrefused.closed⟩
    · simp [hdata, hdirectory, hdirty]
  replace hcandidate : Accepted others (s.1, { s.2 with steps := [(.day, 0)] }) fd st s₁ :=
    hcandidate
  have hmarked : s₁.1.file =
    { s.1.file with dirDirty := s.1.file.dirDirty || s.1.file.binding.managed } := hcandidate.file
  refine fdWp_getFile_bind (synchronise_spec hcandidate.steps fun rc s₂ hsync => ?_)
  have hdisk : CreatedFrom s.1 s₂.1.disk := hsync.disk ▸ hcandidate.disk
  have hfields : SameFields s.2 s₂.2 := by
    rw [hsync.table]
    exact hcandidate.fields
  have hheld : Held others fd s₂.2 := by
    rw [hsync.table]
    exact hcandidate.held.log _
  have hopened : s₂.2.domain.registry.trace =
      s.2.domain.registry.trace ++ [.opened fd.value.toNat] := by
    rw [hsync.table]
    exact hcandidate.opened
  refine wp_ite (fun hrc => wp_pure ?_) fun hrc => ?_
  · -- the candidate is closed at the end of the scope, and the mark of the directory stays
    obtain ⟨hfile, step, hstep, hstopped⟩ := hsync.failure hrc
    have hkept : s₂.1.file = { s.1.file with dirDirty := s₂.1.file.dirDirty } := by
      rw [hfile, hmarked]
    refine wp_bind
      (wp_mono (loggerFdCloseStatus_refused s hkept hdisk hfields hheld hvalid hopened) ?_)
    rintro _ s₃ ⟨hrefused, hw, hlog⟩
    refine wp_pure (.inl ⟨step, ?_, hlog ▸ hstopped, hrefused, ?_⟩)
    · rcases hstep with rfl | rfl <;> nofun
    · rw [hw, hfile, hmarked, decide_eq_true hstep, Bool.and_true]
  obtain ⟨hfile, hsteps⟩ := hsync.success (not_not.mp hrc)
  rw [hmarked] at hfile
  -- the candidate is installed, and the old descriptor changes hands
  have hvalue : fd.value = fd.value.toNat := (Int.toNat_of_nonneg hheld.valid).symm
  have hold : s₂.2.fd = s.2.fd := hfields.1
  refine wp_bind (wp_bind (wp_get (wp_bind (wp_modify (wp_pure ?_)))))
  refine wp_bind (wp_bind (wp_modify (wp_bind (wp_modify (wp_pure ?_)))))
  -- the local owner has the old descriptor now, and the field the new one
  have hretiring : Held others { value := s₂.2.fd, ino := s₂.1.file.fd.getD 0 }
      { s₂.2 with fd := fd.value } := by
    refine ⟨hold ▸ hvalid, ?_, ?_, hheld.gate⟩
    · have hmem : s.2.fd.toNat ∈ s.2.fields :=
        (mem_fields s.2 _).mpr (.inl (Int.toNat_of_nonneg hvalid).symm)
      rw [hold]
      exact hs.disjoint _ hmem
    · rw [hvalue]
      exact hheld.owned.swap hheld.fresh (hold ▸ hvalid)
  refine wp_bind (wp_mono (loggerFdCloseStatus_spec hretiring
    (FdTable.fields_ne_nil hheld.valid)) ?_)
  rintro closeRc s₃ ⟨hw, hsame, hlog, howned, htrace⟩
  refine wp_bind (wp_modify (wp_pure (wp_bind (wp_pure (wp_pure (.inr ?_))))))
  refine ⟨⟨fd.value.toNat, fd.ino, now.time.sec, ?_, ?_, ?_, ?_⟩, ?_, ?_, ?_, howned.log _, ?_⟩
  -- the fields, the size and the day are those of the new file
  · exact hsame.1.trans hvalue
  · rw [hw]
    exact hsync.disk ▸ hcandidate.active
  · have hdev : st.dev = s₂.1.disk.device := hsync.disk ▸ hcandidate.dev
    have hsize : st.size.toNat = (s₂.1.disk.data fd.ino).length := by
      rw [hcandidate.size, ← hsync.disk, Int.toNat_natCast]
    dsimp only
    rw [hw]
    dsimp only [FileWorld.note]
    rw [hfile, hdev, hcandidate.ino, hsize]
  -- exactly one descriptor was opened and one closed
  · dsimp only
    rw [htrace]
    dsimp only
    rw [hopened, hold, List.append_assoc]
    rfl
  · exact hsame.2.1.trans hfields.2.1
  · exact hsame.2.2.trans hfields.2.2
  · dsimp only
    rw [hw]
    exact hdisk
  · refine ⟨s₂.2.steps, ?_, hsteps⟩
    dsimp only
    rw [hlog]

end Specs

/-! ## Main result -/

section Main

variable {ι : Type} [DecidableEq ι]

/-- A step before the installation has failed. -/
def StepFailed (steps : List (ReopenStep × ℤ)) : Prop := ∃ e ∈ steps, e.1 ≠ .close ∧ e.2 ≠ 0

/-- Later calls go from `w'` as they go from `w`: on the same answers they return the same and leave
the same disk and file. -/
def GoesOnAs (libc : Libc) (w' w : FileWorld) : Prop :=
  ∀ (ops : List FileOp) (op : FileOp) (tape : List Answer),
    ((runFileOps libc ops >>= fun _ => op.exec libc).run w' tape).Matches
      (fun w₁ w₂ => w₁.sight = w₂.sight) Eq
      ((runFileOps libc ops >>= fun _ => op.exec libc).run w tape)

/-- What a reopen that fails before the installation leaves behind. -/
structure ReopenUndone (libc : Libc) (s : FdWorld ι) (ret : ForkReturn) (s' : FdWorld ι) :
    Prop where
  ret : ret.value = -1 ∧ ret.errno ≠ 0
  /-- Everything in `struct logger_file` but the mark of the directory is as before. -/
  file : s'.1.file = { s.1.file with dirDirty := s'.1.file.dirDirty }
  fields : SameFields s.2 s'.2
  /-- The mark is new only where the synchronisation of an accepted candidate failed. -/
  dirDirty : s'.1.file.dirDirty = s.1.file.dirDirty ∨ s'.1.file.dirDirty = true ∧
    s.1.file.binding.managed = true ∧
    ∃ e ∈ s'.2.steps, (e.1 = .dataSync ∨ e.1 = .directorySync) ∧ e.2 ≠ 0
  disk : CreatedFrom s.1 s'.1.disk
  /-- Nothing was opened, or one descriptor, which is closed. -/
  candidate : ClosedAgain s.2 s'.2
  later : GoesOnAs libc s'.1 { s.1 with
    disk := s'.1.disk, file := { s.1.file with dirDirty := s'.1.file.dirDirty } }

/-- The outcome of a reopen. -/
structure ReopenAtomic (libc : Libc) (others : Finset ℕ) (s : FdWorld ι) (ret : ForkReturn)
    (s' : FdWorld ι) : Prop where
  undone : StepFailed s'.2.steps → ReopenUndone libc s ret s'
  installed : ¬ StepFailed s'.2.steps → ∃ rc, Reopened libc others s rc s' ∧
    ret = if rc = 0 then {} else .failed (-rc)
  registered : ∀ n : ℕ, isOwned s'.2.domain.registry n = true ↔ n ∈ s'.2.fields ∨ n ∈ others
  owned : Owned others s'.2

/-- Only the disk and the file matter to the calls that follow. -/
theorem goesOnAs_of_sight {libc : Libc} {w w' : FileWorld} (h : w'.sight = w.sight) :
    GoesOnAs libc w' w := fun ops op tape =>
  (Sees.bind (runFileOps_sees ops) fun _ => fileOp_exec_sees op).matches w' w tape h

theorem StoppedAt.stepFailed {step : ReopenStep} {rc : ℤ} {steps : List (ReopenStep × ℤ)}
    (h : StoppedAt step rc steps) (hstep : step ≠ .close) : StepFailed steps := by
  obtain ⟨hrc, before, rfl, -⟩ := h
  exact ⟨(step, rc), List.mem_append_right _ List.mem_cons_self, hstep, hrc⟩

theorem not_stepFailed {rc : ℤ} {before : List (ReopenStep × ℤ)} (h : ∀ e ∈ before, e.2 = 0) :
    ¬ StepFailed (before ++ [(.close, rc)]) := by
  rintro ⟨e, he, hstep, hrc⟩
  rcases List.mem_append.mp he with he | he
  · exact hrc (h e he)
  · exact hstep (congrArg Prod.fst (List.mem_singleton.mp he))

omit [DecidableEq ι] in
/-- What the caller of `file_reopen_impl` adds concerns the metrics only. -/
theorem ReopenOutcome.atomic {libc : Libc} {others : Finset ℕ} {s s' : FdWorld ι} {rc : ℤ}
    {m₀ : FileMetrics} (h : ReopenOutcome libc others ({ s.1 with metrics := m₀ }, s.2) rc s')
    (m : FileMetrics) : ReopenAtomic libc others s (if rc = 0 then {} else .failed (-rc))
      ({ s'.1 with metrics := m }, s'.2) := by
  rcases h with ⟨step, hstep, hstopped, hrefused, hdirty⟩ | hreopened
  · have hfailed := hstopped.stepFailed hstep
    refine ⟨fun _ => ?_, fun h => absurd hfailed h, hrefused.owned.isOwned_iff, hrefused.owned⟩
    obtain ⟨hrc, before, hlog, -⟩ := hstopped
    refine ⟨?_, hrefused.file, hrefused.fields, ?_, hrefused.disk, hrefused.closed, ?_⟩
    · rw [if_neg hrc]
      exact ⟨rfl, neg_ne_zero.mpr hrc⟩
    · by_cases hsync : (step = .dataSync ∨ step = .directorySync) ∧ s.1.file.binding.managed = true
      · have hmem : (step, rc) ∈ s'.2.steps := hlog ▸ List.mem_append_right _ List.mem_cons_self
        refine .inr ⟨hdirty.trans ?_, hsync.2, (step, rc), hmem, hsync.1, hrc⟩
        simp [hsync.1, hsync.2]
      · refine .inl (hdirty.trans ?_)
        rw [not_and_or, Bool.not_eq_true] at hsync
        rcases hsync with hstep | hmanaged
        · simp [hstep]
        · simp [hmanaged]
    · exact goesOnAs_of_sight (Prod.ext rfl hrefused.file)
  · obtain ⟨before, hlog, hbefore⟩ := hreopened.steps
    refine ⟨fun h => ?_, fun _ => ⟨rc, ?_, rfl⟩, hreopened.owned.isOwned_iff, hreopened.owned⟩
    · exact absurd (hlog ▸ h) (not_stepFailed hbefore)
    · exact ⟨hreopened.installed, hreopened.lockFd, hreopened.dirFd, hreopened.disk,
        hreopened.owned, hreopened.steps⟩

/-- Reopening is atomic: for every state of the file with an open descriptor and every outcome of
the steps. Without one it fails and does nothing. -/
theorem reopen_atomic (libc : Libc) (t : ι) (others : Finset ℕ) (s : FdWorld ι)
    (hs : Owned others s.2) (tape : List (Answer × LockedReplies)) (ret : ForkReturn)
    (s' : FdWorld ι) (rest : List (Answer × LockedReplies))
    (hrun : (FdLevel.loggerFileReopen libc t).run s tape = .done ret s' rest) :
    (s.2.fd < 0 → ret = .failed ebadf ∧ s' = s) ∧
      (0 ≤ s.2.fd → ReopenAtomic libc others s ret s') := by
  have hspec : fdWp (FdLevel.loggerFileReopen libc t) (fun ret s' =>
      (s.2.fd < 0 → ret = .failed ebadf ∧ s' = s) ∧
        (0 ≤ s.2.fd → ReopenAtomic libc others s ret s')) s := by
    refine wp_bind (wp_get (wp_ite (fun hneg => ?_) fun hvalid => ?_))
    · exact wp_pure ⟨fun _ => ⟨rfl, rfl⟩, fun hpos => absurd hneg (not_lt.mpr hpos)⟩
    refine wp_bind (wp_modify (wp_bind (wp_mono (fileReopenImpl_outcome hs (not_lt.mp hvalid)) ?_)))
    intro rc s₁ houtcome
    have hatomic := fun m => houtcome.atomic (s := s) m
    refine wp_ite (fun hrc => wp_bind (wp_modify (wp_pure ⟨fun hneg => absurd hneg hvalid, ?_⟩)))
      fun hrc => wp_bind (wp_modify (wp_pure ⟨fun hneg => absurd hneg hvalid, ?_⟩))
    · simp only [if_neg hrc] at hatomic
      exact fun _ => hatomic _
    · simp only [if_pos (not_not.mp hrc)] at hatomic
      exact fun _ => hatomic _
  have hsound := hspec.run tape
  rw [hrun] at hsound
  exact hsound

end Main

/-! ## A concrete file -/

/-- The calls that open the directory, the lock file and the active file. -/
def openingCalls : List (ForkAction ℕ) :=
  [.call 0 .open { fd := 3 }, .call 0 .openat { fd := 4 }, .call 0 .openat { fd := 5 }]

/-- The registry after these calls. -/
def openedDomain : ForkDomain ℕ :=
  (TransitionSystem.exec forkNext (forkStart ℕ {0, 1, 2} fun _ _ => 0) openingCalls).get rfl

/-- A file rotated by others, with its descriptors. -/
def externalFile : FdWorld ℕ :=
  ({ openedFile with file := { openedFile.file with
      binding := { openedFile.file.binding with mode := .external } } },
    { fd := 5, lockFd := 4, dirFd := 3, domain := openedDomain })

theorem externalFile_owned : Owned ∅ externalFile.2 where
  inv := by
    have hcheck : ∀ (s : ForkDomain ℕ) a s', decide (KernelStep s a s') = true →
        KernelStep s a s' := fun _ _ _ h => of_decide_eq_true h
    have hreach : TransitionSystem.Reachable forkNext KernelStep
        (forkStart ℕ {0, 1, 2} fun _ _ => 0) openedDomain :=
      TransitionSystem.reachable_of_exec_filter hcheck
        (rfl : TransitionSystem.exec _ _ openingCalls = some openedDomain)
    exact forkInv_of_reachable hreach
  idle := rfl
  distinct := by decide
  disjoint := by simp
  handed := by decide

/-- The answers to a reopen, the kernel handing out descriptor 6. The data synchronisation is
answered by `sync`, the close of the old descriptor or of the candidate by `close`. -/
def reopenTape (sync close : Answer) : List (Answer × LockedReplies) :=
  let replies : LockedReplies := ⟨{ fd := 6, closed := close }, {}⟩
  let done : Answer := {}
  List.replicate 7 (done, replies) ++ [(sync, replies), (done, replies), (done, replies)]

/-- The outcome of a reopen of the file. -/
def reopenRun (sync close : Answer) : Outcome (FdWorld ℕ) (Answer × LockedReplies) ForkReturn :=
  (FdLevel.loggerFileReopen ⟨1, gmtime⟩ 0).run externalFile (reopenTape sync close)

/-- The close of the old descriptor fails: -1 is returned, and the new descriptor is installed. -/
theorem reopen_atomic_close_failed :
    ∃ ret s' rest, reopenRun {} { ok := false } = .done ret s' rest ∧ ret.value = -1 ∧
      s'.2.fd = 6 ∧ ReopenAtomic ⟨1, gmtime⟩ ∅ externalFile ret s' := by
  obtain ⟨ret, s', rest, hrun, hret, hfd⟩ : ∃ ret s' rest,
      reopenRun {} { ok := false } = .done ret s' rest ∧ ret.value = -1 ∧ s'.2.fd = 6 :=
    ⟨_, _, _, rfl, rfl, rfl⟩
  refine ⟨ret, s', rest, hrun, hret, hfd, ?_⟩
  exact (reopen_atomic ⟨1, gmtime⟩ 0 ∅ externalFile externalFile_owned
    (reopenTape {} { ok := false }) ret s' rest hrun).2 (by decide)

/-- A write of one byte that is synchronised. -/
def syncedWrite : FileProg ℤ := loggerFileWrite ⟨1, gmtime⟩ (.ofBytes [66]) (some ⟨0, 0⟩) true

/-- The answers to it: the byte is taken, the data is synchronised, and a third call fails. -/
def syncedTape : List Answer := [{ count := 1 }, {}, { ok := false }]

/-- A write after a reopen whose data synchronisation failed also synchronises the directory, and
fails where it succeeds without the reopen. -/
theorem reopen_leaves_mark :
    ¬ ∀ (s s' : FdWorld ℕ) (tape rest : List (Answer × LockedReplies)) (ret : ForkReturn),
      Owned ∅ s.2 → 0 ≤ s.2.fd →
      (FdLevel.loggerFileReopen ⟨1, gmtime⟩ 0).run s tape = .done ret s' rest →
      StepFailed s'.2.steps → ∀ rc rc' w w' left left',
      syncedWrite.run s'.1 syncedTape = .done rc' w' left' →
      syncedWrite.run s.1 syncedTape = .done rc w left → rc' = rc := by
  intro hsame
  have hdiffer : (-eio : ℤ) = 0 := by
    refine hsame externalFile (reopenRun { ok := false } {}).state (reopenTape { ok := false } {}) _
      (.failed eio) externalFile_owned (by decide) rfl ⟨(.dataSync, -eio), ?_, nofun, by decide⟩
      0 (-eio) _ _ _ _ rfl rfl
    decide
  exact absurd hdiffer (by decide)

end CLogger
