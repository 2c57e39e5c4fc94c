import CLogger.ForkFd.Bitmap

/-!
# The registry is a finite set

* `CallEffect` and `forkCall_cases`: everything a call can do.
* `ForkInv`: the invariant of all runs, with what each thread holds across calls.
* `childWords_spec`: the loops of the child handler.
* `fork_registry_refines_set`: the main result.
-/

namespace CLogger

open BitWords TransitionSystem

/-! ## What a call can do -/

section Calls

variable {ι : Type} [DecidableEq ι] {r : ForkReplies} {t : ι} {s s' : ForkDomain ι}
  {ret : ForkReturn}

/-- What holds between the calls of a run. -/
structure ForkInv (s : ForkDomain ι) : Prop where
  registry : RegistryInv s.registry s.handed
  gate : ∀ t, (s.threads t).inGate = true ↔ s.fdMu = some t
  lease : ∀ t lease, (s.threads t).directoryLease = some lease →
    (s.threads t).inGate = true ∧ (s.threads t).prepared = false ∧ lease.fd ∈ s.handed
  prepared : ∀ t, (s.threads t).prepared = true →
    (s.threads t).inGate = true ∧ (s.threads t).forkDepth ≠ 0 ∧
      (s.threads t).snapshotFds = s.registry.owned ∧
      (s.threads t).snapshotBytes = s.registry.ownedBytes ∧ s.atPrepare t = s.handed

/-- What a call that consumes a descriptor returns. -/
def consumeReturn (r : ForkReplies) (handed : Finset ℕ) (fd : ℕ) : ForkReturn :=
  if consumeError r handed fd ≠ 0 then .failed (consumeError r handed fd) else {}

/-- The domain while a call of thread `t` runs. -/
def ForkDomain.entered (s : ForkDomain ι) (t : ι) : ForkDomain ι :=
  { s.setThread t fun thread => { thread with inGate := true } with fdMu := some t }

omit [DecidableEq ι] in
theorem ForkInv.notInGate (hs : ForkInv s) (hidle : s.fdMu = none) (t : ι) :
    (s.threads t).inGate = false := by
  rw [← Bool.not_eq_true, hs.gate, hidle]
  exact nofun

/-- A call that is over has left the lock and the thread-local variables as they were. -/
theorem ForkDomain.entered_unlock (hidle : s.fdMu = none) (hgate : (s.threads t).inGate = false)
    (g : FdRegistry) : ((s.entered t).setRegistry g).unlock t 0 = s.setRegistry g := by
  have hthread : ({ s.threads t with inGate := false } : ForkThread) = s.threads t := by
    rw [← hgate]
  unfold ForkDomain.unlock ForkDomain.entered ForkDomain.setRegistry ForkDomain.setThread
  simp [hthread, hidle]

/-- The exit of a call with a lock that works. -/
theorem leave_entered (hunlock : r.unlock = 0) (hidle : s.fdMu = none)
    (hgate : (s.threads t).inGate = false) (error : ℤ) (g : FdRegistry) :
    loggerForkResourceLeave r t error ((s.entered t).setRegistry g) = (error, s.setRegistry g) := by
  have herror : (if error ≠ 0 then error else r.unlock) = error := by
    rw [hunlock]
    by_cases h : error = 0
    · rw [if_neg (not_not.mpr h), h]
    · rw [if_pos h]
  rw [loggerForkResourceLeave, herror, hunlock, ForkDomain.entered_unlock hidle hgate]

/-- `logger_fork_resource_enter`: it refuses the caller, or the caller has the lock. -/
theorem enter_cases (hlock : r.lock = 0) (hunlock : r.unlock = 0) {rc : ℤ}
    (h : loggerForkResourceEnter r t s = some (rc, s')) :
    (rc ≠ 0 ∧ ¬ Admitted r t s ∧ (s' = s ∨ s' = s.poison rc)) ∨
      (rc = 0 ∧ Admitted r t s ∧ s.fdMu = none ∧ s' = s.entered t) := by
  unfold loggerForkResourceEnter at h
  by_cases hrequire : r.require = 0
  swap
  -- each refusal is one case, in the order of the source
  · rw [if_pos hrequire] at h
    obtain ⟨rfl, rfl⟩ := Prod.mk.inj (Option.some.inj h)
    exact .inl ⟨neg_ne_zero.mpr hrequire, fun ha => hrequire ha.1, .inl rfl⟩
  rw [if_neg (not_not.mpr hrequire)] at h
  by_cases hgate : (s.threads t).inGate = true
  · rw [if_pos hgate] at h
    obtain ⟨rfl, rfl⟩ := Prod.mk.inj (Option.some.inj h)
    refine .inl ⟨by decide, fun ha => ?_, .inl rfl⟩
    rw [ha.2.1] at hgate
    exact Bool.false_ne_true hgate
  rw [if_neg hgate] at h
  by_cases herror : s.registry.gateError = 0
  swap
  · rw [if_pos herror] at h
    obtain ⟨rfl, rfl⟩ := Prod.mk.inj (Option.some.inj h)
    exact .inl ⟨herror, fun ha => herror ha.2.2.1, .inl rfl⟩
  rw [if_neg (not_not.mpr herror), if_neg (not_not.mpr hlock)] at h
  -- the call waits while the lock is held, so the step does not exist
  by_cases hheld : s.fdMu.isSome = true
  · rw [if_pos hheld] at h
    exact absurd h nofun
  rw [if_neg hheld] at h
  have hidle : s.fdMu = none := by simpa using hheld
  have hgate' : (s.threads t).inGate = false := by simpa using hgate
  obtain ⟨rfl, hs'⟩ := Prod.mk.inj (Option.some.inj h)
  -- the word can have been poisoned between the first look and the lock
  by_cases hraced : r.raced = 0
  · have hentered : (s.lock t r.raced).setThread t (fun thread => { thread with inGate := true }) =
        s.entered t := by
      unfold ForkDomain.lock
      rw [if_neg (not_not.mpr hraced)]
      rfl
    rw [hentered] at hs' ⊢
    have hzero : (s.entered t).registry.gateError = 0 := herror
    rw [if_neg (not_not.mpr hzero)] at hs'
    exact .inr ⟨hzero, ⟨hrequire, hgate', herror, hraced⟩, hidle, hs'.symm⟩
  · have hentered : (s.lock t r.raced).setThread t (fun thread => { thread with inGate := true }) =
        (s.entered t).setRegistry (s.registry.poison r.raced) := by
      unfold ForkDomain.lock
      rw [if_pos hraced]
      rfl
    rw [hentered] at hs' ⊢
    have hrc : ((s.entered t).setRegistry (s.registry.poison r.raced)).registry.gateError =
      r.raced :=
      rfl
    rw [hrc, if_pos hraced, hunlock, ForkDomain.entered_unlock hidle hgate'] at hs'
    exact .inl ⟨hraced, fun ha => hraced ha.2.2.2, .inr hs'.symm⟩

/-- Everything a call can do. -/
inductive CallEffect (r : ForkReplies) (t : ι) (s : ForkDomain ι) :
    ForkCall → ForkReturn → ForkDomain ι → Prop
  /-- The call is refused before it does anything. -/
  | refused {call : ForkCall} {error : ℤ} (hentry : ∀ dir, call ≠ .closedir dir)
      (herror : error ≠ 0) (hadmitted : ¬ Admitted r t s) : CallEffect r t s call (.failed error) s
  /-- The domain was poisoned while the caller waited. -/
  | raced {call : ForkCall} {error : ℤ} (hentry : ∀ dir, call ≠ .closedir dir)
      (herror : error ≠ 0) (hadmitted : ¬ Admitted r t s) :
      CallEffect r t s call (.failed error) (s.poison error)
  | acquired {call : ForkCall} {error fd : ℤ} {g : FdRegistry} (hcall : call.acquires = true)
      (hidle : s.fdMu = none) (hg : Acquired r s.handed s.registry error fd g) :
      CallEffect r t s call { value := if error ≠ 0 then -1 else fd, errno := error }
        (s.setRegistry g)
  | foreign {call : ForkCall} {fd : ℤ} (hcall : call = .close fd ∨ call = .fdopendir fd)
      (hfd : isOwned s.registry fd = false) : CallEffect r t s call (.failed ebadf) s
  | consumed {fd : ℕ} (hidle : s.fdMu = none) (hadmitted : Admitted r t s) (hfd : fd ∈ s.handed) :
      CallEffect r t s (.close fd) (consumeReturn r s.handed fd)
        (s.setRegistry (consumeFd r fd s.registry).2)
  | noStream {fd error : ℤ} (hfd : isOwned s.registry fd = true) (herror : error ≠ 0) :
      CallEffect r t s (.fdopendir fd) (.failed error) s
  | leased {fd : ℤ} {ret : ForkReturn} (hidle : s.fdMu = none)
      (hfd : isOwned s.registry fd = true) :
      CallEffect r t s (.fdopendir fd) ret
        ((s.entered t).setThread t fun thread =>
          { thread with directoryLease := some ⟨r.dir, fd.toNat⟩ })
  /-- The stream is not the caller's. -/
  | noLease {dir : ℕ} (hlease : ∀ fd, (s.threads t).directoryLease ≠ some ⟨dir, fd⟩) :
      CallEffect r t s (.closedir dir) (.failed einval) s
  | unleased {dir fd : ℕ} (hlease : (s.threads t).directoryLease = some ⟨dir, fd⟩) :
      CallEffect r t s (.closedir dir) (consumeReturn r s.handed fd)
        (((s.setRegistry (consumeFd r fd s.registry).2).setThread t fun thread =>
          { thread with directoryLease := none }).unlock t 0)
  | nested {ret : ForkReturn} (hdepth : (s.threads t).forkDepth ≠ 0) :
      CallEffect r t s .prepare ret
        (s.setThread t fun thread => { thread with forkDepth := thread.forkDepth + 1 })
  | unprepared {ret : ForkReturn} {error : ℤ} (hdepth : (s.threads t).forkDepth = 0) :
      CallEffect r t s .prepare ret (s.setThread t (·.restart error))
  | prepared {ret : ForkReturn} {s₁ : ForkDomain ι} (hdepth : (s.threads t).forkDepth = 0)
      (hidle : s.fdMu = none)
      (hs₁ : s₁ = s ∨ r.raced ≠ 0 ∧ s₁ = s.poison r.raced) :
      CallEffect r t s .prepare ret ((s₁.entered t).setThread t fun thread =>
        { thread.restart s₁.registry.gateError with
          prepared := true
          snapshotFds := s.registry.owned
          snapshotBytes := s.registry.ownedBytes })
  | returned {ret : ForkReturn} (hdepth : 1 < (s.threads t).forkDepth) :
      CallEffect r t s .parent ret
        (s.setThread t fun thread => { thread with forkDepth := thread.forkDepth - 1 })
  | released {ret : ForkReturn} (hprepared : (s.threads t).prepared = true) :
      CallEffect r t s .parent ret
        ((s.unlock t 0).setThread t fun thread => { thread with prepared := false, forkDepth := 0 })
  | unreleased {ret : ForkReturn} (hprepared : (s.threads t).prepared = false) :
      CallEffect r t s .parent ret
        (s.setThread t fun thread => { thread with prepared := false, forkDepth := 0 })

/-- The two ways to fail at the entry. -/
theorem CallEffect.of_enter {call : ForkCall} {error : ℤ} (hentry : ∀ dir, call ≠ .closedir dir)
    (herror : error ≠ 0) (hadmitted : ¬ Admitted r t s) (hs' : s' = s ∨ s' = s.poison error) :
    CallEffect r t s call (.failed error) s' := by
  rcases hs' with rfl | rfl
  · exact .refused hentry herror hadmitted
  · exact .raced hentry herror hadmitted

theorem forkAcquire_cases (hs : ForkInv s) (hlock : r.lock = 0) (hunlock : r.unlock = 0)
    (hfd : r.opened.ok = true → r.fd ∉ s.registry.openFds ∧ r.fd < 2 ^ 31) {call : ForkCall}
    (hcall : call.acquires = true) (h : forkAcquire r t s = some (ret, s')) :
    CallEffect r t s call ret s' := by
  obtain ⟨⟨rc, s₁⟩, henter, h⟩ := Option.bind_eq_some_iff.mp h
  dsimp only at h
  rcases enter_cases hlock hunlock henter with ⟨hrc, hadm, hs₁⟩ | ⟨hrc, hadm, hidle, rfl⟩
  · rw [if_pos hrc] at h
    obtain ⟨rfl, rfl⟩ := Prod.mk.inj (Option.some.inj h)
    refine .of_enter (fun dir hdir => ?_) hrc hadm hs₁
    rw [hdir] at hcall
    exact Bool.noConfusion hcall
  · rw [if_neg (not_not.mpr hrc)] at h
    have hleave := leave_entered hunlock hidle hadm.2.1
      (acquired r (sysAcquire r s.registry).1 (sysAcquire r s.registry).2).1
      (acquired r (sysAcquire r s.registry).1 (sysAcquire r s.registry).2).2.2
    have hregistry : (s.entered t).registry = s.registry := rfl
    rw [hregistry, hleave] at h
    obtain ⟨rfl, rfl⟩ := Prod.mk.inj (Option.some.inj h)
    exact .acquired hcall hidle (acquired_spec r hs.registry hfd)

theorem loggerForkClose_cases (hs : ForkInv s) (hlock : r.lock = 0)
    (hunlock : r.unlock = 0) {fd : ℤ}
    (h : loggerForkClose r t fd s = some (ret, s')) : CallEffect r t s (.close fd) ret s' := by
  obtain ⟨⟨rc, s₁⟩, henter, h⟩ := Option.bind_eq_some_iff.mp h
  dsimp only at h
  rcases enter_cases hlock hunlock henter with ⟨hrc, hadm, hs₁⟩ | ⟨hrc, hadm, hidle, rfl⟩
  · rw [if_pos hrc] at h
    obtain ⟨rfl, rfl⟩ := Prod.mk.inj (Option.some.inj h)
    exact .of_enter (by rintro dir ⟨⟩) hrc hadm hs₁
  rw [if_neg (not_not.mpr hrc)] at h
  have hregistry : (s.entered t).registry = s.registry := rfl
  rw [hregistry] at h
  cases hfd : isOwned s.registry fd with
  | false =>
    rw [hfd, Bool.not_false, if_pos rfl, leave_entered hunlock hidle hadm.2.1] at h
    obtain ⟨rfl, rfl⟩ := Prod.mk.inj (Option.some.inj h)
    have hebadf : ebadf ≠ 0 := by decide
    simp only [if_pos hebadf]
    exact .foreign (.inl rfl) hfd
  | true =>
    obtain ⟨hnonneg, hmem⟩ := (hs.registry.bitmap.isOwned_iff fd).mp hfd
    obtain ⟨n, rfl⟩ : ∃ n : ℕ, fd = n := ⟨fd.toNat, (Int.toNat_of_nonneg hnonneg).symm⟩
    rw [Int.toNat_natCast] at hmem
    rw [hfd, Bool.not_true, if_neg Bool.false_ne_true, Int.toNat_natCast,
      leave_entered hunlock hidle hadm.2.1, (consumeFd_spec r hs.registry hmem).error] at h
    obtain ⟨rfl, rfl⟩ := Prod.mk.inj (Option.some.inj h)
    exact .consumed hidle hadm hmem

theorem loggerForkFdopendir_cases (hlock : r.lock = 0) (hunlock : r.unlock = 0) {fd : ℤ}
    (h : loggerForkFdopendir r t fd s = some (ret, s')) :
    CallEffect r t s (.fdopendir fd) ret s' := by
  obtain ⟨⟨rc, s₁⟩, henter, h⟩ := Option.bind_eq_some_iff.mp h
  dsimp only at h
  rcases enter_cases hlock hunlock henter with ⟨hrc, hadm, hs₁⟩ | ⟨hrc, hadm, hidle, rfl⟩
  -- a call that is not admitted changes nothing but, perhaps, the error word
  · rw [if_pos hrc] at h
    obtain ⟨rfl, rfl⟩ := Prod.mk.inj (Option.some.inj h)
    exact .of_enter (by rintro dir ⟨⟩) hrc hadm hs₁
  rw [if_neg (not_not.mpr hrc)] at h
  have hregistry : (s.entered t).registry = s.registry := rfl
  have hself : s.entered t = (s.entered t).setRegistry s.registry := rfl
  -- leaving without a stream undoes the entry
  have hleave : ∀ error, loggerForkResourceLeave r t error (s.entered t) = (error, s) := by
    intro error
    rw [hself, leave_entered hunlock hidle hadm.2.1]
    rfl
  rw [hregistry] at h
  cases hfd : isOwned s.registry fd with
  | false =>
    rw [hfd, if_neg (fun hc => Bool.false_ne_true hc.1), Bool.not_false, if_pos rfl, hleave] at h
    obtain ⟨rfl, rfl⟩ := Prod.mk.inj (Option.some.inj h)
    exact .foreign (.inr rfl) hfd
  | true =>
    by_cases hok : r.stream.ok = true
    -- the stream keeps the gate, so nothing is left here
    · rw [hfd, if_pos ⟨rfl, hok⟩] at h
      obtain ⟨-, rfl⟩ := Prod.mk.inj (Option.some.inj h)
      exact .leased hidle hfd
    · rw [hfd, if_neg (fun hc => hok hc.2), Bool.not_true, if_neg Bool.false_ne_true, hleave] at h
      obtain ⟨rfl, rfl⟩ := Prod.mk.inj (Option.some.inj h)
      exact .noStream hfd r.stream.errno_ne_zero

theorem loggerForkClosedir_cases (hs : ForkInv s) (hunlock : r.unlock = 0) (dir : ℕ) :
    CallEffect r t s (.closedir dir) (loggerForkClosedir r t dir s).1
      (loggerForkClosedir r t dir s).2 := by
  unfold loggerForkClosedir
  cases hlease : (s.threads t).directoryLease with
  | none => exact .noLease fun fd hfd => absurd (hlease.symm.trans hfd) (by rintro ⟨⟩)
  | some lease =>
    obtain ⟨address, fd⟩ := lease
    obtain ⟨hgate, -, hmem⟩ := hs.lease t _ hlease
    dsimp only at hmem ⊢
    by_cases hother : address = dir
    swap
    · rw [if_pos (.inl hother)]
      refine .noLease fun fd hfd => hother ?_
      exact congrArg DirStream.address (Option.some.inj (hlease.symm.trans hfd))
    · have hsame : ¬(address ≠ dir ∨ (!(s.threads t).inGate) = true) := by simp [hother, hgate]
      have howned : isOwned s.registry (fd : ℤ) = true := (hs.registry.bitmap.mem fd).mpr hmem
      have hreturn : ∀ error : ℤ, (if error ≠ 0 then error else 0) = error := by
        intro error
        split
        · rfl
        · rename_i hzero
          exact (not_not.mp hzero).symm
      rw [if_neg hsame, howned, Bool.not_true, if_neg Bool.false_ne_true, loggerForkResourceLeave,
        hunlock, hreturn, (consumeFd_spec r hs.registry hmem).error]
      exact .unleased (hother ▸ hlease)

theorem loggerForkFdPrepare_cases (hlock : r.lock = 0)
    (h : loggerForkFdPrepare r t s = some s') : CallEffect r t s .prepare ret s' := by
  unfold loggerForkFdPrepare at h
  by_cases hdepth : (s.threads t).forkDepth = 0
  swap
  · rw [if_pos hdepth] at h
    obtain rfl := Option.some.inj h
    exact .nested hdepth
  rw [if_neg (not_not.mpr hdepth)] at h
  -- four refusals in the order of the source, each of which leaves the thread unprepared
  split at h
  · obtain rfl := Option.some.inj h
    exact .unprepared hdepth
  split at h
  · obtain rfl := Option.some.inj h
    exact .unprepared hdepth
  split at h
  · obtain rfl := Option.some.inj h
    exact .unprepared hdepth
  split at h
  · obtain rfl := Option.some.inj h
    exact .unprepared hdepth
  rw [if_neg (not_not.mpr hlock)] at h
  split at h
  · exact absurd h nofun
  · rename_i hheld
    have hidle : s.fdMu = none := by simpa using hheld
    obtain rfl := Option.some.inj h
    -- Taking the lock sets the flag before the other variables of the thread.
    have hsplit : ∀ s₁ : ForkDomain ι,
        ((s₁.entered t).setThread t fun thread => { thread.restart s₁.registry.gateError with
          prepared := true
          snapshotFds := s.registry.owned
          snapshotBytes := s.registry.ownedBytes }) =
        ({ s₁ with fdMu := some t }).setThread t fun thread =>
          { thread.restart s₁.registry.gateError with
            prepared := true
            inGate := true
            snapshotFds := s.registry.owned
            snapshotBytes := s.registry.ownedBytes } := by
      intro s₁
      simp [ForkDomain.entered, ForkDomain.setThread, ForkThread.restart]
    by_cases hraced : r.raced = 0
    · have heffect : CallEffect r t s .prepare ret _ := .prepared hdepth hidle (.inl rfl)
      rw [hsplit s] at heffect
      simpa [ForkDomain.lock, hraced] using heffect
    · have heffect : CallEffect r t s .prepare ret _ :=
        .prepared hdepth hidle (.inr ⟨hraced, rfl⟩)
      rw [hsplit (s.poison r.raced)] at heffect
      simpa [ForkDomain.lock, hraced, ForkDomain.poison, ForkDomain.setRegistry,
        FdRegistry.poison] using heffect

theorem loggerForkFdParent_cases (hunlock : r.unlock = 0) :
    CallEffect r t s .parent ret (loggerForkFdParent r t s) := by
  unfold loggerForkFdParent
  by_cases hdepth : (s.threads t).forkDepth > 1
  · rw [if_pos hdepth]
    exact .returned hdepth
  rw [if_neg hdepth]
  cases hprepared : (s.threads t).prepared with
  | true =>
    rw [if_pos rfl, hunlock]
    exact .released hprepared
  | false =>
    rw [if_neg Bool.false_ne_true]
    exact .unreleased hprepared

/-- What one call does, in every run with a lock that works and a faithful kernel. -/
theorem forkCall_cases (hs : ForkInv s) {call : ForkCall} (hlock : r.lock = 0)
    (hunlock : r.unlock = 0)
    (hfd : call.acquires → r.opened.ok → r.fd ∉ s.registry.openFds ∧ r.fd < 2 ^ 31)
    (h : forkCall t r s call = some (ret, s')) : CallEffect r t s call ret s' := by
  cases call with
  | «open» => exact forkAcquire_cases hs hlock hunlock (hfd rfl) rfl h
  | openat => exact forkAcquire_cases hs hlock hunlock (hfd rfl) rfl h
  | socket => exact forkAcquire_cases hs hlock hunlock (hfd rfl) rfl h
  | close fd => exact loggerForkClose_cases hs hlock hunlock h
  | fdopendir fd => exact loggerForkFdopendir_cases hlock hunlock h
  | closedir dir =>
    have hres := Option.some.inj h
    have heffect := loggerForkClosedir_cases (t := t) hs hunlock dir
    rw [hres] at heffect
    exact heffect
  | prepare =>
    obtain ⟨s₁, hprepare, hres⟩ := Option.map_eq_some_iff.mp h
    obtain ⟨-, rfl⟩ := Prod.mk.inj hres
    exact loggerForkFdPrepare_cases hlock hprepare
  | parent =>
    obtain ⟨-, rfl⟩ := Prod.mk.inj (Option.some.inj h)
    exact loggerForkFdParent_cases hunlock

/-! ## The invariant -/

omit [DecidableEq ι] in
/-- While nobody holds the lock, the registry and the set may change together. -/
theorem ForkInv.setRegistry (hs : ForkInv s) (hidle : s.fdMu = none) {g : FdRegistry}
    {handed : Finset ℕ} (hg : RegistryInv g handed) :
    ForkInv { s.setRegistry g with handed } := by
  refine ⟨hg, hs.gate, fun t lease hlease => ?_, fun t hprepared => ?_⟩
  · have hgate := (hs.lease t lease hlease).1
    rw [hs.notInGate hidle] at hgate
    exact absurd hgate Bool.false_ne_true
  · have hgate := (hs.prepared t hprepared).1
    rw [hs.notInGate hidle] at hgate
    exact absurd hgate Bool.false_ne_true

omit [DecidableEq ι] in
/-- The registry may change outside the bitmap, whoever holds the lock. -/
theorem ForkInv.congr (hs : ForkInv s) {g : FdRegistry} (hg : RegistryInv g s.handed)
    (howned : g.owned = s.registry.owned) (hbytes : g.ownedBytes = s.registry.ownedBytes) :
    ForkInv (s.setRegistry g) := by
  refine ⟨hg, hs.gate, hs.lease, fun t hprepared => ?_⟩
  obtain ⟨hgate, hdepth, hfds, hsnap, hset⟩ := hs.prepared t hprepared
  exact ⟨hgate, hdepth, hfds.trans howned.symm, hsnap.trans hbytes.symm, hset⟩

theorem RegistryInv.poison {g : FdRegistry} {handed : Finset ℕ} (hg : RegistryInv g handed)
    {error : ℤ} (herror : error ≠ 0) : RegistryInv (g.poison error) handed :=
  ⟨⟨hg.bitmap.mem, hg.bitmap.count, hg.bitmap.unmapped, hg.bitmap.bytes, fun _ => herror⟩, hg.tidy,
    hg.kernel.congr rfl rfl, hg.fits⟩

omit [DecidableEq ι] in
theorem ForkInv.poison (hs : ForkInv s) {error : ℤ} (herror : error ≠ 0) :
    ForkInv (s.poison error) :=
  hs.congr (hs.registry.poison herror) rfl rfl

/-- A change of one thread's variables is judged by those variables. -/
theorem ForkInv.setThread (hs : ForkInv s) {f : ForkThread → ForkThread}
    (hgate : (f (s.threads t)).inGate = (s.threads t).inGate)
    (hlease : (f (s.threads t)).directoryLease = (s.threads t).directoryLease)
    (hprepared : (f (s.threads t)).prepared = true →
      (s.threads t).prepared = true ∧ (f (s.threads t)).forkDepth ≠ 0 ∧
        (f (s.threads t)).snapshotFds = (s.threads t).snapshotFds ∧
        (f (s.threads t)).snapshotBytes = (s.threads t).snapshotBytes) :
    ForkInv (s.setThread t f) := by
  have hself : (s.setThread t f).threads t = f (s.threads t) := Function.update_self ..
  have hother : ∀ t', t' ≠ t → (s.setThread t f).threads t' = s.threads t' := fun t' ht' =>
    Function.update_of_ne ht' ..
  refine ⟨hs.registry, fun t' => ?_, fun t' lease hl => ?_, fun t' hp => ?_⟩
  · by_cases ht' : t' = t
    · rw [ht', hself, hgate]
      exact hs.gate t
    · rw [hother t' ht']
      exact hs.gate t'
  · by_cases ht' : t' = t
    · rw [ht', hself] at hl ⊢
      obtain ⟨hin, hnot, hmem⟩ := hs.lease t lease (hlease ▸ hl)
      refine ⟨hgate ▸ hin, ?_, hmem⟩
      rw [← Bool.not_eq_true]
      intro hp
      rw [(hprepared hp).1] at hnot
      exact Bool.noConfusion hnot
    · rw [hother t' ht'] at hl ⊢
      exact hs.lease t' lease hl
  · by_cases ht' : t' = t
    · rw [ht', hself] at hp ⊢
      obtain ⟨hp, hdepth, hfds, hbytes⟩ := hprepared hp
      obtain ⟨hin, -, hfds', hbytes', hset⟩ := hs.prepared t hp
      exact ⟨hgate ▸ hin, hdepth, hfds.trans hfds', hbytes.trans hbytes', hset⟩
    · rw [hother t' ht'] at hp ⊢
      exact hs.prepared t' hp

/-- The lock is taken by a thread that then holds a stream or a snapshot. -/
theorem ForkInv.enterGate (hs : ForkInv s) (hidle : s.fdMu = none) {thread : ForkThread}
    {atPrepare : ι → Finset ℕ} (hgate : thread.inGate = true)
    (hlease : ∀ lease, thread.directoryLease = some lease →
      thread.prepared = false ∧ lease.fd ∈ s.handed)
    (hprepared : thread.prepared = true → thread.forkDepth ≠ 0 ∧
      thread.snapshotFds = s.registry.owned ∧ thread.snapshotBytes = s.registry.ownedBytes ∧
      atPrepare t = s.handed) :
    ForkInv { s with
      fdMu := some t
      threads := Function.update s.threads t thread
      atPrepare } := by
  -- the thread itself has what it just took; the others were not in the gate
  refine ⟨hs.registry, fun t' => ?_, fun t' lease hl => ?_, fun t' hp => ?_⟩
  · by_cases ht' : t' = t
    · simp [ht', hgate]
    · have hnot := hs.notInGate hidle t'
      simp [Function.update_of_ne ht', hnot, Ne.symm ht']
  · by_cases ht' : t' = t
    · subst ht'
      simp only [Function.update_self] at hl ⊢
      exact ⟨hgate, hlease lease hl⟩
    · simp only [Function.update_of_ne ht'] at hl ⊢
      exact hs.lease t' lease hl
  · by_cases ht' : t' = t
    · subst ht'
      simp only [Function.update_self] at hp ⊢
      exact ⟨hgate, hprepared hp⟩
    · have hgate' := (hs.prepared t' (by simpa [Function.update_of_ne ht'] using hp)).1
      rw [hs.notInGate hidle] at hgate'
      exact absurd hgate' Bool.false_ne_true

/-- The thread that holds the lock gives it back, with a stream or a snapshot that is over. -/
theorem ForkInv.leaveGate (hs : ForkInv s) (hheld : (s.threads t).inGate = true)
    {thread : ForkThread} {g : FdRegistry} {handed : Finset ℕ} {atPrepare : ι → Finset ℕ}
    (hg : RegistryInv g handed) (hgate : thread.inGate = false)
    (hlease : thread.directoryLease = none) (hprepared : thread.prepared = false) :
    ForkInv { registry := g, fdMu := none, threads := Function.update s.threads t thread, handed,
              atPrepare } := by
  have hmu : s.fdMu = some t := (hs.gate t).mp hheld
  have hothers : ∀ t', t' ≠ t → (s.threads t').inGate = false := by
    intro t' ht'
    rw [← Bool.not_eq_true, hs.gate, hmu]
    exact fun h => ht' (Option.some.inj h).symm
  refine ⟨hg, fun t' => ?_, fun t' lease hl => ?_, fun t' hp => ?_⟩
  · by_cases ht' : t' = t
    · simp [ht', hgate]
    · simp [Function.update_of_ne ht', hothers t' ht']
  · by_cases ht' : t' = t
    · simp [ht', hlease] at hl
    · have hgate' := (hs.lease t' lease (by simpa [Function.update_of_ne ht'] using hl)).1
      rw [hothers t' ht'] at hgate'
      exact absurd hgate' Bool.false_ne_true
  · by_cases ht' : t' = t
    · simp [ht', hprepared] at hp
    · have hgate' := (hs.prepared t' (by simpa [Function.update_of_ne ht'] using hp)).1
      rw [hothers t' ht'] at hgate'
      exact absurd hgate' Bool.false_ne_true

omit [DecidableEq ι] in
theorem ForkInv.setPrepared (hs : ForkInv s) {atPrepare : ι → Finset ℕ}
    (hset : ∀ t, atPrepare t = s.atPrepare t ∨ atPrepare t = s.handed) :
    ForkInv { s with atPrepare } := by
  refine ⟨hs.registry, hs.gate, hs.lease, fun t hp => ?_⟩
  obtain ⟨hgate, hdepth, hfds, hbytes, hold⟩ := hs.prepared t hp
  refine ⟨hgate, hdepth, hfds, hbytes, ?_⟩
  rcases hset t with h | h
  · exact h.trans hold
  · exact h

theorem preparedAfter_cases (s : ForkDomain ι) (t : ι) (call : ForkCall) (t' : ι) :
    preparedAfter s t call t' = s.atPrepare t' ∨ preparedAfter s t call t' = s.handed := by
  cases call with
  | prepare =>
    rw [preparedAfter]
    by_cases hdepth : (s.threads t).forkDepth = 0
    · rw [if_pos hdepth]
      by_cases ht' : t' = t
      · exact .inr (ht' ▸ Function.update_self ..)
      · exact .inl (Function.update_of_ne ht' ..)
    · rw [if_neg hdepth]
      exact .inl rfl
  | _ => exact .inl rfl

omit [DecidableEq ι] in
/-- A call that gives no descriptor of the set up and acquires none leaves the set alone. -/
theorem handedAfter_of_quiet {call : ForkCall} (hcall : call.acquires = false)
    (hkeep : ∀ fd ∈ s.handed, ¬ call.Consumes r t s fd) :
    handedAfter r t s call ret = s.handed := by
  rw [handedAfter, hcall, if_neg Bool.false_ne_true, Finset.filter_true_of_mem hkeep]

omit [DecidableEq ι] in
/-- So does any call that fails and gives none up. -/
theorem handedAfter_of_failed {call : ForkCall} {error : ℤ}
    (hkeep : ∀ fd ∈ s.handed, ¬ call.Consumes r t s fd) :
    handedAfter r t s call (.failed error) = s.handed := by
  cases hcall : call.acquires with
  | true => simp [handedAfter, hcall, ForkReturn.failed]
  | false => exact handedAfter_of_quiet hcall hkeep

omit [DecidableEq ι] in
/-- A call that gives a descriptor up takes it out of the set, and no other. -/
theorem handedAfter_of_consumes {call : ForkCall} (hcall : call.acquires = false) {fd : ℕ}
    (hfd : ∀ other, call.Consumes r t s other ↔ fd = other) :
    handedAfter r t s call ret = s.handed.erase fd := by
  rw [handedAfter, hcall, if_neg Bool.false_ne_true]
  ext other
  rw [Finset.mem_filter, Finset.mem_erase, hfd, and_comm, ne_comm]

omit [DecidableEq ι] in
/-- A call that is refused at the entry gives nothing up. -/
theorem not_consumes_of_refused {call : ForkCall} (hentry : ∀ dir, call ≠ .closedir dir)
    (hadmitted : ¬ Admitted r t s) (fd : ℕ) : ¬ call.Consumes r t s fd := by
  cases call with
  | close n => exact fun h => hadmitted h.1
  | closedir dir => exact absurd rfl (hentry dir)
  | _ => exact id

omit [DecidableEq ι] in
/-- A `close` or `fdopendir` of a foreign descriptor gives nothing of the set up. -/
theorem not_consumes_of_foreign (hs : ForkInv s) {call : ForkCall} {fd : ℤ}
    (hcall : call = .close fd ∨ call = .fdopendir fd) (hfd : isOwned s.registry fd = false) :
    ∀ other ∈ s.handed, ¬ call.Consumes r t s other := by
  intro other hmem hconsumes
  rcases hcall with rfl | rfl
  · rw [hconsumes.2, (hs.registry.bitmap.mem other).mpr hmem] at hfd
    exact Bool.noConfusion hfd
  · exact hconsumes

omit [DecidableEq ι] in
theorem consumes_close_iff (hadmitted : Admitted r t s) (fd other : ℕ) :
    (ForkCall.close fd).Consumes r t s other ↔ fd = other :=
  (and_iff_right hadmitted).trans Nat.cast_inj

omit [DecidableEq ι] in
theorem consumes_closedir_iff {dir fd : ℕ} (hlease : (s.threads t).directoryLease = some ⟨dir, fd⟩)
    (other : ℕ) : (ForkCall.closedir dir).Consumes r t s other ↔ fd = other := by
  show (s.threads t).directoryLease = some ⟨dir, other⟩ ↔ fd = other
  rw [hlease, Option.some.injEq, DirStream.mk.injEq, and_iff_right rfl]

/-- The variables of a thread that has just taken a snapshot. -/
theorem ForkInv.snapshot (hs : ForkInv s) (hidle : s.fdMu = none) {atPrepare : ι → Finset ℕ}
    (hset : atPrepare t = s.handed) (error : ℤ) :
    ForkInv { (s.entered t).setThread t fun thread =>
      { thread.restart error with
        prepared := true
        snapshotFds := s.registry.owned
        snapshotBytes := s.registry.ownedBytes } with atPrepare } := by
  have hlease : (s.threads t).directoryLease = none := by
    by_contra hsome
    obtain ⟨lease, hlease⟩ := Option.ne_none_iff_exists'.mp hsome
    have hgate := (hs.lease t lease hlease).1
    rw [hs.notInGate hidle] at hgate
    exact Bool.false_ne_true hgate
  have hthreads := Function.update_idem (a := t)
    ({ s.threads t with inGate := true } : ForkThread)
    ({ ({ s.threads t with inGate := true } : ForkThread).restart error with
        prepared := true
        snapshotFds := s.registry.owned
        snapshotBytes := s.registry.ownedBytes }) s.threads
  unfold ForkDomain.entered ForkDomain.setThread
  simp only [Function.update_self, hthreads]
  refine hs.enterGate hidle rfl ?_ fun _ => ⟨Nat.one_ne_zero, rfl, rfl, hset⟩
  intro lease hl
  exact absurd (hlease.symm.trans hl) nofun

/-- The variables of a thread that has just opened a stream on an owned descriptor. -/
theorem ForkInv.openStream (hs : ForkInv s) (hidle : s.fdMu = none) {lease : DirStream}
    (hmem : lease.fd ∈ s.handed) :
    ForkInv ((s.entered t).setThread t fun thread =>
      { thread with directoryLease := some lease }) := by
  have hnot : (s.threads t).prepared = false := by
    rw [← Bool.not_eq_true]
    intro hp
    have hgate := (hs.prepared t hp).1
    rw [hs.notInGate hidle] at hgate
    exact Bool.false_ne_true hgate
  unfold ForkDomain.entered ForkDomain.setThread
  simp only [Function.update_self, Function.update_idem]
  refine hs.enterGate hidle rfl ?_ fun hp => ?_
  · intro lease' hl
    obtain rfl := Option.some.inj hl
    exact ⟨hnot, hmem⟩
  · exact absurd (hnot.symm.trans hp) Bool.false_ne_true

/-- One call keeps the invariant. -/
theorem CallEffect.inv {call : ForkCall} (hs : ForkInv s) (h : CallEffect r t s call ret s') :
    ForkInv { s' with
      handed := handedAfter r t s call ret, atPrepare := preparedAfter s t call } := by
  cases h with
  -- a refused call hands out nothing and consumes nothing
  | refused hentry herror hadm =>
    rw [handedAfter_of_failed fun fd _ => not_consumes_of_refused hentry hadm fd]
    exact hs.setPrepared (preparedAfter_cases s t call)
  | raced hentry herror hadm =>
    rw [handedAfter_of_failed fun fd _ => not_consumes_of_refused hentry hadm fd]
    exact (hs.poison herror).setPrepared (preparedAfter_cases s t call)
  | @acquired _ error fd g hcall hidle hg =>
    have hprepared : preparedAfter s t call = s.atPrepare := by
      cases call <;> first | rfl | exact Bool.noConfusion hcall
    rw [hprepared]
    -- the set changes exactly when a descriptor is handed out
    by_cases herror : error = 0
    · obtain ⟨rfl, -, hinv, -⟩ := hg.success herror
      have hvalue : handedAfter r t s call
          { value := if error ≠ 0 then -1 else r.fd, errno := error } = insert r.fd s.handed := by
        simp [handedAfter, hcall, herror]
      rw [hvalue]
      exact hs.setRegistry hidle hinv
    · have hvalue : handedAfter r t s call
          { value := if error ≠ 0 then -1 else fd, errno := error } = s.handed := by
        simp [handedAfter, hcall, herror]
      rw [hvalue]
      exact hs.setRegistry hidle (hg.failure herror).1
  | @foreign _ fd hcall hfd =>
    rw [handedAfter_of_failed (not_consumes_of_foreign hs hcall hfd)]
    exact hs.setPrepared (preparedAfter_cases s t call)
  -- the caller gave the descriptor up, and the registry has forgotten it
  | @consumed fd hidle hadm hmem =>
    rw [handedAfter_of_consumes rfl (consumes_close_iff hadm fd)]
    exact hs.setRegistry hidle (consumeFd_spec r hs.registry hmem).inv
  | noStream _ _ =>
    rw [handedAfter_of_failed fun _ _ => id]
    exact hs
  | @leased fd _ hidle hfd =>
    rw [handedAfter_of_quiet rfl fun _ _ => id]
    exact hs.openStream hidle ((hs.registry.bitmap.isOwned_iff fd).mp hfd).2
  | @noLease dir hlease =>
    have hkeep : ∀ fd ∈ s.handed, ¬ (ForkCall.closedir dir).Consumes r t s fd :=
      fun fd _ => hlease fd
    rw [handedAfter_of_failed hkeep]
    exact hs
  -- the stream's descriptor goes, and with it the thread leaves the gate
  | @unleased dir fd hlease =>
    obtain ⟨hgate, hnot, hmem⟩ := hs.lease t _ hlease
    rw [handedAfter_of_consumes rfl (consumes_closedir_iff hlease)]
    unfold ForkDomain.unlock ForkDomain.setThread ForkDomain.setRegistry
    simp only [Function.update_self, Function.update_idem]
    exact hs.leaveGate hgate (consumeFd_spec r hs.registry hmem).inv rfl rfl hnot
  | nested hdepth =>
    rw [handedAfter_of_quiet rfl fun _ _ => id, preparedAfter, if_neg hdepth]
    have hinv : ForkInv (s.setThread t fun thread =>
        { thread with forkDepth := thread.forkDepth + 1 }) :=
      hs.setThread rfl rfl fun hp => ⟨hp, Nat.succ_ne_zero _, rfl, rfl⟩
    exact hinv
  | @unprepared _ error hdepth =>
    rw [handedAfter_of_quiet rfl fun _ _ => id]
    have hinv : ForkInv (s.setThread t (·.restart error)) :=
      hs.setThread rfl rfl (by rintro ⟨⟩)
    exact hinv.setPrepared (preparedAfter_cases s t .prepare)
  -- the snapshot is that of the set at this moment
  | @prepared _ s₁ hdepth hidle hs₁ =>
    have hset : preparedAfter s t .prepare t = s.handed := by
      rw [preparedAfter, if_pos hdepth, Function.update_self]
    rw [handedAfter_of_quiet rfl fun _ _ => id]
    rcases hs₁ with rfl | ⟨hraced, rfl⟩
    · exact hs.snapshot hidle hset _
    · exact (hs.poison hraced).snapshot hidle hset _
  | returned hdepth =>
    rw [handedAfter_of_quiet rfl fun _ _ => id]
    have hinv : ForkInv (s.setThread t fun thread =>
        { thread with forkDepth := thread.forkDepth - 1 }) :=
      hs.setThread rfl rfl fun hp => ⟨hp, Nat.sub_ne_zero_of_lt hdepth, rfl, rfl⟩
    exact hinv
  -- a thread with a snapshot has no stream, since each of them holds the gate
  | released hprepared =>
    have hlease : (s.threads t).directoryLease = none := by
      by_contra hsome
      obtain ⟨lease, hlease⟩ := Option.ne_none_iff_exists'.mp hsome
      exact Bool.noConfusion (hprepared.symm.trans (hs.lease t lease hlease).2.1)
    rw [handedAfter_of_quiet rfl fun _ _ => id]
    unfold ForkDomain.unlock ForkDomain.setThread
    simp only [ne_eq, not_true_eq_false, if_false, Function.update_self, Function.update_idem]
    exact hs.leaveGate (hs.prepared t hprepared).1 hs.registry rfl hlease rfl
  | unreleased hprepared =>
    rw [handedAfter_of_quiet rfl fun _ _ => id]
    have hinv : ForkInv (s.setThread t fun thread =>
        { thread with prepared := false, forkDepth := 0 }) :=
      hs.setThread rfl rfl (by rintro ⟨⟩)
    exact hinv

/-- One step keeps the invariant. -/
theorem forkNext_inv {a : ForkAction ι} (hs : ForkInv s) (hnext : forkNext s a = some s')
    (hok : KernelStep s a s') : ForkInv s' := by
  cases a with
  | call t call r =>
    obtain ⟨⟨ret, s₁⟩, hcall, rfl⟩ := Option.map_eq_some_iff.mp hnext
    exact (forkCall_cases hs hok.1 hok.2.1 hok.2.2 hcall).inv hs
  | hostOpen fd =>
    rw [forkNext] at hnext
    split at hnext
    · exact absurd hnext nofun
    · obtain rfl := Option.some.inj hnext
      have hkernel := hs.registry.kernel
      refine hs.congr ⟨?_, hs.registry.tidy, ⟨hkernel.trace, ?_⟩, hs.registry.fits⟩ rfl rfl
      -- the registry is the same, only the kernel's table has grown
      · have hbitmap := hs.registry.bitmap
        exact ⟨hbitmap.mem, hbitmap.count, hbitmap.unmapped, hbitmap.bytes, hbitmap.poisoned⟩
      · exact hkernel.isOpen.trans (Finset.subset_insert fd _)
  | hostClose fd =>
    rw [forkNext] at hnext
    split at hnext
    · exact absurd hnext nofun
    · rename_i hfd
      obtain rfl := Option.some.inj hnext
      have hkernel := hs.registry.kernel
      refine hs.congr ⟨?_, hs.registry.tidy, ⟨hkernel.trace, ?_⟩, hs.registry.fits⟩ rfl rfl
      · have hbitmap := hs.registry.bitmap
        exact ⟨hbitmap.mem, hbitmap.count, hbitmap.unmapped, hbitmap.bytes, hbitmap.poisoned⟩
      -- the host closes none of ours, so ours stay open
      · exact Finset.subset_erase.mpr ⟨hkernel.isOpen, hfd⟩
  | poison error =>
    rw [forkNext] at hnext
    split at hnext
    · exact absurd hnext nofun
    · rename_i herror
      obtain rfl := Option.some.inj hnext
      exact hs.poison herror

omit [DecidableEq ι] in
theorem forkStart_inv (host : Finset ℕ) (memory : ℕ → ℕ → BitVec 64) :
    ForkInv (forkStart ι host memory) := by
  refine ⟨⟨⟨fun fd => ?_, rfl, fun _ => rfl, Nat.zero_le _, nofun⟩, fun _ _ => rfl, ⟨rfl, ?_⟩, ?_⟩,
    ?_, ?_, ?_⟩
  · rw [isOwned_natCast]
    simp [forkStart]
  · exact Finset.empty_subset _
  · exact fun fd hfd => absurd hfd (Finset.notMem_empty fd)
  · exact fun t => ⟨nofun, nofun⟩
  · exact fun t lease hl => absurd hl nofun
  · exact fun t hp => absurd hp nofun

/-- The invariant holds in every run. -/
theorem forkInv_of_reachable {host : Finset ℕ} {memory : ℕ → ℕ → BitVec 64}
    (h : Reachable forkNext KernelStep (forkStart ι host memory) s) : ForkInv s :=
  h.invariant (forkStart_inv host memory) fun _ _ _ _ hs hnext hok => forkNext_inv hs hnext hok

/-! ## The child handler -/

/-- The inner loop passes the bits of its word to `close`, lowest first. -/
theorem childBits_spec (closing : ℕ → Answer) (word fuel : ℕ) (bits : BitVec 64)
    (c : ChildHandler) :
    (childBits closing word fuel bits c).closed =
        c.closed ++ (drain fuel bits).map (word * 64 + ·) ∧
      (childBits closing word fuel bits c).bitmap = c.bitmap ∧
      (childBits closing word fuel bits c).valid = c.valid := by
  induction fuel generalizing bits c with
  | zero => simp [childBits, drain]
  | succ fuel ih =>
    rw [childBits, drain]
    by_cases hzero : bits = 0
    · simp [hzero]
    · have hword : ¬ bits = 0#64 := hzero
      rw [if_neg hzero, if_neg hword]
      obtain ⟨hclosed, hbitmap, hvalid⟩ := ih (bits &&& (bits - 1))
        (c.close closing (word * 64 + bits.ctz.toNat))
      refine ⟨?_, hbitmap, hvalid⟩
      rw [hclosed, ChildHandler.close]
      simp

/-- The outer loop passes the bits of the first `n` words to `close`. -/
theorem childWords_spec (closing : ℕ → Answer) (c : ChildHandler) (n : ℕ) :
    ((List.range n).foldl (childWord closing) c).closed = c.closed ++ drainWords c.bitmap n ∧
      (∀ word, n ≤ word → ((List.range n).foldl (childWord closing) c).bitmap word =
      c.bitmap word) ∧
      ((List.range n).foldl (childWord closing) c).valid = c.valid := by
  induction n with
  | zero => simp [drainWords]
  | succ n ih =>
    obtain ⟨hclosed, hbitmap, hvalid⟩ := ih
    rw [List.range_succ, List.foldl_append]
    obtain ⟨hclosed', hbitmap', hvalid'⟩ := childBits_spec closing n 64
      (((List.range n).foldl (childWord closing) c).bitmap n)
      { (List.range n).foldl (childWord closing) c with
        bitmap := Function.update ((List.range n).foldl (childWord closing) c).bitmap n 0 }
    refine ⟨?_, fun word hword => ?_, hvalid'.trans hvalid⟩
    · refine hclosed'.trans ?_
      rw [drainWords_succ, ← List.append_assoc, ← hclosed, hbitmap n le_rfl]
    · refine (congrFun hbitmap' word).trans ?_
      dsimp only
      rw [Function.update_of_ne (by omega)]
      exact hbitmap word (by omega)

/-! ## Main result -/

/-- What a reachable state and the next call in it owe to the set of descriptors handed out. -/
structure RefinesSet (s : ForkDomain ι) : Prop where
  /-- The members are the descriptors returned and not closed since. -/
  members : ∀ fd : ℤ, isOwned s.registry fd = true ↔ 0 ≤ fd ∧ fd.toNat ∈ s.handed
  count : s.registry.ownedCount = s.handed.card
  /-- The storage follows the set, unless a failed `munmap` has poisoned the domain. -/
  storage : s.registry.munmapFailed = false → (s.registry.owned = none ↔ s.handed = ∅)
  poisoned : s.registry.munmapFailed = true → s.registry.gateError ≠ 0
  /-- Everything passed to `close` was open by the library and not closed before; what is left are
  the descriptors handed out. -/
  closedOnce : liveAfter s.registry.trace = some s.handed
  /-- An acquiring call returns the kernel's descriptor, or closes it once and leaves the set. -/
  acquire : ∀ t call r ret s', call.acquires = true → forkCall t r s call = some (ret, s') →
    KernelStep s (.call t call r) s' →
    (0 ≤ ret.value → ret.value = r.fd ∧
      s'.registry.trace = s.registry.trace ++ [.opened r.fd]) ∧
    (ret.value < 0 → (∀ fd, isOwned s'.registry fd = isOwned s.registry fd) ∧
      (¬ (Admitted r t s ∧ r.opened.ok = true) ∧ s'.registry.trace = s.registry.trace ∨
        s'.registry.trace = s.registry.trace ++ [.opened r.fd, .closed r.fd]))
  /-- The bitmap grows to any descriptor without overflow and with the same members. -/
  growth : ∀ r fd, fd < 2 ^ 31 →
    (∀ other, isOwned (growFor r fd s.registry).2 other = isOwned s.registry other) ∧
    (r.mapped.ok = true → (growFor r fd s.registry).1 = 0) ∧
    ((growFor r fd s.registry).1 = 0 → fd / 64 < (growFor r fd s.registry).2.ownedBytes / 8) ∧
    ((growFor r fd s.registry).1 ≠ 0 → (growFor r fd s.registry).1 = r.mapped.errno) ∧
    (growFor r fd s.registry).2.ownedBytes ≤ sizeMax
  /-- A foreign descriptor is refused with `EBADF` and not closed. -/
  foreign : ∀ t call r ret s' fd, (call = .close fd ∨ call = .fdopendir fd) →
    isOwned s.registry fd = false → forkCall t r s call = some (ret, s') →
    KernelStep s (.call t call r) s' →
    ret.value = -1 ∧ (Admitted r t s → ret.errno = ebadf) ∧
      s'.registry.trace = s.registry.trace ∧ s'.registry.openFds = s.registry.openFds
  /-- A call that gives a descriptor of the set up passes it to `close` once, whatever the kernel
  answers, and takes it and no other out of the set. It returns what the kernel answers or, for the
  last descriptor, what unmapping the bitmap answers. -/
  consume : ∀ t call r ret s' fd, call.Consumes r t s fd → isOwned s.registry (fd : ℕ) = true →
    forkCall t r s call = some (ret, s') → KernelStep s (.call t call r) s' →
    s'.registry.trace = s.registry.trace ++ [.closed fd] ∧
      s'.registry.openFds = s.registry.openFds.erase fd ∧
      (∀ other : ℤ, isOwned s'.registry other = true ↔
        isOwned s.registry other = true ∧ other ≠ fd) ∧
      ret = consumeReturn r s.handed fd
  /-- A call that neither acquires a descriptor nor gives one of the set up passes nothing to the
  kernel and leaves the set alone. -/
  keep : ∀ t call r ret s', call.acquires = false →
    (∀ fd : ℕ, isOwned s.registry fd = true → ¬ call.Consumes r t s fd) →
    forkCall t r s call = some (ret, s') → KernelStep s (.call t call r) s' →
    s'.registry.trace = s.registry.trace ∧
      ∀ fd, isOwned s'.registry fd = isOwned s.registry fd
  /-- The child of a fork with a valid prepare closes what was owned at prepare, each once. -/
  child : ∀ t closing, (s.threads t).prepared = true → (s.threads t).prepareError = 0 →
    (s.threads t).forkDepth = 1 →
    (loggerForkFdChild closing t s).valid = true ∧
      (loggerForkFdChild closing t s).closed.Nodup ∧
      ∀ fd, fd ∈ (loggerForkFdChild closing t s).closed ↔ fd ∈ s.atPrepare t
  /-- The child of any other fork closes nothing. -/
  childInvalid : ∀ t closing, (loggerForkFdChild closing t s).valid = false →
    (loggerForkFdChild closing t s).closed = []

theorem CallEffect.acquire {call : ForkCall} (hs : ForkInv s) (hcall : call.acquires = true)
    (h : CallEffect r t s call ret s') :
    (0 ≤ ret.value → ret.value = r.fd ∧
      s'.registry.trace = s.registry.trace ++ [.opened r.fd]) ∧
    (ret.value < 0 → (∀ fd, isOwned s'.registry fd = isOwned s.registry fd) ∧
      (¬ (Admitted r t s ∧ r.opened.ok = true) ∧ s'.registry.trace = s.registry.trace ∨
        s'.registry.trace = s.registry.trace ++ [.opened r.fd, .closed r.fd])) := by
  cases h with
  | refused _ _ hadm => exact ⟨nofun, fun _ => ⟨fun _ => rfl, .inl ⟨fun ha => hadm ha.1, rfl⟩⟩⟩
  | raced _ _ hadm => exact ⟨nofun, fun _ => ⟨fun _ => rfl, .inl ⟨fun ha => hadm ha.1, rfl⟩⟩⟩
  | @acquired _ error fd g _ hidle hg =>
    by_cases herror : error = 0
    · obtain ⟨rfl, -, -, htrace⟩ := hg.success herror
      rw [if_neg (not_not.mpr herror)]
      exact ⟨fun _ => ⟨rfl, htrace⟩, fun hneg => absurd hneg (by dsimp only; omega)⟩
    · obtain ⟨hinv, htrace⟩ := hg.failure herror
      -- a failed registration leaves the members; the descriptor was opened and closed, or never
      -- opened
      rw [if_pos herror]
      refine ⟨nofun, fun _ => ⟨fun other => ?_, ?_⟩⟩
      · rw [Bool.eq_iff_iff, hs.registry.bitmap.isOwned_iff]
        exact hinv.bitmap.isOwned_iff other
      · rcases htrace with ⟨hfail, rfl⟩ | ⟨-, htrace⟩
        · exact .inl ⟨fun ha => Bool.noConfusion (hfail.symm.trans ha.2), rfl⟩
        · exact .inr htrace
  | foreign hclose _ =>
    rcases hclose with rfl | rfl
    · exact Bool.noConfusion hcall
    · exact Bool.noConfusion hcall
  | _ => exact Bool.noConfusion hcall

theorem CallEffect.foreignFd (hs : ForkInv s) {call : ForkCall} {fd : ℤ}
    (hcall : call = .close fd ∨ call = .fdopendir fd) (hfd : isOwned s.registry fd = false)
    (h : CallEffect r t s call ret s') :
    ret.value = -1 ∧ (Admitted r t s → ret.errno = ebadf) ∧
      s'.registry.trace = s.registry.trace ∧ s'.registry.openFds = s.registry.openFds := by
  cases h with
  | refused _ _ hadm => exact ⟨rfl, fun ha => absurd ha hadm, rfl, rfl⟩
  | raced _ _ hadm => exact ⟨rfl, fun ha => absurd ha hadm, rfl, rfl⟩
  | acquired hacquires _ _ =>
    -- the call is a `close` or an `fdopendir`, so the other effects cannot be its
    rcases hcall with rfl | rfl
    · exact Bool.noConfusion hacquires
    · exact Bool.noConfusion hacquires
  | foreign _ _ => exact ⟨rfl, fun _ => rfl, rfl, rfl⟩
  | @consumed n _ _ hmem =>
    rcases hcall with h | h
    · obtain rfl := ForkCall.close.inj h
      exact Bool.noConfusion (hfd.symm.trans ((hs.registry.bitmap.mem n).mpr hmem))
    · exact ForkCall.noConfusion h
  | noStream howned _ =>
    -- a call that got past the check had an owned descriptor
    rcases hcall with h | h
    · exact ForkCall.noConfusion h
    · obtain rfl := ForkCall.fdopendir.inj h
      exact Bool.noConfusion (hfd.symm.trans howned)
  | leased _ howned =>
    rcases hcall with h | h
    · exact ForkCall.noConfusion h
    · obtain rfl := ForkCall.fdopendir.inj h
      exact Bool.noConfusion (hfd.symm.trans howned)
  | _ => rcases hcall with h | h <;> exact ForkCall.noConfusion h

/-- What consuming a descriptor of the set does to the registry, as its members show it. -/
theorem Consumed.members {handed : Finset ℕ} {g g' : FdRegistry} {fd : ℕ} {error : ℤ}
    (h : Consumed r handed g fd error g') (hg : RegistryInv g handed) (other : ℤ) :
    isOwned g' other = true ↔ isOwned g other = true ∧ other ≠ fd := by
  rw [h.inv.bitmap.isOwned_iff, hg.bitmap.isOwned_iff, Finset.mem_erase]
  constructor
  · rintro ⟨hnonneg, hne, hmem⟩
    refine ⟨⟨hnonneg, hmem⟩, fun heq => hne ?_⟩
    rw [heq, Int.toNat_natCast]
  · rintro ⟨⟨hnonneg, hmem⟩, hne⟩
    refine ⟨hnonneg, fun heq => hne ?_, hmem⟩
    rw [← heq, Int.toNat_of_nonneg hnonneg]

theorem CallEffect.consume (hs : ForkInv s) {call : ForkCall} {fd : ℕ}
    (hcall : call.Consumes r t s fd) (hfd : isOwned s.registry (fd : ℕ) = true)
    (h : CallEffect r t s call ret s') :
    s'.registry.trace = s.registry.trace ++ [.closed fd] ∧
      s'.registry.openFds = s.registry.openFds.erase fd ∧
      (∀ other : ℤ, isOwned s'.registry other = true ↔
        isOwned s.registry other = true ∧ other ≠ fd) ∧
      ret = consumeReturn r s.handed fd := by
  have hmem := (hs.registry.bitmap.mem fd).mp hfd
  have hconsumed := consumeFd_spec r hs.registry hmem
  cases h with
  | refused hentry _ hadm => exact absurd hcall (not_consumes_of_refused hentry hadm fd)
  | raced hentry _ hadm => exact absurd hcall (not_consumes_of_refused hentry hadm fd)
  | acquired hacquires _ _ =>
    cases call with
    | close n => exact Bool.noConfusion hacquires
    | closedir dir => exact Bool.noConfusion hacquires
    | _ => exact hcall.elim
  | foreign hforeign hfd' => exact absurd hcall (not_consumes_of_foreign hs hforeign hfd' fd hmem)
  | consumed _ hadm _ =>
    obtain rfl := (consumes_close_iff hadm _ _).mp hcall
    exact ⟨hconsumed.trace, hconsumed.openFds, hconsumed.members hs.registry, rfl⟩
  | noLease hlease => exact absurd hcall (hlease fd)
  | unleased hlease =>
    obtain rfl := (consumes_closedir_iff hlease _).mp hcall
    exact ⟨hconsumed.trace, hconsumed.openFds, hconsumed.members hs.registry, rfl⟩
  | _ => exact hcall.elim

theorem CallEffect.keep (hs : ForkInv s) {call : ForkCall} (hcall : call.acquires = false)
    (hkeep : ∀ fd : ℕ, isOwned s.registry fd = true → ¬ call.Consumes r t s fd)
    (h : CallEffect r t s call ret s') :
    s'.registry.trace = s.registry.trace ∧
      ∀ fd, isOwned s'.registry fd = isOwned s.registry fd := by
  cases h with
  | acquired hacquires _ _ => exact Bool.noConfusion (hcall.symm.trans hacquires)
  | @consumed fd _ hadm hmem =>
    exact absurd ⟨hadm, rfl⟩ (hkeep fd ((hs.registry.bitmap.mem fd).mpr hmem))
  | @unleased dir fd hlease =>
    exact absurd hlease (hkeep fd ((hs.registry.bitmap.mem fd).mpr (hs.lease t _ hlease).2.2))
  | @prepared _ s₁ _ _ hs₁ =>
    rcases hs₁ with rfl | ⟨-, rfl⟩
    · exact ⟨rfl, fun _ => rfl⟩
    · exact ⟨rfl, fun _ => rfl⟩
  | _ => exact ⟨rfl, fun _ => rfl⟩

omit [DecidableEq ι] in
/-- The descriptors that the child of a fork with a valid prepare closes are the bits of the
bitmap. -/
theorem loggerForkFdChild_spec (hs : ForkInv s) (closing : ℕ → Answer)
    (hprepared : (s.threads t).prepared = true) (herror : (s.threads t).prepareError = 0)
    (hdepth : (s.threads t).forkDepth = 1) :
    (loggerForkFdChild closing t s).valid = true ∧
      (loggerForkFdChild closing t s).closed =
        drainWords s.registry.words (s.registry.ownedBytes / 8) := by
  obtain ⟨-, -, hfds, hbytes, -⟩ := hs.prepared t hprepared
  unfold loggerForkFdChild
  rw [if_pos ⟨hprepared, herror, hdepth⟩, hfds, hbytes]
  obtain ⟨hclosed, -, hvalid⟩ := childWords_spec closing
    { valid := true, error := 0, bitmap := s.registry.wordsAt s.registry.owned }
    (s.registry.ownedBytes / 8)
  exact ⟨hvalid, hclosed⟩

/-- The registry refines a finite set of descriptors, in every run of any number of threads with a
resource lock that works and a kernel that returns only descriptors that are not open. -/
theorem fork_registry_refines_set {host : Finset ℕ} {memory : ℕ → ℕ → BitVec 64}
    (h : Reachable forkNext KernelStep (forkStart ι host memory) s) : RefinesSet s := by
  have hs := forkInv_of_reachable h
  have hbitmap := hs.registry.bitmap
  constructor
  case members => exact hbitmap.isOwned_iff
  case count => exact hbitmap.count
  case storage =>
    intro hmunmap
    refine ⟨fun hnone => ?_, hs.registry.tidy hmunmap⟩
    -- without storage there is no bit, so the set is empty
    apply Finset.eq_empty_of_forall_notMem
    intro fd hfd
    obtain ⟨address, hsome⟩ := hbitmap.mapped hfd
    exact absurd (hnone.symm.trans hsome) nofun
  case poisoned => exact hbitmap.poisoned
  case closedOnce => exact hs.registry.kernel.trace
  case acquire =>
    intro t call r ret s' hcall hstep hok
    exact (forkCall_cases hs hok.1 hok.2.1 hok.2.2 hstep).acquire hs hcall
  case growth =>
    intro r fd hfd
    have hgrow := growFor_spec r hfd hbitmap.unmapped hbitmap.bytes
    refine ⟨hgrow.members, fun hok => ?_, hgrow.success, fun hne => (hgrow.failure hne).2.1,
      hgrow.bytes⟩
    by_contra hne
    exact Bool.noConfusion (hok.symm.trans (hgrow.failure hne).1)
  case foreign =>
    intro t call r ret s' fd hcall hfd hstep hok
    exact (forkCall_cases hs hok.1 hok.2.1 hok.2.2 hstep).foreignFd hs hcall hfd
  case consume =>
    intro t call r ret s' fd hcall hfd hstep hok
    exact (forkCall_cases hs hok.1 hok.2.1 hok.2.2 hstep).consume hs hcall hfd
  case keep =>
    intro t call r ret s' hcall hkeep hstep hok
    exact (forkCall_cases hs hok.1 hok.2.1 hok.2.2 hstep).keep hs hcall hkeep
  case child =>
    intro t closing hprepared herror hdepth
    obtain ⟨hvalid, hclosed⟩ := loggerForkFdChild_spec hs closing hprepared herror hdepth
    refine ⟨hvalid, ?_, fun fd => ?_⟩
    -- the drain lists each bit once, in order
    · rw [hclosed]
      exact (drainWords_sorted _ _).imp Nat.ne_of_lt
    -- the snapshot's bits are those of the set at the prepare
    · rw [hclosed, mem_drainWords, (hs.prepared t hprepared).2.2.2.2, ← hbitmap.mem,
        isOwned_natCast]
  case childInvalid =>
    intro t closing hinvalid
    by_cases hvalid : (s.threads t).prepared = true ∧ (s.threads t).prepareError = 0 ∧
        (s.threads t).forkDepth = 1
    · have htrue := (loggerForkFdChild_spec hs closing hvalid.1 hvalid.2.1 hvalid.2.2).1
      exact absurd (hinvalid.symm.trans htrue) Bool.false_ne_true
    · rw [loggerForkFdChild, if_neg hvalid]

end Calls

instance {ι : Type} [DecidableEq ι] (s : ForkDomain ι) (a : ForkAction ι) (s' : ForkDomain ι) :
    Decidable (KernelStep s a s') := by
  cases a <;> unfold KernelStep <;> infer_instance

/-- Two threads acquire the descriptors 3, 100 and 7, the second gives 7 up with a `close` that
reports an error, and the first forks. -/
def twoFds : List (ForkAction ℕ) :=
  [.call 0 .open { fd := 3 }, .call 1 .socket { fd := 100 }, .call 1 .openat { fd := 7 },
    .call 1 (.close 7) { closed := { ok := false } }, .call 0 .prepare {}]

theorem fork_registry_refines_set_two_fds :
    ∃ s, exec forkNext (forkStart ℕ {0, 1, 2} fun _ _ => 0) twoFds = some s ∧ RefinesSet s ∧
      ∀ fd, fd ∈ (loggerForkFdChild (fun _ => {}) 0 s).closed ↔ fd = 3 ∨ fd = 100 := by
  obtain ⟨s, hs⟩ : ∃ s, s = (exec forkNext (forkStart ℕ {0, 1, 2} fun _ _ => 0) twoFds).get rfl :=
    ⟨_, rfl⟩
  have hrun : exec forkNext (forkStart ℕ {0, 1, 2} fun _ _ => 0) twoFds = some s := by
    rw [hs]
    rfl
  have hreach : Reachable forkNext KernelStep (forkStart ℕ {0, 1, 2} fun _ _ => 0) s := by
    have hcheck : ∀ (s : ForkDomain ℕ) a s', decide (KernelStep s a s') = true →
        KernelStep s a s' := fun _ _ _ h => of_decide_eq_true h
    refine reachable_of_exec_filter hcheck (?_ : exec _ _ twoFds = some s)
    rw [hs]
    rfl
  have hset := fork_registry_refines_set hreach
  refine ⟨s, hrun, hset, fun fd => ?_⟩
  rw [((hset.child 0 fun _ => {}) (by rw [hs]; rfl) (by rw [hs]; rfl) (by rw [hs]; rfl)).2.2]
  have hprepare : s.atPrepare 0 = {3, 100} := by
    rw [hs]
    decide
  rw [hprepare]
  simp

end CLogger
