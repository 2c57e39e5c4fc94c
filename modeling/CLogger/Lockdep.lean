import CLogger.Lib.TransitionSystem
import Mathlib.Data.List.Nodup
import Mathlib.Data.List.Perm.Subperm
import Mathlib.Data.Fintype.Basic

/-!
# The lock-order checker

`logger_lockdep.c` keeps one stack of held locks per thread and compares a new lock with the top
of the stack only. The `__cleanup_lockdep_*` wrappers of `logger_cleanup.h` call it around the
pthread operations: a check before a blocking acquisition, a push after a successful one, and a pop
or an `abandon` after the unlock, whatever the unlock answered. A violation aborts the process, so
the runs considered here are those in which every check passes.

* `allowedAfter_rank`: the case table of `allowed_after` only ever climbs in `LockClass.rank`.
* `LockdepOk`: the invariant of one thread, kept by every operation of the checker.
* `lockdep_soundness`: the stacks are strictly ordered and no threads wait for each other in a
  cycle.
-/

namespace CLogger

/-- `enum logger_lock_class`. -/
inductive LockClass where
  | globalControl | globalLifetime | instanceEmit | instanceProgress | queueWait | console
  | runtimeFormat | runtimeResource
  deriving DecidableEq, Repr

/-- `struct logger_lockdep_entry`; a lock is its address, and `NULL` is `0`. -/
structure LockdepEntry where
  classId : LockClass
  lock : ℕ
  deriving DecidableEq, Repr

/-- `LOGGER_LOCKDEP_MAX_HELD`. -/
def lockdepMaxHeld : ℕ := 16

/-- `struct logger_lockdep_state`: the first `depth` entries of `held`, oldest first. -/
abbrev LockdepState := List LockdepEntry

/-- `is_instance`. -/
def isInstance (classId : LockClass) : Bool :=
  classId = .instanceEmit || classId = .instanceProgress || classId = .queueWait

/-- `allowed_after`. -/
def allowedAfter (held next : LockClass) : Bool :=
  if next = .runtimeResource then
    held = .globalControl || held = .globalLifetime || held = .instanceEmit ||
      held = .runtimeFormat
  else if next = .runtimeFormat then
    held = .globalControl || held = .globalLifetime || held = .instanceEmit || held = .console
  else if held = .globalControl then next = .globalLifetime || isInstance next
  else if held = .globalLifetime then isInstance next
  else false

/-- `logger_lockdep_check_acquire`; an error is the text of the violation that aborts. -/
def loggerLockdepCheckAcquire (state : LockdepState) (entry : LockdepEntry) :
    Except String Unit :=
  if entry.lock = 0 then .error "invalid acquire"
  else if state.any (fun held => held.lock = entry.lock) then .error "recursive/reacquire"
  else if (state.getLast?.any fun top => !allowedAfter top.classId entry.classId) then
    .error "forbidden lock order"
  else if state.length = lockdepMaxHeld then .error "held-lock stack overflow"
  else .ok ()

/-- `logger_lockdep_acquire`. -/
def loggerLockdepAcquire (state : LockdepState) (entry : LockdepEntry) :
    Except String LockdepState := do
  loggerLockdepCheckAcquire state entry
  return state ++ [entry]

/-- `logger_lockdep_check_release`. -/
def loggerLockdepCheckRelease (state : LockdepState) (entry : LockdepEntry) :
    Except String Unit :=
  match state.getLast? with
  | none => .error "release without acquire"
  | some top =>
    if top.classId ≠ entry.classId ∨ top.lock ≠ entry.lock then
      .error "non-LIFO/wrong-owner release"
    else .ok ()

/-- `logger_lockdep_release`. -/
def loggerLockdepRelease (state : LockdepState) (entry : LockdepEntry) :
    Except String LockdepState := do
  loggerLockdepCheckRelease state entry
  return state.dropLast

/-- `logger_lockdep_abandon`: the first matching entry goes, wherever it stands. -/
def loggerLockdepAbandon (state : LockdepState) (entry : LockdepEntry) : LockdepState :=
  state.eraseP fun held => held.classId = entry.classId && held.lock = entry.lock

section Wrappers

/-- One thread: its stack, and the checked acquisition it is blocked in. -/
structure LockdepThread where
  held : LockdepState := []
  blocked : Option LockdepEntry := none
  deriving DecidableEq, Repr

/-- What a thread does through the `__cleanup_lockdep_*` wrappers. The rwlock wrappers are the
mutex wrappers at class `globalLifetime`. `ok` says whether the pthread call returned 0. -/
inductive LockdepEvent where
  /-- `__cleanup_lockdep_mutex_lock` and `__cleanup_lockdep_rwlock_lock`: the check, and entering
  the blocking call. -/
  | lock (entry : LockdepEntry)
  /-- The blocking call returns. -/
  | lockReturned (ok : Bool)
  /-- `__cleanup_lockdep_mutex_trylock` and `__cleanup_lockdep_rwlock_trywrlock`. -/
  | trylock (entry : LockdepEntry) (ok : Bool)
  /-- `__cleanup_lockdep_mutex_unlock` and `__cleanup_lockdep_rwlock_unlock`. -/
  | unlock (entry : LockdepEntry) (ok : Bool)
  /-- `logger_lockdep_abandon` called for an entry anywhere on the stack. -/
  | abandon (entry : LockdepEntry)
  deriving DecidableEq, Repr

/-- One event of one thread. A violation aborts, which leaves no next state. -/
def LockdepThread.next (t : LockdepThread) : LockdepEvent → Except String LockdepThread
  | .lock entry =>
    if t.blocked.isSome then .error "blocked"
    else do
      loggerLockdepCheckAcquire t.held entry
      return { t with blocked := some entry }
  | .lockReturned ok =>
    match t.blocked with
    | none => .error "not blocked"
    | some entry =>
      if ok then do
        let held ← loggerLockdepAcquire t.held entry
        return { held }
      else return { held := t.held }
  | .trylock entry ok =>
    if t.blocked.isSome then .error "blocked"
    else if ok then do
      let held ← loggerLockdepAcquire t.held entry
      return { held }
    else return t
  | .unlock entry ok =>
    if t.blocked.isSome then .error "blocked"
    else do
      loggerLockdepCheckRelease t.held entry
      if ok then do
        let held ← loggerLockdepRelease t.held entry
        return { held }
      else return { held := loggerLockdepAbandon t.held entry }
  | .abandon entry =>
    if t.blocked.isSome then .error "blocked"
    else return { held := loggerLockdepAbandon t.held entry }

variable {ι : Type} [DecidableEq ι]

/-- The threads of the process; each owns its stack. -/
abbrev LockdepSys (ι : Type) := ι → LockdepThread

/-- Thread `a.1` performs event `a.2`. -/
def lockdepNext (s : LockdepSys ι) (a : ι × LockdepEvent) : Option (LockdepSys ι) :=
  ((s a.1).next a.2).toOption.map fun t => Function.update s a.1 t

end Wrappers

section Order

/-- The position of a class in the global order of locks. -/
def LockClass.rank : LockClass → ℕ
  | .globalControl => 0
  | .globalLifetime => 1
  | .instanceEmit | .instanceProgress | .queueWait | .console => 2
  | .runtimeFormat => 3
  | .runtimeResource => 4

theorem LockClass.rank_lt (c : LockClass) : c.rank < 5 := by
  cases c <;> decide

/-- Every pair the table allows climbs in rank. -/
theorem allowedAfter_rank {held next : LockClass} (h : allowedAfter held next = true) :
    held.rank < next.rank := by
  revert h
  cases held <;> cases next <;> decide

/-- The stack is strictly increasing in rank. -/
def Climbing (state : LockdepState) : Prop :=
  state.Pairwise fun below above => below.classId.rank < above.classId.rank

/-- No lock stands on the stack twice. -/
def Distinct (state : LockdepState) : Prop := (state.map LockdepEntry.lock).Nodup

/-- A strictly increasing stack is no longer than the number of ranks. -/
theorem Climbing.length_le {state : LockdepState} (h : Climbing state) : state.length ≤ 5 := by
  have hnodup : (state.map fun e => e.classId.rank).Nodup :=
    List.pairwise_map.mpr (h.imp Nat.ne_of_lt)
  have hsub : (state.map fun e => e.classId.rank) ⊆ List.range 5 := by
    intro r hr
    obtain ⟨e, -, rfl⟩ := List.mem_map.mp hr
    exact List.mem_range.mpr e.classId.rank_lt
  simpa using (List.Nodup.subperm hnodup hsub).length_le

/-- What may be pushed on a stack: a lock that is not there, above every entry. -/
def Fits (state : LockdepState) (entry : LockdepEntry) : Prop :=
  entry.lock ∉ state.map LockdepEntry.lock ∧
    ∀ held ∈ state, held.classId.rank < entry.classId.rank

/-- The checker compares the new lock with the top only; on an ordered stack this places it above
every entry. -/
theorem checkAcquire_fits {state : LockdepState} {entry : LockdepEntry} (horder : Climbing state)
    (h : loggerLockdepCheckAcquire state entry = .ok ()) : Fits state entry := by
  rw [loggerLockdepCheckAcquire] at h
  split_ifs at h with hnull hsame hrank hfull
  refine ⟨by simpa [List.mem_map] using hsame, fun held hheld => ?_⟩
  rcases List.eq_nil_or_concat state with rfl | ⟨below, top, rfl⟩
  · simp at hheld
  rw [List.concat_eq_append] at horder hheld hrank
  have htop : top.classId.rank < entry.classId.rank :=
    allowedAfter_rank (by simpa using hrank)
  rcases List.mem_append.mp hheld with hbelow | hlast
  · have hle := (List.pairwise_append.mp horder).2.2 held hbelow top (by simp)
    exact Nat.lt_trans hle htop
  · rw [List.mem_singleton] at hlast
    rwa [hlast]

/-- The state of one thread between events: an ordered stack without repetition, and a pending
acquisition that fits on it. -/
structure LockdepOk (t : LockdepThread) : Prop where
  climbing : Climbing t.held
  distinct : Distinct t.held
  fits : ∀ entry, t.blocked = some entry → Fits t.held entry

/-- A part of an ordered stack is ordered: this covers both `release` and an `abandon` in the
middle of the stack. -/
theorem LockdepOk.of_sublist {t : LockdepThread} {state : LockdepState} (h : LockdepOk t)
    (hsub : state.Sublist t.held) : LockdepOk { held := state } where
  climbing := h.climbing.sublist hsub
  distinct := h.distinct.sublist (hsub.map _)
  fits := nofun

/-- A computation that succeeds has succeeded in each of its steps. -/
theorem except_bind_eq_ok {ε α β : Type} {x : Except ε α} {f : α → Except ε β} {b : β}
    (h : x >>= f = .ok b) : ∃ a, x = .ok a ∧ f a = .ok b := by
  cases x with
  | error e => exact nomatch h
  | ok a => exact ⟨a, rfl, h⟩

/-- A successful acquisition keeps the stack ordered. -/
theorem LockdepOk.acquire {t : LockdepThread} {state : LockdepState} {entry : LockdepEntry}
    (h : LockdepOk t) (hacq : loggerLockdepAcquire t.held entry = .ok state) :
    LockdepOk { held := state } := by
  obtain ⟨⟨⟩, hcheck, hpush⟩ := except_bind_eq_ok hacq
  obtain rfl : t.held ++ [entry] = state := Except.ok.inj hpush
  obtain ⟨hnew, hrank⟩ := checkAcquire_fits h.climbing hcheck
  refine ⟨?_, ?_, nofun⟩
  · refine List.pairwise_append.mpr ⟨h.climbing, List.pairwise_singleton _ _, ?_⟩
    intro held hheld e he
    rw [List.mem_singleton.mp he]
    exact hrank held hheld
  · show ((t.held ++ [entry]).map LockdepEntry.lock).Nodup
    rw [List.map_append, List.nodup_append]
    refine ⟨h.distinct, List.nodup_singleton _, ?_⟩
    intro a ha b hb hab
    rw [List.map_singleton, List.mem_singleton] at hb
    exact hnew (hb ▸ hab ▸ ha)

/-- Every event of a thread keeps its invariant. -/
theorem LockdepOk.next {t t' : LockdepThread} {event : LockdepEvent} (h : LockdepOk t)
    (hstep : t.next event = .ok t') : LockdepOk t' := by
  cases event with
  | lock entry =>
    simp only [LockdepThread.next] at hstep
    -- a check that passed says that the entry fits above all that is held
    split_ifs at hstep
    obtain ⟨⟨⟩, hcheck, hret⟩ := except_bind_eq_ok hstep
    obtain rfl := Except.ok.inj hret
    refine ⟨h.climbing, h.distinct, fun e he => ?_⟩
    exact Option.some.inj he ▸ checkAcquire_fits h.climbing hcheck
  | lockReturned ok =>
    simp only [LockdepThread.next] at hstep
    -- a thread that was not blocked has no lock to return
    split at hstep
    · exact nomatch hstep
    split_ifs at hstep
    · obtain ⟨held, hacq, hret⟩ := except_bind_eq_ok hstep
      obtain rfl := Except.ok.inj hret
      -- acquiring makes the check again before it pushes the entry
      exact h.acquire hacq
    · obtain rfl := Except.ok.inj hstep
      exact h.of_sublist (List.Sublist.refl _)
  | trylock entry ok =>
    simp only [LockdepThread.next] at hstep
    split_ifs at hstep
    · obtain ⟨held, hacq, hret⟩ := except_bind_eq_ok hstep
      obtain rfl := Except.ok.inj hret
      exact h.acquire hacq
    · obtain rfl := Except.ok.inj hstep
      exact h
  | unlock entry ok =>
    simp only [LockdepThread.next] at hstep
    split_ifs at hstep
    · obtain ⟨-, -, hrest⟩ := except_bind_eq_ok hstep
      obtain ⟨held, hrel, hret⟩ := except_bind_eq_ok hrest
      obtain ⟨-, -, hpop⟩ := except_bind_eq_ok hrel
      obtain rfl := Except.ok.inj hret
      obtain rfl := Except.ok.inj hpop
      -- a release takes the last entry away
      exact h.of_sublist (List.dropLast_sublist _)
    · obtain ⟨-, -, hret⟩ := except_bind_eq_ok hstep
      obtain rfl := Except.ok.inj hret
      -- an abandoned entry may stand anywhere in the list
      exact h.of_sublist List.eraseP_sublist
  | abandon entry =>
    simp only [LockdepThread.next] at hstep
    split_ifs at hstep
    obtain rfl := Except.ok.inj hstep
    exact h.of_sublist List.eraseP_sublist

end Order

section Soundness

variable {ι : Type} {s s' : LockdepSys ι}

/-- Thread `t` is blocked in a checked acquisition of a lock that stands on the stack of `u`. -/
def WaitsFor (s : LockdepSys ι) (t u : ι) : Prop :=
  ∃ entry, (s t).blocked = some entry ∧ ∃ held ∈ (s u).held, held.lock = entry.lock

/-- The entries a thread uses: those on its stack and the one it waits for. -/
def LockdepThread.uses (t : LockdepThread) : List LockdepEntry := t.held ++ t.blocked.toList

/-- Every lock is used under one class, as every guard of the logger fixes its class. The checker
keeps no class of a lock from one acquisition to the next, so it does not see a lock that is used
under two. -/
def OneClass (s : LockdepSys ι) : Prop :=
  ∀ t u, ∀ e ∈ (s t).uses, ∀ f ∈ (s u).uses, e.lock = f.lock → e.classId = f.classId

instance [Fintype ι] : Decidable (OneClass s) := by
  unfold OneClass
  infer_instance

/-- What the checker guarantees of the threads. -/
structure LockdepSoundness (s : LockdepSys ι) : Prop where
  climbing : ∀ t, Climbing (s t).held
  distinct : ∀ t, Distinct (s t).held
  depth : ∀ t, (s t).held.length < lockdepMaxHeld
  /-- No thread waits, through any number of threads, for itself. -/
  noCycle : OneClass s → ∀ t, ¬ Relation.TransGen (WaitsFor s) t t

theorem LockdepOk.initial : LockdepOk {} := ⟨.nil, .nil, nofun⟩

theorem lockdepNext_lockdepOk [DecidableEq ι] {a : ι × LockdepEvent} (h : ∀ t, LockdepOk (s t))
    (hstep : lockdepNext s a = some s') (t : ι) : LockdepOk (s' t) := by
  obtain ⟨th, hth, rfl⟩ := Option.map_eq_some_iff.mp hstep
  cases hnext : (s a.1).next a.2 with
  | error e =>
    rw [hnext] at hth
    exact nomatch hth
  | ok th' =>
    obtain rfl : th' = th := by
      rw [hnext] at hth
      exact Option.some.inj hth
    by_cases ht : t = a.1
    · rw [ht, Function.update_self]
      exact (h a.1).next hnext
    · rw [Function.update_of_ne ht]
      exact h t

/-- A thread that waits for a waiting thread waits for a lock of smaller rank. -/
theorem rank_lt_of_waitsFor (h : ∀ t, LockdepOk (s t)) (hclass : OneClass s) {t u : ι}
    {et eu : LockdepEntry} (ht : (s t).blocked = some et) (hu : (s u).blocked = some eu)
    (hwait : WaitsFor s t u) : et.classId.rank < eu.classId.rank := by
  obtain ⟨entry, hentry, held, hheld, hlock⟩ := hwait
  obtain rfl : entry = et := Option.some.inj (hentry.symm.trans ht)
  have hsame : held.classId = entry.classId :=
    hclass u t held (by simp [LockdepThread.uses, hheld])
      entry (by simp [LockdepThread.uses, ht]) hlock
  rw [← hsame]
  exact ((h u).fits eu hu).2 held hheld

/-- Along a chain of waiting threads the rank of the awaited lock grows. -/
theorem rank_lt_of_chain (h : ∀ t, LockdepOk (s t)) (hclass : OneClass s) {t u : ι}
    {et eu : LockdepEntry} (ht : (s t).blocked = some et) (hu : (s u).blocked = some eu)
    (hchain : Relation.TransGen (WaitsFor s) t u) : et.classId.rank < eu.classId.rank := by
  induction hchain generalizing eu with
  | single hwait => exact rank_lt_of_waitsFor h hclass ht hu hwait
  | tail _ hwait ih =>
    obtain ⟨em, hm, -⟩ := id hwait
    exact Nat.lt_trans (ih hm) (rank_lt_of_waitsFor h hclass hm hu hwait)

theorem not_waitsFor_cycle (h : ∀ t, LockdepOk (s t)) (hclass : OneClass s) (t : ι) :
    ¬ Relation.TransGen (WaitsFor s) t t := by
  intro hcycle
  obtain ⟨u, ⟨entry, hentry, -⟩, -⟩ := Relation.TransGen.head'_iff.mp hcycle
  exact Nat.lt_irrefl _ (rank_lt_of_chain h hclass hentry hentry hcycle)

/-- For any number of threads and any sequence of acquisitions, releases and failed unlocks the
checker accepts: every stack strictly climbs in rank and holds no lock twice, its depth stays
below the array, and no threads are blocked in a cycle as long as every lock is used under one
class. -/
theorem lockdep_soundness [DecidableEq ι]
    (h : TransitionSystem.Reachable lockdepNext TransitionSystem.anyStep (fun _ => {}) s) :
    LockdepSoundness s := by
  have hthreads : ∀ t, LockdepOk (s t) := by
    refine TransitionSystem.Reachable.invariant (I := fun s : LockdepSys ι => ∀ t, LockdepOk (s t))
      (fun _ => LockdepOk.initial) ?_ h
    intro s a s' _ hs hstep _
    exact lockdepNext_lockdepOk hs hstep
  refine ⟨fun t => (hthreads t).climbing, fun t => (hthreads t).distinct, fun t => ?_,
    not_waitsFor_cycle hthreads⟩
  exact Nat.lt_of_le_of_lt (hthreads t).climbing.length_le (by decide)

/-- Thread `false` abandons its emit lock below the resource lock, and thread `true` then blocks on
that resource lock. -/
def lockdepRun : List (Bool × LockdepEvent) :=
  [(false, .lock ⟨.globalControl, 1⟩), (false, .lockReturned true),
   (false, .trylock ⟨.instanceEmit, 2⟩ true), (false, .lock ⟨.runtimeResource, 3⟩),
   (false, .lockReturned true), (true, .lock ⟨.globalLifetime, 4⟩), (true, .lockReturned true),
   (false, .abandon ⟨.instanceEmit, 2⟩), (true, .lock ⟨.runtimeResource, 3⟩)]

/-- The state `lockdepRun` leads to. -/
def lockdepBlocked : LockdepSys Bool
  | false => { held := [⟨.globalControl, 1⟩, ⟨.runtimeResource, 3⟩] }
  | true => { held := [⟨.globalLifetime, 4⟩], blocked := some ⟨.runtimeResource, 3⟩ }

theorem lockdep_soundness_blocked :
    TransitionSystem.exec lockdepNext (fun _ => {}) lockdepRun = some lockdepBlocked ∧
      WaitsFor lockdepBlocked true false ∧ OneClass lockdepBlocked ∧
      LockdepSoundness lockdepBlocked := by
  have hrun : TransitionSystem.exec lockdepNext (fun _ => {}) lockdepRun =
      some lockdepBlocked := by decide
  refine ⟨hrun, ⟨⟨.runtimeResource, 3⟩, rfl, ⟨.runtimeResource, 3⟩, by decide, rfl⟩, by decide, ?_⟩
  exact lockdep_soundness
    (TransitionSystem.reachable_of_exec (fun _ _ _ _ => trivial) hrun)

/-- Two threads that use the locks 1 and 2 in opposite orders, each lock under the class of its
place in that order. -/
def twoClassesRun : List (Bool × LockdepEvent) :=
  [(false, .lock ⟨.globalControl, 1⟩), (false, .lockReturned true),
   (true, .lock ⟨.globalControl, 2⟩), (true, .lockReturned true),
   (false, .lock ⟨.instanceEmit, 2⟩), (true, .lock ⟨.instanceEmit, 1⟩)]

/-- The state `twoClassesRun` leads to. -/
def twoClassesDeadlock : LockdepSys Bool
  | false => { held := [⟨.globalControl, 1⟩], blocked := some ⟨.instanceEmit, 2⟩ }
  | true => { held := [⟨.globalControl, 2⟩], blocked := some ⟨.instanceEmit, 1⟩ }

/-- The checker accepts a run in which two threads wait for each other, when each lock is used under
two classes. -/
theorem lockdep_twoClasses_cycle :
    TransitionSystem.Reachable lockdepNext TransitionSystem.anyStep (fun _ => {})
        twoClassesDeadlock ∧
      ¬ OneClass twoClassesDeadlock ∧
      Relation.TransGen (WaitsFor twoClassesDeadlock) false false := by
  have hrun : TransitionSystem.exec lockdepNext (fun _ => {}) twoClassesRun =
      some twoClassesDeadlock := by decide
  have hforth : WaitsFor twoClassesDeadlock false true :=
    ⟨⟨.instanceEmit, 2⟩, rfl, ⟨.globalControl, 2⟩, by decide, rfl⟩
  have hback : WaitsFor twoClassesDeadlock true false :=
    ⟨⟨.instanceEmit, 1⟩, rfl, ⟨.globalControl, 1⟩, by decide, rfl⟩
  exact ⟨TransitionSystem.reachable_of_exec (fun _ _ _ _ => trivial) hrun, by decide,
    .tail (.single hforth) hback⟩

end Soundness

end CLogger
