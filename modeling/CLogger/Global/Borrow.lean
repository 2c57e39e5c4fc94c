import CLogger.Global.Invariant
import CLogger.Lib.Ownership

/-!
# Who is responsible for a borrow flag

`default_borrowed` of an instance is set while the instance is bound, while a call is about to bind
it, and until the call that replaced it (or failed to bind it) has released all locks. At most one
of these holds the flag at any time, so the deferred clearing never takes a flag away from a newer
binding.
-/

namespace CLogger

open Ownership

variable {ι Λ : Type} {s s' : GlobalSys ι Λ}

/-- The current binding (`none`) or a thread in the middle of a call is responsible for the borrow
flag of `x`. -/
def GlobalSys.Holds (s : GlobalSys ι Λ) : Option ι → Λ → Prop
  | none, x => s.bound = some x
  | some i, x => (s.pc i).borrow = some x

/-- Flags that somebody is responsible for are set, by one party only, on live instances. -/
structure BorrowInv (s : GlobalSys ι Λ) : Prop where
  exclusive : Exclusive (fun x => ∃ o, s.Holds o x) s.Holds
  flag : ∀ o x, s.Holds o x → s.borrowed x = true
  alive : ∀ o x, s.Holds o x → s.alive x = true ∧ s.destroying x = false
  unflagged : ∀ i x, (s.pc i).unflagged = some x → s.borrowed x = false
  binding : ∀ i x, (s.pc i).binding = some x → s.alive x = true ∧ s.destroying x = false

theorem exclusive_of_unique {owns : Option ι → Λ → Prop}
    (h : ∀ x o o', owns o x → owns o' x → o = o') : Exclusive (fun x => ∃ o, owns o x) owns :=
  ⟨fun _ => Iff.rfl, h⟩

theorem GlobalPc.control_of_unflagged {pc : GlobalPc Λ} {x : Λ} (h : pc.unflagged = some x) :
    pc.control = true := by
  cases pc <;> first
    | rfl
    | cases h

/-- A step that gives nobody a new responsibility and changes no instance. -/
theorem BorrowInv.shrink (h : BorrowInv s) (hholds : ∀ o x, s'.Holds o x → s.Holds o x)
    (hflag : s'.borrowed = s.borrowed) (halive : s'.alive = s.alive)
    (hdestroying : s'.destroying = s.destroying)
    (hunflagged : ∀ i x, (s'.pc i).unflagged = some x → s.borrowed x = false)
    (hbinding : ∀ i x, (s'.pc i).binding = some x → s.alive x = true ∧ s.destroying x = false) :
    BorrowInv s' where
  exclusive := exclusive_of_unique fun x o o' ho ho' =>
    h.exclusive.unique x o o' (hholds o x ho) (hholds o' x ho')
  flag o x ho := by rw [hflag]; exact h.flag o x (hholds o x ho)
  alive o x ho := by rw [halive, hdestroying]; exact h.alive o x (hholds o x ho)
  unflagged i x hx := by rw [hflag]; exact hunflagged i x hx
  binding i x hx := by rw [halive, hdestroying]; exact hbinding i x hx

section Update

variable [DecidableEq ι]

/-- A move of one thread that gives it no new responsibility. -/
theorem BorrowInv.keep (h : BorrowInv s) {i : ι} {pc : GlobalPc Λ}
    (hpc : s'.pc = Function.update s.pc i pc) (hb : s'.bindings = s.bindings)
    (hflag : s'.borrowed = s.borrowed) (halive : s'.alive = s.alive)
    (hdestroying : s'.destroying = s.destroying)
    (hborrow : pc.borrow = (s.pc i).borrow ∨ pc.borrow = none)
    (hunflagged : ∀ x, pc.unflagged = some x →
      (s.pc i).unflagged = some x ∨ s.borrowed x = false)
    (hbinding : ∀ x, pc.binding = some x →
      (s.pc i).binding = some x ∨ (s.alive x = true ∧ s.destroying x = false)) : BorrowInv s' := by
  refine h.shrink ?_ hflag halive hdestroying ?_ ?_
  -- responsibility only ends
  · rintro (_ | j) x ho
    · rw [GlobalSys.Holds, GlobalSys.bound, hb] at ho
      exact ho
    · revert ho
      -- the threads that have not moved are responsible for what they were
      simp only [GlobalSys.Holds, hpc]
      refine forall_pc_update (P := fun j pc => pc.borrow = some x → (s.pc j).borrow = some x) ?_
        (fun _ _ ho => ho) j
      intro ho
      rcases hborrow with hsame | hnone
      · rw [← hsame]
        exact ho
      · rw [hnone] at ho
        cases ho
  · rw [hpc]
    refine forall_pc_update (P := fun _ pc => ∀ x, pc.unflagged = some x → s.borrowed x = false) ?_
      fun j _ => h.unflagged j
    intro x hx
    rcases hunflagged x hx with hold | hclear
    · exact h.unflagged i x hold
    · exact hclear
  · rw [hpc]
    refine forall_pc_update (P := fun _ pc => ∀ x, pc.binding = some x →
      s.alive x = true ∧ s.destroying x = false) ?_ fun j _ => h.binding j
    intro x hx
    rcases hbinding x hx with hold | hlive
    · exact h.binding i x hold
    · exact hlive

/-- Setting the flag of the replacement: nobody was responsible for it. -/
theorem BorrowInv.borrow (h : BorrowInv s) (hlock : LockInv s) [DecidableEq Λ] {i : ι}
    {c : SetCall Λ} {x : Λ} (hpc : s.pc i = .setBorrow c) (hx : c.replacement = some x)
    (s' : GlobalSys ι Λ) (hpc' : s'.pc = Function.update s.pc i (.setStore c))
    (hb : s'.bindings = s.bindings) (hflag : s'.borrowed = Function.update s.borrowed x true)
    (halive : s'.alive = s.alive) (hdestroying : s'.destroying = s.destroying) : BorrowInv s' := by
  -- the call holds the control mutex
  have hi : (s.pc i).control = true := by rw [hpc]; rfl
  have hclear : s.borrowed x = false := h.unflagged i x (by rw [hpc]; exact hx)
  -- nobody was responsible, since the flag was clear
  have hfree : ¬∃ o, s.Holds o x := by
    rintro ⟨o, ho⟩
    rw [h.flag o x ho] at hclear
    cases hclear
  have hholds : ∀ o y, s'.Holds o y ↔ (o = some i ∧ y = x) ∨ s.Holds o y := by
    -- the binding has not changed
    rintro (_ | j) y
    · simp [GlobalSys.Holds, GlobalSys.bound, hb]
    · simp only [GlobalSys.Holds, hpc', Option.some.injEq]
      by_cases hj : j = i
      · subst hj
        rw [Function.update_self, hpc]
        simp [GlobalPc.borrow, hx, eq_comm]
      · rw [Function.update_of_ne hj]
        simp [hj]
  -- the replacement is the one instance that is used now and was not before
  have hused : ∀ y, (∃ o, s'.Holds o y) ↔ y = x ∨ ∃ o, s.Holds o y := by
    intro y
    simp only [hholds, exists_or, exists_eq_left]
  constructor
  · exact h.exclusive.acquire (some i) x hfree hused hholds
  · intro o y ho
    rw [hflag]
    by_cases hy : y = x
    · rw [hy, Function.update_self]
    · rw [Function.update_of_ne hy]
      rcases (hholds o y).mp ho with ⟨-, rfl⟩ | ho
      · exact absurd rfl hy
      · exact h.flag o y ho
  · intro o y ho
    rw [halive, hdestroying]
    rcases (hholds o y).mp ho with ⟨-, rfl⟩ | ho
    · exact h.binding i y (by rw [hpc]; exact hx)
    · exact h.alive o y ho
  · rw [hpc']
    refine forall_pc_update (P := fun _ pc => ∀ y, pc.unflagged = some y → s'.borrowed y = false)
      (by rintro y ⟨⟩) ?_
    -- no other call is between its check and its store
    intro j hj y hy
    exact absurd (hlock.control_unique hi (GlobalPc.control_of_unflagged hy)) hj
  · rw [hpc', halive, hdestroying]
    refine forall_pc_update (P := fun _ pc => ∀ y, pc.binding = some y →
      s.alive y = true ∧ s.destroying y = false) ?_ fun j _ => h.binding j
    exact fun y hy => h.binding i y (by rw [hpc]; exact hy)

/-- Publishing: the binding becomes responsible for the replacement, and the call for the instance
it replaced. -/
theorem BorrowInv.commit (h : BorrowInv s) (hticket : TicketInv s) {i : ι} {c : SetCall Λ}
    (hpc : s.pc i = .setCommit c) (s' : GlobalSys ι Λ)
    (hpc' : s'.pc = Function.update s.pc i
      (.unlockLifetime ⟨true, true, c.expected, 0, .set c .committed⟩))
    (hb : s'.bindings = s.bindings ++ [c.replacement]) (hflag : s'.borrowed = s.borrowed)
    (halive : s'.alive = s.alive) (hdestroying : s'.destroying = s.destroying) : BorrowInv s' := by
  have hok : c.Updating s := by
    have hthread := hticket.thread i
    rwa [hpc] at hthread
  -- the binding and the call exchange their instances
  have hholds : ∀ o x, s'.Holds o x ↔ s.Holds (Equiv.swap none (some i) o) x := by
    rintro (_ | j) x
    · rw [Equiv.swap_apply_left, GlobalSys.Holds, GlobalSys.Holds, bound_append hb, hpc]
      rfl
    · by_cases hj : j = i
      · subst hj
        rw [Equiv.swap_apply_right, GlobalSys.Holds, GlobalSys.Holds, hok.bound, hpc',
          Function.update_self]
        rfl
      · rw [Equiv.swap_apply_of_ne_of_ne (Option.some_ne_none j)
            (fun heq => hj (Option.some.inj heq)), GlobalSys.Holds, GlobalSys.Holds, hpc',
            Function.update_of_ne hj]
  -- the set of instances in use is the same
  have hused : ∀ x, (∃ o, s'.Holds o x) ↔ ∃ o, s.Holds o x := by
    intro x
    constructor
    · rintro ⟨o, ho⟩
      exact ⟨_, (hholds o x).mp ho⟩
    · rintro ⟨o, ho⟩
      refine ⟨Equiv.swap none (some i) o, (hholds _ x).mpr ?_⟩
      rw [Equiv.swap_apply_self]
      exact ho
  refine ⟨h.exclusive.swap none (some i) hused hholds, ?_, ?_, ?_, ?_⟩
  · intro o x ho
    rw [hflag]
    exact h.flag _ x ((hholds o x).mp ho)
  · intro o x ho
    rw [halive, hdestroying]
    exact h.alive _ x ((hholds o x).mp ho)
  · rw [hpc', hflag]
    exact forall_pc_update (P := fun _ pc => ∀ x, pc.unflagged = some x → s.borrowed x = false)
      nofun fun j _ => h.unflagged j
  · rw [hpc', halive, hdestroying]
    exact forall_pc_update (P := fun _ pc => ∀ x, pc.binding = some x →
      s.alive x = true ∧ s.destroying x = false) nofun fun j _ => h.binding j

/-- Clearing a flag: nobody else was responsible for it. -/
theorem BorrowInv.clear (h : BorrowInv s) [DecidableEq Λ] {i : ι} {x : Λ} {pc : GlobalPc Λ}
    (hi : (s.pc i).borrow = some x) (hborrow : pc.borrow = none) (hunflagged : pc.unflagged = none)
    (hbinding : pc.binding = none) (s' : GlobalSys ι Λ) (hpc' : s'.pc = Function.update s.pc i pc)
    (hb : s'.bindings = s.bindings) (hflag : s'.borrowed = Function.update s.borrowed x false)
    (halive : s'.alive = s.alive) (hdestroying : s'.destroying = s.destroying) : BorrowInv s' := by
  have hholds : ∀ o y, s'.Holds o y ↔ y ≠ x ∧ s.Holds o y := by
    -- by exclusivity only this thread was responsible for it
    rintro (_ | j) y
    · simp only [GlobalSys.Holds, GlobalSys.bound, hb]
      refine ⟨fun hy => ⟨?_, hy⟩, fun hy => hy.2⟩
      rintro rfl
      cases h.exclusive.unique y none (some i) hy hi
    · simp only [GlobalSys.Holds, hpc']
      by_cases hj : j = i
      · subst hj
        rw [Function.update_self, hborrow, hi]
        simp [eq_comm]
      · rw [Function.update_of_ne hj]
        refine ⟨fun hy => ⟨?_, hy⟩, fun hy => hy.2⟩
        rintro rfl
        exact hj (Option.some.inj (h.exclusive.unique y (some j) (some i) hy hi))
  have hused : ∀ y, (∃ o, s'.Holds o y) ↔ y ≠ x ∧ ∃ o, s.Holds o y := by
    intro y
    -- one instance less is in use
    simp only [hholds, exists_and_left]
  refine ⟨h.exclusive.release x hused hholds, ?_, ?_, ?_, ?_⟩
  · intro o y ho
    obtain ⟨hne, hold⟩ := (hholds o y).mp ho
    rw [hflag, Function.update_of_ne hne]
    exact h.flag o y hold
  · intro o y ho
    rw [halive, hdestroying]
    exact h.alive o y ((hholds o y).mp ho).2
  -- flags are only cleared
  · have hclear : ∀ y, s.borrowed y = false → s'.borrowed y = false := by
      intro y hy
      rw [hflag]
      by_cases hyx : y = x
      · rw [hyx, Function.update_self]
      · rw [Function.update_of_ne hyx]
        exact hy
    rw [hpc']
    refine forall_pc_update (P := fun _ pc => ∀ y, pc.unflagged = some y → s'.borrowed y = false)
      ?_ fun j _ y hy => hclear y (h.unflagged j y hy)
    intro y hy
    rw [hunflagged] at hy
    cases hy
  · rw [hpc', halive, hdestroying]
    refine forall_pc_update (P := fun _ pc => ∀ y, pc.binding = some y →
      s.alive y = true ∧ s.destroying y = false) ?_ fun j _ => h.binding j
    intro y hy
    rw [hbinding] at hy
    cases hy

/-- Every step keeps `BorrowInv`. -/
theorem BorrowInv.step [DecidableEq Λ] (h : BorrowInv s) (hlock : LockInv s)
    (hticket : TicketInv s) (hstep : GlobalStep s s') : BorrowInv s' := by
  cases hstep with
  | call i pc hfrom hto =>
    -- only the call of a change brings an instance
    rcases hto with ⟨e, r, rfl, hbind⟩ | rfl
    · refine h.keep rfl rfl rfl rfl rfl (.inr rfl) nofun ?_
      intro x hx
      obtain rfl : r = some x := hx
      exact .inr hbind
    · exact h.keep rfl rfl rfl rfl rfl (.inr rfl) nofun nofun
  | move i pc₀ pc hpc hcontrol hread hwrite hwindow hupdating hunflagged hborrow hbinding =>
    subst hpc
    refine h.keep rfl rfl rfl rfl rfl hborrow hunflagged ?_
    intro x hx
    rcases hbinding with hsame | hnone
    · exact .inl (hsame ▸ hx)
    · rw [hnone] at hx
      cases hx
  | lock i c hpc hfree =>
    exact h.keep rfl rfl rfl rfl rfl (.inr rfl) nofun fun x hx => .inl (by rw [hpc]; exact hx)
  | close i c hpc hmax hsame =>
    exact h.keep rfl rfl rfl rfl rfl (.inr rfl) (fun x hx => .inl (by rw [hpc]; exact hx))
      fun x hx => .inl (by rw [hpc]; exact hx)
  | wrlock i c hpc hwriter hreaders =>
    exact h.keep rfl rfl rfl rfl rfl (.inr rfl) (fun x hx => .inl (by rw [hpc]; exact hx))
      fun x hx => .inl (by rw [hpc]; exact hx)
  | rollback i c err hpc hsame => exact h.keep rfl rfl rfl rfl rfl (.inr rfl) nofun nofun
  | borrow i c x hpc hx => exact h.borrow hlock hpc hx _ rfl rfl rfl rfl rfl
  | store i c hpc =>
    exact h.keep rfl rfl rfl rfl rfl (.inl (by rw [hpc]; rfl)) nofun
      fun x hx => .inl (by rw [hpc]; exact hx)
  | commit i c hpc hsame => exact h.commit hticket hpc _ rfl rfl rfl rfl rfl
  | restore i c hpc =>
    exact h.keep rfl rfl rfl rfl rfl (.inl (by rw [hpc]; rfl)) nofun
      fun x hx => .inl (by rw [hpc]; exact hx)
  | rdlock i t hpc hwriter => exact h.keep rfl rfl rfl rfl rfl (.inr rfl) nofun nofun
  | unlockLifetime i scope pc hpc hlocked hto =>
    rcases hto with rfl | ⟨err, -, rfl⟩
    · exact h.keep rfl rfl rfl rfl rfl (.inl (by rw [hpc]; rfl)) nofun nofun
    · exact h.keep rfl rfl rfl rfl rfl (.inr rfl) nofun nofun
  | unlockControl i scope pc hpc hlocked hto =>
    rcases hto with rfl | ⟨err, -, rfl⟩
    · exact h.keep rfl rfl rfl rfl rfl (.inl (by rw [hpc]; rfl)) nofun nofun
    · exact h.keep rfl rfl rfl rfl rfl (.inr rfl) nofun nofun
  | clear i scope x rc hpc hx hrc =>
    exact h.clear (i := i) (x := x) (by rw [hpc]; exact hx) rfl rfl rfl _ rfl rfl rfl rfl rfl
  | poisonError i scope err hpc => exact h.keep rfl rfl rfl rfl rfl (.inr rfl) nofun nofun
  | poisonTicket i scope err hpc => exact h.keep rfl rfl rfl rfl rfl (.inr rfl) nofun nofun
  | create x hdead =>
    -- Nobody is responsible for an instance that does not exist yet.
    have hne : ∀ o y, s.Holds o y → y ≠ x := by
      rintro o y ho rfl
      rw [(h.alive o y ho).1] at hdead
      cases hdead
    refine ⟨h.exclusive, fun o y ho => ?_, fun o y ho => ?_, fun i y hy => ?_, fun i y hy => ?_⟩
    · exact (Function.update_of_ne (hne o y ho) _ _).trans (h.flag o y ho)
    · exact ⟨(Function.update_of_ne (hne o y ho) _ _).trans (h.alive o y ho).1,
        (Function.update_of_ne (hne o y ho) _ _).trans (h.alive o y ho).2⟩
    · by_cases hyx : y = x
      · subst hyx
        exact Function.update_self _ _ _
      · exact (Function.update_of_ne hyx _ _).trans (h.unflagged i y hy)
    · by_cases hyx : y = x
      · subst hyx
        exact ⟨Function.update_self _ _ _, Function.update_self _ _ _⟩
      · exact ⟨(Function.update_of_ne hyx _ _).trans (h.binding i y hy).1,
          (Function.update_of_ne hyx _ _).trans (h.binding i y hy).2⟩
  | state x b => exact ⟨h.exclusive, h.flag, h.alive, h.unflagged, h.binding⟩
  | destroy x hflag hbinding =>
    -- an instance in use has its flag set, so it cannot be destroyed
    have hne : ∀ o y, s.Holds o y → y ≠ x := by
      rintro o y ho rfl
      rw [h.flag o y ho] at hflag
      cases hflag
    refine ⟨h.exclusive, h.flag, fun o y ho => ⟨(h.alive o y ho).1, ?_⟩, h.unflagged,
      fun i y hy => ⟨(h.binding i y hy).1, ?_⟩⟩
    · exact (Function.update_of_ne (hne o y ho) _ _).trans (h.alive o y ho).2
    · refine (Function.update_of_ne ?_ _ _).trans (h.binding i y hy).2
      rintro rfl
      exact hbinding i hy
  | dispose x hdestroying =>
    -- nor is an instance in use being disposed of
    have hne : ∀ y, s.alive y = true ∧ s.destroying y = false → y ≠ x := by
      rintro y hy rfl
      rw [hy.2] at hdestroying
      cases hdestroying
    refine ⟨h.exclusive, h.flag, fun o y ho => ?_, h.unflagged, fun i y hy => ?_⟩
    · exact ⟨(Function.update_of_ne (hne y (h.alive o y ho)) _ _).trans (h.alive o y ho).1,
        (h.alive o y ho).2⟩
    · exact ⟨(Function.update_of_ne (hne y (h.binding i y hy)) _ _).trans (h.binding i y hy).1,
        (h.binding i y hy).2⟩

end Update

end CLogger
