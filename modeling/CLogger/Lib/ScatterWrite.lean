import CLogger.Lib.TapeProgram

/-!
# Scatter-write loops

Loops that hand an array of entries to a kernel which takes a first part of what it is offered, and
go on with the rest until nothing is left, the kernel takes nothing, or it fails for good.

* `Loop`: what such loops differ in: the entries of the next call, and the variables after it.
* `Loop.run`: the loop over a log of its calls.
* `Loop.run_spec`: for a loop that keeps track of what is left (`Loop.Sound`), the calls emit an
  exact first part of the entries, and every call that is not repeated makes progress or is the
  last one.
-/

namespace ScatterWrite

open TapeProgram

variable {α β ε ω : Type}

/-- A call: the entries offered, the index of the first of them, and the result. -/
structure Call (α ε : Type) where
  first : ℕ
  offered : List (List α)
  result : Except ε ℕ

/-- What the kernel took. -/
def Call.taken (c : Call α ε) : List α :=
  match c.result with
  | .ok k => c.offered.flatten.take k
  | .error _ => []

/-- What the calls have emitted, in order. -/
def emitted (calls : List (Call α ε)) : List α := (calls.map Call.taken).flatten

theorem emitted_append (calls calls' : List (Call α ε)) :
    emitted (calls ++ calls') = emitted calls ++ emitted calls' := by
  rw [emitted, List.map_append, List.flatten_append]
  rfl

theorem emitted_snoc (calls : List (Call α ε)) (c : Call α ε) :
    emitted (calls ++ [c]) = emitted calls ++ c.taken := by
  rw [emitted_append]
  exact congrArg (emitted calls ++ ·) (List.append_nil _)

/-- How a loop ends: with nothing left, at a call that took nothing, or at an error. -/
inductive Exit (ε : Type) where
  | complete
  | stalled
  | failed (e : ε)

/-- The kernel: its answer to a call that offers a number of elements, and the errors after which
the call is made again. -/
structure Kernel (ω ε : Type) where
  respond : ω → ℕ → Except ε ℕ
  respond_le : ∀ {a n k}, respond a n = .ok k → k ≤ n
  again : ε → Bool

/-- What scatter-write loops differ in. -/
structure Loop (α β : Type) where
  /-- What an iteration does to the variables before its call. -/
  settle : β → β
  /-- The entries of the next call with the index of the first; none at the end of the loop. -/
  offer : β → Option (ℕ × List (List α))
  /-- The variables after a number of elements has been taken. -/
  advance : β → ℕ → β

/-- A write call, entered in the log. -/
def write (K : Kernel ω ε) (first : ℕ) (offered : List (List α)) :
    Prog (List (Call α ε)) ω (Except ε ℕ) :=
  Prog.ask fun calls a =>
    (K.respond a offered.flatten.length,
      calls ++ [⟨first, offered, K.respond a offered.flatten.length⟩])

/-- One iteration: a call and what the loop does with its result. -/
def Loop.body (L : Loop α β) (K : Kernel ω ε) (s : β × ℕ) :
    Prog (List (Call α ε)) ω (β × ℕ ⊕ Exit ε × ℕ) :=
  match L.offer (L.settle s.1) with
  | none => return .inr (.complete, s.2)
  | some (first, offered) => do
    match ← write K first offered with
    | .error e =>
      if K.again e then return .inl (L.settle s.1, s.2) else return .inr (.failed e, s.2)
    | .ok 0 => return .inr (.stalled, s.2)
    | .ok (k + 1) => return .inl (L.advance (L.settle s.1) (k + 1), s.2 + (k + 1))

/-- The loop: how it ends and the number of elements it counted. -/
def Loop.run (L : Loop α β) (K : Kernel ω ε) (b : β) :
    Prog (List (Call α ε)) ω (Exit ε × ℕ) := Prog.iterate (L.body K) (b, 0)

/-- The loop keeps track of the elements that are left, from all variables in `I`. -/
structure Loop.Sound (L : Loop α β) (I : β → Prop) (left : β → List α) : Prop where
  settle : ∀ {b}, I b → I (L.settle b) ∧ left (L.settle b) = left b
  done : ∀ {b}, I b → L.offer b = none → left b = []
  offered : ∀ {b first offered}, I b → L.offer b = some (first, offered) →
    offered.flatten <+: left b
  advance : ∀ {b first offered k}, I b → L.offer b = some (first, offered) →
    k ≤ offered.flatten.length → I (L.advance b k) ∧ left (L.advance b k) = (left b).drop k

/-- The call is made again, or has taken something. -/
def Call.Goes (K : Kernel ω ε) (c : Call α ε) : Prop :=
  (∃ e, c.result = .error e ∧ K.again e = true) ∨ c.taken ≠ []

/-- What holds of the log while the loop runs. -/
structure Running (K : Kernel ω ε) (P : ℕ → List (List α) → Prop) (all : List α)
    (calls : List (Call α ε)) : Prop where
  part : emitted calls <+: all
  offers : ∀ c ∈ calls, P c.first c.offered
  goes : ∀ c ∈ calls, c.Goes K

/-- What holds of the log when the loop has ended. Only the last call may have got nowhere. -/
structure Finished (L : Loop α β) (K : Kernel ω ε) (P : ℕ → List (List α) → Prop) (I : β → Prop)
    (left : β → List α) (all : List α) (r : Exit ε × ℕ) (calls : List (Call α ε)) : Prop where
  part : emitted calls <+: all
  offers : ∀ c ∈ calls, P c.first c.offered
  goes : ∃ before last, calls = before ++ last ∧ last.length ≤ 1 ∧ ∀ c ∈ before, c.Goes K
  written : r.2 = (emitted calls).length
  complete : r.1 = .complete → emitted calls = all
  /-- A loop that ends otherwise had something to offer. -/
  stopped : r.1 ≠ .complete →
    ∃ b, I b ∧ L.offer (L.settle b) ≠ none ∧ emitted calls ++ left b = all

section

variable {L : Loop α β} {K : Kernel ω ε} {I : β → Prop} {left : β → List α}
  {P : ℕ → List (List α) → Prop} {all : List α} {calls : List (Call α ε)}

/-- The loop is under way with the variables `s`. -/
structure Underway (K : Kernel ω ε) (P : ℕ → List (List α) → Prop) (I : β → Prop)
    (left : β → List α) (all : List α) (s : β × ℕ) (calls : List (Call α ε)) : Prop where
  inv : I s.1
  split : emitted calls ++ left s.1 = all
  written : s.2 = (emitted calls).length
  offers : ∀ c ∈ calls, P c.first c.offered
  goes : ∀ c ∈ calls, c.Goes K

theorem Underway.running {s : β × ℕ} (h : Underway K P I left all s calls) :
    Running K P all calls := ⟨⟨left s.1, h.split⟩, h.offers, h.goes⟩

theorem forall_mem_snoc {γ : Type} {p : γ → Prop} {l : List γ} {x : γ} (h : ∀ y ∈ l, p y)
    (hx : p x) : ∀ y ∈ l ++ [x], p y := by
  intro y hy
  rcases List.mem_append.mp hy with hy | hy
  · exact h y hy
  · rw [List.mem_singleton.mp hy]
    exact hx

/-- A call that takes nothing and is not made again is the last one. -/
theorem Underway.ended {s : β × ℕ} {c : Call α ε} (h : Underway K P I left all s calls)
    (hoffer : L.offer (L.settle s.1) = some (c.first, c.offered)) (hc : P c.first c.offered)
    (hnone : c.taken = []) {exit : Exit ε} (hexit : exit ≠ .complete) :
    Finished L K P I left all (exit, s.2) (calls ++ [c]) := by
  have hemitted : emitted (calls ++ [c]) = emitted calls := by
    rw [emitted_snoc, hnone, List.append_nil]
  refine ⟨?_, forall_mem_snoc h.offers hc, ⟨calls, [c], rfl, Nat.le_refl 1, h.goes⟩, ?_,
    fun hcomplete => absurd hcomplete hexit, fun _ => ⟨s.1, h.inv, ?_, ?_⟩⟩
  · rw [hemitted]
    exact ⟨left s.1, h.split⟩
  · rw [hemitted]
    exact h.written
  · rw [hoffer]
    exact nofun
  · rw [hemitted]
    exact h.split

/-- One iteration keeps the loop under way, or ends it. -/
theorem Loop.body_spec (hL : L.Sound I left)
    (hP : ∀ {b first offered}, I b → L.offer b = some (first, offered) → P first offered)
    {s : β × ℕ} (h : Underway K P I left all s calls) :
    wp (Running K P all) (L.body K s) (fun r calls' => r.elim
      (fun s' => Underway K P I left all s' calls') (fun e => Finished L K P I left all e calls'))
      calls := by
  obtain ⟨hinv, hleft⟩ := hL.settle h.inv
  have hsplit : emitted calls ++ left (L.settle s.1) = all := hleft ▸ h.split
  unfold Loop.body
  -- nothing left to offer: the loop ends and all has been emitted
  cases hoffer : L.offer (L.settle s.1) with
  | none =>
    refine wp_pure ⟨⟨left s.1, h.split⟩, h.offers, ⟨calls, [], (List.append_nil _).symm,
      Nat.zero_le 1, h.goes⟩, h.written, fun _ => ?_, fun hne => absurd rfl hne⟩
    rw [hL.done hinv hoffer, List.append_nil] at hsplit
    exact hsplit
  | some next =>
    obtain ⟨first, offered⟩ := next
    have hpart := hL.offered hinv hoffer
    refine wp_bind (wp_ask h.running fun a => ?_)
    -- an error, nothing taken, or a first part of what was offered
    cases hresult : K.respond a offered.flatten.length with
    | error e =>
      refine wp_ite (fun hagain => wp_pure ⟨hinv, ?_, ?_, ?_, ?_⟩) fun _ => wp_pure ?_
      · rw [emitted_snoc, show Call.taken ⟨first, offered, .error e⟩ = [] from rfl,
          List.append_nil]
        exact hsplit
      · rw [emitted_snoc, show Call.taken ⟨first, offered, .error e⟩ = [] from rfl,
          List.append_nil]
        exact h.written
      · exact forall_mem_snoc h.offers (hP hinv hoffer)
      · exact forall_mem_snoc h.goes (.inl ⟨e, rfl, hagain⟩)
      · exact h.ended hoffer (hP hinv hoffer) rfl nofun
    | ok k =>
      have hk := K.respond_le hresult
      cases k with
      | zero => exact wp_pure (h.ended hoffer (hP hinv hoffer) rfl nofun)
      | succ k =>
        obtain ⟨hinv', hleft'⟩ := hL.advance hinv hoffer hk
        -- the part taken is the beginning of what is left
        have htaken : offered.flatten.take (k + 1) = (left (L.settle s.1)).take (k + 1) := by
          obtain ⟨tail, htail⟩ := hpart
          rw [← htail, List.take_append_of_le_length hk]
        have hlength : (offered.flatten.take (k + 1)).length = k + 1 :=
          List.length_take_of_le hk
        refine wp_pure ⟨hinv', ?_, ?_, ?_, ?_⟩
        · rw [emitted_snoc, hleft']
          show (emitted calls ++ offered.flatten.take (k + 1)) ++ _ = all
          rw [htaken, List.append_assoc, List.take_append_drop]
          exact hsplit
        · rw [emitted_snoc, List.length_append, ← h.written]
          exact congrArg (s.2 + ·) hlength.symm
        · exact forall_mem_snoc h.offers (hP hinv hoffer)
        -- a part that is not empty goes on
        · refine forall_mem_snoc h.goes (.inr fun hnil => ?_)
          have hzero : (offered.flatten.take (k + 1)).length = 0 := by
            rw [show offered.flatten.take (k + 1) = [] from hnil]
            rfl
          omega

/-- A scatter-write loop that keeps track of what is left emits an exact first part of it. -/
theorem Loop.run_spec (hL : L.Sound I left)
    (hP : ∀ {b first offered}, I b → L.offer b = some (first, offered) → P first offered)
    {b : β} (hb : I b) :
    wp (Running K P (left b)) (L.run K b)
      (fun r calls => Finished L K P I left (left b) r calls) [] := by
  refine wp_iterate (fun s calls => Underway K P I left (left b) s calls)
    (fun s calls hs => hs.running) (fun s calls hs => Loop.body_spec hL hP hs) ?_
  exact ⟨hb, rfl, rfl, nofun, nofun⟩

/-- A loop whose calls all offer something has emitted everything only if it says so. -/
theorem Finished.complete_iff {r : Exit ε × ℕ} (h : Finished L K P I left all r calls)
    (hfull : ∀ b, I b → L.offer (L.settle b) ≠ none → left b ≠ []) :
    r.1 = .complete ↔ emitted calls = all := by
  refine ⟨h.complete, fun hall => ?_⟩
  by_contra hne
  obtain ⟨b, hb, hoffer, hsplit⟩ := h.stopped hne
  refine hfull b hb hoffer ?_
  rw [hall] at hsplit
  exact List.append_right_eq_self.mp hsplit

end

end ScatterWrite
