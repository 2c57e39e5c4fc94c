import Mathlib.Data.Nat.Notation
import Mathlib.Data.List.Induction
import Mathlib.Data.List.Nodup
import Mathlib.Logic.Function.Basic
import Mathlib.Tactic.Common

/-!
# Doubly linked lists

Nodes with two links in a memory in which not every address is mapped. An access to an unmapped
address has no result, so that an operation that has one has not touched such an address.

* `Linked m head xs`: from `head` the nodes are those at `xs`, each with its two neighbours.
* `pushFront` and `unlink`: the link operations on a node, at the head and anywhere.
* `pushFront_linked`, `unlink_linked`: they do not fail on a well-formed list, and change it as they
  should.
-/

namespace DoublyLinked

/-- A node with its links and what else it holds. -/
structure Node (δ : Type*) where
  prev : Option ℕ
  next : Option ℕ
  data : δ

/-- A memory of nodes; an address without one is not mapped. -/
abbrev Memory (δ : Type*) : Type _ := ℕ → Option (Node δ)

variable {δ : Type*}

/-- The assignment `a->prev = prev`. -/
def setPrev (m : Memory δ) (a : ℕ) (prev : Option ℕ) : Option (Memory δ) :=
  (m a).map fun node => Function.update m a (some { node with prev := prev })

/-- The assignment `a->next = next`. -/
def setNext (m : Memory δ) (a : ℕ) (next : Option ℕ) : Option (Memory δ) :=
  (m a).map fun node => Function.update m a (some { node with next := next })

/-- `a->prev = prev` if there is a node `a`. -/
def setPrevIf (m : Memory δ) (a prev : Option ℕ) : Option (Memory δ) :=
  match a with
  | none => some m
  | some a => setPrev m a prev

/-- `a->next = next` if there is a node `a`. -/
def setNextIf (m : Memory δ) (a next : Option ℕ) : Option (Memory δ) :=
  match a with
  | none => some m
  | some a => setNext m a next

/-- Link the node `a` in front of `head`. -/
def pushFront (m : Memory δ) (head : Option ℕ) (a : ℕ) : Option (Memory δ) :=
  (setPrev m a none).bind fun m =>
    (setNext m a head).bind fun m => setPrevIf m head (some a)

/-- Link the neighbours of a node to each other; the result has the new head. -/
def unlink (m : Memory δ) (head prev next : Option ℕ) : Option (Memory δ × Option ℕ) :=
  (setNextIf m prev next).bind fun m =>
    (setPrevIf m next prev).map fun m => (m, if prev.isSome then head else next)

/-- The nodes at `xs` are linked in this order, between `prev` and `next`. -/
def Segment (m : Memory δ) : Option ℕ → List ℕ → Option ℕ → Prop
  | _, [], _ => True
  | prev, x :: xs, next => (∃ data, m x = some ⟨prev, xs.head?.or next, data⟩) ∧
      Segment m (some x) xs next

/-- The list from `head` is well formed and consists of the nodes at `xs`. -/
structure Linked (m : Memory δ) (head : Option ℕ) (xs : List ℕ) : Prop where
  head : head = xs.head?
  nodup : xs.Nodup
  segment : Segment m none xs none

/-- What a change of links keeps: which addresses are mapped, and what the nodes hold. -/
def SameData (m m' : Memory δ) : Prop := ∀ x, (m' x).map Node.data = (m x).map Node.data

theorem SameData.isSome {m m' : Memory δ} (h : SameData m m') (x : ℕ) :
    (m' x).isSome = (m x).isSome := by
  have hx := congrArg Option.isSome (h x)
  rwa [Option.isSome_map, Option.isSome_map] at hx

theorem SameData.trans {m m' m'' : Memory δ} (h : SameData m m') (h' : SameData m' m'') :
    SameData m m'' := fun x => (h' x).trans (h x)

variable {m m' : Memory δ} {prev next : Option ℕ} {xs ys : List ℕ}

/-- A segment depends on its own nodes only. -/
theorem Segment.congr (h : Segment m prev xs next) (hsame : ∀ x ∈ xs, m' x = m x) :
    Segment m' prev xs next := by
  induction xs generalizing prev with
  | nil => trivial
  | cons x xs ih =>
    obtain ⟨⟨data, hx⟩, hrest⟩ := h
    refine ⟨⟨data, ?_⟩, ih hrest fun y hy => hsame y (List.mem_cons_of_mem x hy)⟩
    rw [hsame x List.mem_cons_self, hx]

/-- A segment in two parts, each the neighbour of the other. -/
theorem segment_append : Segment m prev (xs ++ ys) next ↔
    Segment m prev xs (ys.head?.or next) ∧ Segment m (xs.getLast?.or prev) ys next := by
  induction xs generalizing prev with
  | nil => simp [Segment]
  | cons x xs ih =>
    have hlast : (x :: xs).getLast?.or prev = xs.getLast?.or (some x) := by
      rw [List.getLast?_cons]
      cases xs.getLast? with
      | none => rfl
      | some l => rfl
    have hnext : (xs ++ ys).head?.or next = xs.head?.or (ys.head?.or next) := by
      rw [List.head?_append, Option.or_assoc]
    rw [List.cons_append, Segment, Segment, ih, hlast, hnext, and_assoc]

theorem Segment.mapped (h : Segment m prev xs next) {x : ℕ} (hx : x ∈ xs) : (m x).isSome := by
  induction xs generalizing prev with
  | nil => exact absurd hx List.not_mem_nil
  | cons y ys ih =>
    obtain ⟨⟨data, hy⟩, hrest⟩ := h
    rcases List.mem_cons.mp hx with rfl | hx
    · rw [hy]
      rfl
    · exact ih hrest hx

/-- Assigning the link behind the last node of a segment, if it has nodes. -/
theorem setNextIf_last (h : Segment m prev xs next) (hnodup : xs.Nodup) (next' : Option ℕ) :
    ∃ m', setNextIf m xs.getLast? next' = some m' ∧ Segment m' prev xs next' ∧
      (∀ x ∉ xs, m' x = m x) ∧ SameData m m' := by
  cases xs using List.reverseRecOn with
  | nil => exact ⟨m, rfl, trivial, fun _ _ => rfl, fun _ => rfl⟩
  | append_singleton xs l =>
    obtain ⟨hxs, ⟨data, hl⟩, -⟩ := segment_append.mp h
    rw [List.getLast?_concat, setNextIf, setNext, hl, Option.map_some]
    refine ⟨_, rfl, segment_append.mpr ⟨?_, ⟨data, Function.update_self _ _ _⟩, trivial⟩, ?_, ?_⟩
    · -- the nodes before the last one are not assigned to
      refine Segment.congr hxs fun x hx => Function.update_of_ne ?_ _ _
      rintro rfl
      exact List.disjoint_of_nodup_append hnodup hx (List.mem_singleton_self x)
    · intro x hx
      exact Function.update_of_ne (fun heq => hx (by simp [heq])) _ _
    · intro x
      by_cases hxl : x = l
      · rw [hxl, Function.update_self, hl]
        rfl
      · rw [Function.update_of_ne hxl]

/-- Assigning the link in front of the first node of a segment, if it has nodes. -/
theorem setPrevIf_head (h : Segment m prev xs next) (hnodup : xs.Nodup) (prev' : Option ℕ) :
    ∃ m', setPrevIf m xs.head? prev' = some m' ∧ Segment m' prev' xs next ∧
      (∀ x ∉ xs, m' x = m x) ∧ SameData m m' := by
  cases xs with
  | nil => exact ⟨m, rfl, trivial, fun _ _ => rfl, fun _ => rfl⟩
  | cons f xs =>
    obtain ⟨⟨data, hf⟩, hxs⟩ := h
    rw [List.head?_cons, setPrevIf, setPrev, hf, Option.map_some]
    refine ⟨_, rfl, ⟨⟨data, Function.update_self _ _ _⟩, ?_⟩, ?_, ?_⟩
    · refine Segment.congr hxs fun x hx => Function.update_of_ne ?_ _ _
      rintro rfl
      exact (List.nodup_cons.mp hnodup).1 hx
    · intro x hx
      exact Function.update_of_ne (fun heq => hx (by simp [heq])) _ _
    · intro x
      by_cases hxf : x = f
      · rw [hxf, Function.update_self, hf]
        rfl
      · rw [Function.update_of_ne hxf]

/-- Linking a mapped node that is not in the list makes it the first one. -/
theorem pushFront_linked {head : Option ℕ} {a : ℕ} (h : Linked m head xs) (ha : a ∉ xs)
    (hmapped : (m a).isSome) :
    ∃ m', pushFront m head a = some m' ∧ Linked m' (some a) (a :: xs) ∧ SameData m m' := by
  obtain ⟨node, hnode⟩ := Option.isSome_iff_exists.mp hmapped
  -- the two assignments to the new node
  let m₁ : Memory δ := Function.update m a (some ⟨none, head, node.data⟩)
  have hlinks : (setPrev m a none).bind (fun m => setNext m a head) = some m₁ := by
    simp [setPrev, setNext, hnode, m₁]
  have hsegment : Segment m₁ none xs none := by
    refine h.segment.congr fun x hx => Function.update_of_ne ?_ _ _
    rintro rfl
    exact ha hx
  obtain ⟨m₂, hprev, hsegment₂, hother, hdata⟩ := setPrevIf_head hsegment h.nodup (some a)
  refine ⟨m₂, ?_, ⟨rfl, List.nodup_cons.mpr ⟨ha, h.nodup⟩, ⟨⟨node.data, ?_⟩, hsegment₂⟩⟩, ?_⟩
  · rw [← h.head] at hprev
    rw [pushFront, ← hprev, ← Option.bind_assoc, hlinks, Option.bind_some]
  · rw [hother a ha, Option.or_none, ← h.head]
    exact Function.update_self _ _ _
  · refine SameData.trans (fun x => ?_) hdata
    by_cases hxa : x = a
    · rw [hxa, hnode, show m₁ a = some ⟨none, head, node.data⟩ from Function.update_self _ _ _]
      rfl
    · exact congrArg (Option.map Node.data) (Function.update_of_ne hxa _ _)

/-- The links of a node in a list are those of its place in it. -/
theorem Linked.links {head : Option ℕ} {a : ℕ} (h : Linked m head (xs ++ a :: ys)) :
    ∃ data, m a = some ⟨xs.getLast?, ys.head?, data⟩ := by
  obtain ⟨-, ⟨data, ha⟩, -⟩ := segment_append.mp h.segment
  exact ⟨data, by simpa using ha⟩

/-- Once a node is no longer mapped, linking its former neighbours to each other takes it out of
the list. -/
theorem unlink_linked {head : Option ℕ} {a : ℕ} (h : Linked m head (xs ++ a :: ys)) :
    ∃ m' head', unlink (Function.update m a none) head xs.getLast? ys.head? = some (m', head') ∧
      Linked m' head' (xs ++ ys) ∧ SameData (Function.update m a none) m' := by
  have hnodup := h.nodup
  rw [List.nodup_append'] at hnodup
  obtain ⟨hxs, hays, hdisjoint⟩ := hnodup
  obtain ⟨ha, hys⟩ := List.nodup_cons.mp hays
  obtain ⟨hsegxs, -, hsegys⟩ := segment_append.mp h.segment
  have haxs : a ∉ xs := fun hmem => hdisjoint hmem List.mem_cons_self
  have hgone : ∀ {zs : List ℕ}, a ∉ zs → ∀ x ∈ zs, Function.update m a none x = m x := by
    intro zs hzs x hx
    refine Function.update_of_ne ?_ _ _
    rintro rfl
    exact hzs hx
  -- the nodes before `a` get what follows it, those behind it what precedes it
  obtain ⟨m₁, hnext, hseg₁, hother₁, hdata₁⟩ :=
    setNextIf_last (hsegxs.congr (hgone haxs)) hxs ys.head?
  have hapart : ∀ x ∈ ys, x ∉ xs := fun x hx hmem => hdisjoint hmem (List.mem_cons_of_mem a hx)
  have hseg : Segment m₁ (some a) ys none := by
    refine Segment.congr (hsegys.congr (hgone ha)) fun x hx => hother₁ x (hapart x hx)
  obtain ⟨m₂, hprev, hseg₂, hother₂, hdata₂⟩ := setPrevIf_head hseg hys xs.getLast?
  refine ⟨m₂, if xs.getLast?.isSome then head else ys.head?, ?_,
    ⟨?_, ?_, segment_append.mpr ⟨?_, ?_⟩⟩, hdata₁.trans hdata₂⟩
  · rw [unlink, hnext, Option.bind_some, hprev, Option.map_some]
  · rw [h.head]
    cases xs with
    | nil => rfl
    | cons x xs => simp
  · exact List.nodup_append'.mpr ⟨hxs, hys, fun x hx hy => hapart x hy hx⟩
  · rw [Option.or_none]
    exact hseg₁.congr fun x hx => hother₂ x fun hy => hapart x hy hx
  · rw [Option.or_none]
    exact hseg₂

end DoublyLinked
