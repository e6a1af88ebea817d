import DryRun.Proofs.Heap.Objects
import DryRun.Proofs.Heap.Sound

/-!
# What a step does to the structs that are there

Whatever a step makes, it changes at most one of the sequences that are there, and what it puts into
a struct is either no struct or a copy, in which everything is new.

* `Heap.Extends a b` — no sequence has changed.
* `Heap.Changes target a b` — no sequence has changed but `target`.  Writing into a sequence is a
  change of this kind (`Changes.store`).
* `Heap.Changes.untouched` — nothing becomes of a struct if neither it nor one that is nested in it
  is the target.
* `Heap.Changes.disjoint` — two structs that have no nested struct in common will not get one.
-/

set_option autoImplicit false

namespace DryRun.Heap

/-- Whatever was made is still there, and no sequence that was there has changed. -/
structure Extends (a b : Heap) : Prop where
  /-- What was made is there. -/
  le : a.Le b
  /-- The sequences have the elements they had. -/
  elements : ∀ s, a.Has (.seq s) → b.elements s = a.elements s

/-- Whatever was made is still there, and of the sequences that were there at most one has
changed. -/
structure Changes (target : Option Sequence) (a b : Heap) : Prop where
  /-- What was made is there. -/
  le : a.Le b
  /-- The other sequences have the elements they had. -/
  same : ∀ s, a.Has (.seq s) → target ≠ some s → b.elements s = a.elements s
  /-- If a struct has got into one that was there, it is new with all that is nested in it. -/
  apart : ∀ i j, a.Has (.seq ⟨.struct, i⟩) → b.Nests i j →
    a.Nests i j ∨ ∀ k ∈ b.nest j, ¬ a.Has (.seq ⟨.struct, k⟩)

variable {a b c : Heap}

/-! ## Changes that spare all sequences -/

namespace Extends

theorem refl (a : Heap) : Extends a a := ⟨.refl a, fun _ _ => rfl⟩

theorem trans (h : Extends a b) (k : Extends b c) : Extends a c where
  le := h.le.trans k.le
  elements s made := (k.elements s (h.le _ made)).trans (h.elements s made)

theorem of_grows (h : Grows a b) : Extends a b := ⟨h.le, h.elements⟩

/-- What becomes of objects spares the sequences. -/
theorem of_objects (size : a.objects.size ≤ b.objects.size) (same : SameCollections a b) :
    Extends a b where
  le x made := by
    cases x with
    | prim p => trivial
    | seq s =>
      obtain ⟨kind, id⟩ := s
      cases kind with
      | array => rwa [Has, sequenceCount, same.arrays]
      | struct => rwa [Has, sequenceCount, same.structs]
    | map id => rwa [Has, same.maps]
    | handle h => exact Nat.lt_of_lt_of_le made size
  elements s _ := by
    obtain ⟨kind, id⟩ := s
    cases kind with
    | array => rw [Heap.elements, Heap.elements, same.arrays]
    | struct => rw [Heap.elements, Heap.elements, same.structs]

theorem changes (h : Extends a b) (target : Option Sequence) : Changes target a b where
  le := h.le
  same s made _ := h.elements s made
  apart i j made nested := by
    rw [Nests, h.elements _ made] at nested
    exact .inl nested

end Extends

namespace Changes

variable {target : Option Sequence}

/-- **Writing into a sequence.**  The heap may have grown before, and any struct that is new in the
sequence has to stand apart from all that was there. -/
theorem store {s : Sequence} {items : List Item} (grown : Grows a b) (made : a.Has (.seq s))
    (parts : ∀ j, .seq ⟨.struct, j⟩ ∈ items → .seq ⟨.struct, j⟩ ∈ a.elements s ∨
      ∀ k ∈ b.nest j, ¬ a.Has (.seq ⟨.struct, k⟩)) :
    Changes (some s) a (b.setElements s items) where
  le := grown.le.trans (b.le_setElements s items)
  same t there other := by
    rw [elements_setElements, if_neg fun both => other (congrArg some both.1.symm)]
    exact grown.elements t there
  apart i j there nested := by
    rw [Nests, elements_setElements] at nested
    split at nested
    · next same =>
      rcases parts j nested with old | new
      · exact .inl (by rwa [Nests, same.1])
      · -- nothing of what is new is the sequence that is written into
        have untouched : Untouched b (b.setElements s items) j := .of_elements fun k mem => by
          rw [elements_setElements, if_neg]
          rintro ⟨rfl, -⟩
          exact new k mem made
        exact .inr (untouched.nest ▸ new)
    · rw [grown.elements _ there] at nested
      exact .inl nested

/-! ## What is nested afterwards -/

variable (h : Changes target a b)
  (names : ∀ i, ∀ item ∈ a.elements ⟨.struct, i⟩, a.Has item)
include h names

/-- **Nothing becomes of a struct** if nothing is written into it or into one that is nested in
it. -/
theorem untouched {o : Nat} (made : a.Has (.seq ⟨.struct, o⟩))
    (spared : ∀ i ∈ a.nest o, target ≠ some ⟨.struct, i⟩) : Untouched a b o :=
  .of_elements fun i mem => h.same _ (has_of_mem_nest names made mem) (spared i mem)

/-- What is nested in a struct was nested in it before, or is new and has been put into one that
was. -/
theorem mem_nest {o x : Nat} (made : a.Has (.seq ⟨.struct, o⟩)) (mem : x ∈ b.nest o) :
    x ∈ a.nest o ∨
      ¬ a.Has (.seq ⟨.struct, x⟩) ∧ ∃ i ∈ a.nest o, target = some ⟨.struct, i⟩ := by
  -- behind the first struct that is new on the way, everything is new
  have way : x ∈ a.nest o ∨ ∃ j, x ∈ b.nest j ∧ (∀ k ∈ b.nest j, ¬ a.Has (.seq ⟨.struct, k⟩)) ∧
      ∃ i ∈ a.nest o, target = some ⟨.struct, i⟩ := by
    induction mem with
    | refl => exact .inl (a.self_mem_nest o)
    | @tail i j _ nested ih =>
      rcases ih with old | ⟨first, behind, new, source⟩
      · have there := has_of_mem_nest names made old
        rcases h.apart i j there nested with before | new
        · exact .inl (.tail old before)
        · refine .inr ⟨j, b.self_mem_nest j, new, i, old, ?_⟩
          by_contra other
          rw [Nests, h.same _ there other] at nested
          exact new j (b.self_mem_nest j) (names i _ nested)
      · exact .inr ⟨first, .tail behind nested, new, source⟩
  rcases way with old | ⟨j, behind, new, source⟩
  · exact .inl old
  · exact .inr ⟨new x behind, source⟩

/-- **Structs that have nothing in common** will not get a nested struct in common. -/
theorem disjoint {o o' : Nat} (made : a.Has (.seq ⟨.struct, o⟩))
    (made' : a.Has (.seq ⟨.struct, o'⟩)) (apart : Disjoint (a.nest o) (a.nest o')) :
    Disjoint (b.nest o) (b.nest o') := by
  rw [Set.disjoint_left] at apart ⊢
  intro x mem mem'
  rcases h.mem_nest names made mem with old | ⟨new, i, under, same⟩
  · rcases h.mem_nest names made' mem' with old' | ⟨new', -⟩
    · exact apart old old'
    · exact new' (has_of_mem_nest names made old)
  · rcases h.mem_nest names made' mem' with old' | ⟨-, i', under', same'⟩
    · exact new (has_of_mem_nest names made' old')
    · -- it can have been put into one struct only
      rw [same] at same'
      cases same'
      exact apart under under'

end Changes

end DryRun.Heap
