import DryRun.Proofs.Heap.Growth
import Mathlib.Data.List.Perm.Subperm
import Mathlib.Data.Set.Lattice
import Mathlib.Logic.Relation
import Mathlib.Order.CompletePartialOrder

/-!
# How structs are nested

A struct has another one nested in it if it has it among its elements.  That a struct gets into
itself through an array or a map does not count: copying and comparing structs goes through those
elements of structs that are structs, and no further.

* `Heap.WellNested` — one cannot go from a struct to a nested one forever;
* `Heap.WellNested.of_change` — a change keeps this up if all that it puts into structs is a part
  of the heap that nothing else was put into;
* `Heap.nestedBelow_of_wellNested` — structs are then nested no deeper than there are structs;
* `Heap.nest` — a struct and all that are nested in it, which depends on the elements of these
  structs alone (`Heap.Untouched.of_elements`).
-/

set_option autoImplicit false

namespace DryRun.Heap

variable {heap heap' : Heap}

/-- Struct `b` is among the elements of struct `a`. -/
def Nests (heap : Heap) (a b : Nat) : Prop := .seq ⟨.struct, b⟩ ∈ heap.elements ⟨.struct, a⟩

/-- There is no endless way from a struct to a nested one, and from there to one nested in that. -/
def WellNested (heap : Heap) : Prop := WellFounded fun b a => heap.Nests a b

namespace WellNested

/-- No struct is nested in itself. -/
theorem not_transGen (h : heap.WellNested) (a : Nat) : ¬ Relation.TransGen heap.Nests a a := by
  induction a using h.induction with
  | _ a ih =>
    intro cycle
    -- a cycle at `a` is one at the first struct after `a` as well
    obtain ⟨b, first, rest⟩ := Relation.TransGen.head'_iff.1 cycle
    exact ih b first (Relation.TransGen.tail' rest first)

/-- **How nesting can change.**  Let some structs stand apart: what is in them was there before and
stands apart as well.  If whatever is new in a struct stands apart, nesting stays well-founded. -/
theorem of_change (h : heap.WellNested) (apart : Nat → Prop)
    (closed : ∀ a, apart a → ∀ b, heap'.Nests a b → heap.Nests a b ∧ apart b)
    (edges : ∀ a b, heap'.Nests a b → heap.Nests a b ∨ apart b) : heap'.WellNested := by
  -- what stands apart is nested as it was, so the old order is enough for it
  have inside (a : Nat) : apart a → Acc (fun b a => heap'.Nests a b) a := by
    induction a using h.induction with
    | _ a ih =>
      intro ha
      refine .intro a fun b nested => ?_
      obtain ⟨old, hb⟩ := closed a ha b nested
      exact ih b old hb
  refine ⟨fun a => ?_⟩
  induction a using h.induction with
  | _ a ih =>
    refine .intro a fun b nested => ?_
    rcases edges a b nested with old | new
    · exact ih b old
    · exact inside b new

theorem of_nests (h : heap.WellNested) (same : ∀ a b, heap'.Nests a b → heap.Nests a b) :
    heap'.WellNested :=
  h.of_change (fun _ => False) (fun _ no => no.elim) fun a b nested => .inl (same a b nested)

end WellNested

/-! ## How deep structs are nested -/

/-- Structs are nested in an item to a depth of less than `fuel`. -/
def NestedBelow (heap : Heap) : (fuel : Nat) → Item → Prop
  | 0, .seq ⟨.struct, _⟩ => False
  | fuel + 1, .seq ⟨.struct, id⟩ => ∀ item ∈ heap.elements ⟨.struct, id⟩, heap.NestedBelow fuel item
  | _, _ => True

theorem struct_or_not (item : Item) :
    (∃ id, item = .seq ⟨.struct, id⟩) ∨ ∀ id, item ≠ .seq ⟨.struct, id⟩ := by
  by_cases h : ∃ id, item = .seq ⟨.struct, id⟩
  · exact .inl h
  · exact .inr fun id same => h ⟨id, same⟩

theorem nestedBelow_of_not_struct {item : Item} (h : ∀ id, item ≠ .seq ⟨.struct, id⟩) (fuel : Nat) :
    heap.NestedBelow fuel item := by
  match item with
  | .seq ⟨.struct, id⟩ => exact absurd rfl (h id)
  | .seq ⟨.array, _⟩ | .prim _ | .map _ | .handle _ => cases fuel <;> exact trivial

/-- Numbers below `n` without repetition are at most `n`. -/
theorem length_le_of_nodup {l : List Nat} {n : Nat} (nodup : l.Nodup) (below : ∀ a ∈ l, a < n) :
    l.length ≤ n := by
  have inside : l ⊆ List.range n := fun a mem => List.mem_range.2 (below a mem)
  have length := (nodup.subperm inside).length_le
  rwa [List.length_range] at length

/-- On the way down no struct is met twice, so the way is no longer than there are structs. -/
theorem nestedBelow_of_path (h : heap.WellNested) {n : Nat}
    (names : ∀ a b, heap.Nests a b → b < n) (fuel : Nat) {path : List Nat} (nodup : path.Nodup)
    {id : Nat} (above : ∀ a ∈ path, a < n ∧ Relation.TransGen heap.Nests a id) (hid : id < n)
    (enough : n ≤ fuel + path.length) : heap.NestedBelow fuel (.seq ⟨.struct, id⟩) := by
  -- the structs of `path` lead to `id`, so one that is met again would be nested in itself
  have unmet : id ∉ path := fun mem => h.not_transGen id (above id mem).2
  have longer : (id :: path).Nodup := List.nodup_cons.2 ⟨unmet, nodup⟩
  induction fuel generalizing id path with
  | zero =>
    have short := length_le_of_nodup longer
      (List.forall_mem_cons.2 ⟨hid, fun a mem => (above a mem).1⟩)
    rw [List.length_cons] at short
    omega
  | succ fuel ih =>
    intro item mem
    rcases struct_or_not item with ⟨b, rfl⟩ | other
    · have step : heap.Nests id b := mem
      have above' : ∀ a ∈ id :: path, a < n ∧ Relation.TransGen heap.Nests a b :=
        List.forall_mem_cons.2 ⟨⟨hid, .single step⟩, fun a mem =>
          ⟨(above a mem).1, (above a mem).2.tail step⟩⟩
      have unmet' : b ∉ id :: path := fun mem => h.not_transGen b (above' b mem).2
      refine ih longer above' (names id b step) ?_ unmet' (List.nodup_cons.2 ⟨unmet', longer⟩)
      rw [List.length_cons]
      omega
    · exact nestedBelow_of_not_struct other fuel

/-- **Structs are nested no deeper than there are structs.** -/
theorem nestedBelow_of_wellNested (h : heap.WellNested)
    (names : ∀ a, ∀ item ∈ heap.elements ⟨.struct, a⟩, heap.Has item) {item : Item}
    (made : heap.Has item) : heap.NestedBelow heap.structs.size item := by
  rcases struct_or_not item with ⟨id, rfl⟩ | other
  · exact nestedBelow_of_path h (fun a b nested => names a _ nested) heap.structs.size
      List.nodup_nil (fun a mem => absurd mem List.not_mem_nil) made (Nat.le_refl _)
  · exact nestedBelow_of_not_struct other _

/-- What holds of an item if it holds of all elements of a struct. -/
theorem WellNested.item_induction (h : heap.WellNested) {P : Item → Prop}
    (other : ∀ item, (∀ id, item ≠ .seq ⟨.struct, id⟩) → P item)
    (struct : ∀ id, (∀ item ∈ heap.elements ⟨.struct, id⟩, P item) → P (.seq ⟨.struct, id⟩))
    (item : Item) : P item := by
  have ofStruct (id : Nat) : P (.seq ⟨.struct, id⟩) := by
    induction id using h.induction with
    | _ id ih =>
      refine struct id fun item mem => ?_
      rcases struct_or_not item with ⟨b, rfl⟩ | notStruct
      · exact ih b mem
      · exact other item notStruct
  rcases struct_or_not item with ⟨id, rfl⟩ | notStruct
  · exact ofStruct id
  · exact other item notStruct

/-! ## Structs and what is nested in them -/

/-- A struct and all that are nested in it, at any depth. -/
def nest (heap : Heap) (a : Nat) : Set Nat := {b | Relation.ReflTransGen heap.Nests a b}

theorem self_mem_nest (heap : Heap) (a : Nat) : a ∈ heap.nest a := .refl

/-- What is nested in a struct was made. -/
theorem has_of_mem_nest (names : ∀ a, ∀ item ∈ heap.elements ⟨.struct, a⟩, heap.Has item)
    {a b : Nat} (made : heap.Has (.seq ⟨.struct, a⟩)) (h : b ∈ heap.nest a) :
    heap.Has (.seq ⟨.struct, b⟩) := by
  cases h with
  | refl => exact made
  | tail _ nested => exact names _ _ nested

/-- From one heap to another, nothing has become of a struct and of what is nested in it. -/
structure Untouched (heap heap' : Heap) (a : Nat) : Prop where
  /-- The same structs are nested in it. -/
  nest : heap'.nest a = heap.nest a
  /-- All of them have the elements they had. -/
  elements : ∀ b ∈ heap.nest a, heap'.elements ⟨.struct, b⟩ = heap.elements ⟨.struct, b⟩

namespace Untouched

variable {a : Nat}

/-- The elements decide what is nested. -/
theorem of_elements
    (same : ∀ b ∈ heap.nest a, heap'.elements ⟨.struct, b⟩ = heap.elements ⟨.struct, b⟩) :
    Untouched heap heap' a where
  nest := by
    ext b
    constructor
    · intro way
      induction way with
      | refl => exact heap.self_mem_nest a
      | tail _ nested before =>
        rw [Nests, same _ before] at nested
        exact .tail before nested
    · intro way
      induction way with
      | refl => exact heap'.self_mem_nest a
      | tail before nested after =>
        refine .tail after ?_
        rw [Nests, same _ before]
        exact nested
  elements := same

theorem refl (heap : Heap) (a : Nat) : Untouched heap heap a := ⟨rfl, fun _ _ => rfl⟩

theorem trans {heap'' : Heap} (h : Untouched heap heap' a) (k : Untouched heap' heap'' a) :
    Untouched heap heap'' a where
  nest := k.nest.trans h.nest
  elements b mem := (k.elements b (h.nest ▸ mem)).trans (h.elements b mem)

end Untouched

end DryRun.Heap
