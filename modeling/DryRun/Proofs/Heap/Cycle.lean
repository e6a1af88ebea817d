import DryRun.Proofs.Item.Tree
import DryRun.Proofs.Machine.Reach
import Mathlib.Data.List.Perm.Subperm
import Mathlib.Logic.Relation

/-!
# Collections inside themselves

An item is recursive if one gets from it to a collection that one gets back to (`Heap.Recursive`).
Unfolding notices this by keeping the collections on the way, and it stops at a depth that no way
without repetition can have.  Both together are exact: the tree of an item has a leaf
`Tree.cycle` if and only if the item is recursive (`Heap.unfold_notCycle_iff`).
-/

set_option autoImplicit false

namespace DryRun

open Relation (ReflTransGen TransGen)
open DryRun.Tree (Every NotCycle)

/-! ## Recursive items -/

namespace Heap

variable {heap : Heap} {item inner : Item}

/-- One gets from the item to a collection that is inside itself. -/
def Recursive (heap : Heap) (item : Item) : Prop :=
  ∃ inner, ReflTransGen heap.Holds item inner ∧ TransGen heap.Holds inner inner

theorem Recursive.of_holds (holds : heap.Holds item inner) (h : heap.Recursive inner) :
    heap.Recursive item := by
  obtain ⟨turn, way, round⟩ := h
  exact ⟨turn, .head holds way, round⟩

/-- If all ways from an item come to an end, it is not recursive. -/
theorem not_recursive_of_acc (ends : Acc (fun b a => heap.Holds a b) item) :
    ¬heap.Recursive item := by
  induction ends with
  | intro item _ ih =>
    rintro ⟨turn, way, round⟩
    -- either the turn is further on, or what comes after `item` leads back to it
    rcases ReflTransGen.cases_head way with rfl | ⟨b, holds, way⟩
    · obtain ⟨b, holds, back⟩ := TransGen.head'_iff.1 round
      exact ih b holds ⟨_, back, round⟩
    · exact ih b holds ⟨turn, way, round⟩

/-! ## Unfolding -/

/-- The collections of a heap. -/
def collections (heap : Heap) : List Item :=
  (List.range heap.arrays.size).map (fun id => .seq ⟨.array, id⟩) ++
    (List.range heap.structs.size).map (fun id => .seq ⟨.struct, id⟩) ++
    (List.range heap.maps.size).map .map

theorem length_collections (heap : Heap) : heap.collections.length = heap.collectionCount := by
  rw [collections, List.length_append, List.length_append, List.length_map, List.length_map,
    List.length_map, List.length_range, List.length_range, List.length_range, collectionCount]

/-- Only a collection that was made holds something. -/
theorem mem_collections_of_holds (holds : heap.Holds item inner) : item ∈ heap.collections := by
  have inside {α : Type} {xs : Array (List α)} {id : Nat} {x : α} (mem : x ∈ (xs[id]?).getD []) :
      id < xs.size := by
    by_contra outside
    rw [Array.getElem?_eq_none (Nat.not_lt.1 outside)] at mem
    cases mem
  have ofEntries {id : Nat} {entry : Entry} (mem : entry ∈ (heap.entries id).rows) :
      .map id ∈ heap.collections := by
    have made : id < heap.maps.size := by
      by_contra outside
      rw [entries, Array.getElem?_eq_none (Nat.not_lt.1 outside)] at mem
      cases mem
    exact List.mem_append_right _ (List.mem_map_of_mem (List.mem_range.2 made))
  cases holds with
  | @element s _ mem =>
    obtain ⟨kind, id⟩ := s
    refine List.mem_append_left _ ?_
    cases kind with
    | array =>
      exact List.mem_append_left _ (List.mem_map_of_mem (f := fun id => Item.seq ⟨.array, id⟩)
        (List.mem_range.2 (inside mem)))
    | struct =>
      exact List.mem_append_right _ (List.mem_map_of_mem (f := fun id => Item.seq ⟨.struct, id⟩)
        (List.mem_range.2 (inside mem)))
  | key mem =>
    obtain ⟨entry, mem, -⟩ := List.mem_map.1 mem
    exact ofEntries mem
  | value mem =>
    obtain ⟨entry, mem, -⟩ := List.mem_map.1 mem
    exact ofEntries mem

/-- Collections that all hold something, without repetition, are no more than there are. -/
theorem length_le_of_path {above : List Item} (nodup : above.Nodup)
    (leads : ∀ a ∈ above, TransGen heap.Holds a item) : above.length ≤ heap.collectionCount := by
  rw [← length_collections]
  refine (nodup.subperm fun a mem => ?_).length_le
  obtain ⟨b, holds, -⟩ := TransGen.head'_iff.1 (leads a mem)
  exact mem_collections_of_holds holds

/-- If the tree of an item has no leaf for a collection inside itself, all ways end. -/
theorem acc_of_notCycle {fuel : Nat} {above : List Item}
    (h : (heap.unfoldBelow fuel above item).Every NotCycle) :
    Acc (fun b a => heap.Holds a b) item := by
  have prim (p : Primitive) : Acc (fun b a => heap.Holds a b) (.prim p) :=
    .intro _ fun b holds => by cases holds
  have handle (r : Handle) : Acc (fun b a => heap.Holds a b) (.handle r) :=
    .intro _ fun b holds => by cases holds
  induction fuel generalizing above item with
  | zero =>
    cases item with
    | prim p => exact prim p
    | handle r => exact handle r
    | seq s => exact h.here.elim
    | map id => exact h.here.elim
  | succ fuel ih =>
    cases item with
    | prim p => exact prim p
    | handle r => exact handle r
    | seq s =>
      rw [unfoldBelow] at h
      split at h
      · exact h.here.elim
      · cases h with
        | seq _ below =>
          refine .intro _ fun b holds => ?_
          cases holds with
          | element mem => exact ih (below _ (List.mem_map_of_mem mem))
    | map id =>
      rw [unfoldBelow] at h
      split at h
      · exact h.here.elim
      · cases h with
        | map _ below =>
          refine .intro _ fun b holds => ?_
          cases holds with
          | key mem =>
            obtain ⟨row, -, rfl⟩ := List.mem_map.1 mem
            exact prim row.1
          | value mem =>
            obtain ⟨row, stored, rfl⟩ := List.mem_map.1 mem
            exact ih (below _ (List.mem_map_of_mem stored))

/-- On the way down no collection is met twice, so the way is no longer than there are
collections. -/
theorem notCycle_of_path (h : ¬heap.Recursive item) (fuel : Nat) {above : List Item}
    (nodup : above.Nodup) (leads : ∀ a ∈ above, TransGen heap.Holds a item)
    (enough : heap.collectionCount < fuel + above.length) :
    (heap.unfoldBelow fuel above item).Every NotCycle := by
  induction fuel generalizing above item with
  | zero =>
    have short := length_le_of_path nodup leads
    omega
  | succ fuel ih =>
    -- what leads to `item` is not `item` itself, so `item` can be put on the way
    have unmet : item ∉ above := fun mem => h ⟨item, .refl, leads item mem⟩
    have next {inner : Item} (holds : heap.Holds item inner) :
        (heap.unfoldBelow fuel (item :: above) inner).Every NotCycle := by
      refine ih (fun recursive => h (.of_holds holds recursive))
        (List.nodup_cons.2 ⟨unmet, nodup⟩) ?_ ?_
      · exact List.forall_mem_cons.2 ⟨.single holds, fun a mem => (leads a mem).tail holds⟩
      · rw [List.length_cons]
        omega
    cases item with
    | prim p => exact .prim trivial
    | handle r => exact .handle trivial
    | seq s =>
      rw [unfoldBelow, if_neg unmet]
      refine .seq trivial fun tree mem => ?_
      obtain ⟨element, stored, rfl⟩ := List.mem_map.1 mem
      exact next (.element stored)
    | map id =>
      rw [unfoldBelow, if_neg unmet]
      refine .map trivial fun entry mem => ?_
      obtain ⟨row, stored, rfl⟩ := List.mem_map.1 mem
      exact next (.value (List.mem_map_of_mem stored))

/-- **Unfolding finds exactly the recursive items.** -/
theorem unfold_notCycle_iff (heap : Heap) (item : Item) :
    (heap.unfold item).Every NotCycle ↔ ¬heap.Recursive item :=
  ⟨fun h => not_recursive_of_acc (acc_of_notCycle h), fun h =>
    notCycle_of_path h _ List.nodup_nil (fun _ mem => absurd mem List.not_mem_nil)
      (Nat.lt_succ_self _)⟩

end Heap

end DryRun
