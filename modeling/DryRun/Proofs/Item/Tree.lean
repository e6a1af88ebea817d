import DryRun.Proofs.Heap.Growth
import DryRun.Proofs.Table

/-!
# Building an item and unfolding it again

The item that `Heap.build` makes of a tree unfolds to this tree, whatever else the heap holds and
whatever is made after it.  The tree must be the value of an item: no leaf of it stands for a
collection inside itself, and no map of it has a key twice.

* `Tree.Every P tree` — `P` holds of `tree` and of every tree in it;
* `Heap.unfold_distinct` — the maps of an item have no key twice;
* `Heap.unfold_build` — a tree is built so that it is unfolded again.

An item unfolds below other collections, with a bound on the depth, in a heap that may have grown.
`Heap.Shows` takes care of all three, so that each part of a tree is dealt with on its own.
-/

set_option autoImplicit false

namespace DryRun

/-! ## What holds everywhere in a tree -/

namespace Tree

/-- `P` holds of a tree and of every tree in it. -/
inductive Every (P : Tree → Prop) : Tree → Prop where
  | prim {p : Primitive} (here : P (.prim p)) : Every P (.prim p)
  | seq {kind : SequenceKind} {elements : List Tree} (here : P (.seq kind elements))
    (below : ∀ tree ∈ elements, Every P tree) : Every P (.seq kind elements)
  | map {entries : List (Primitive × Tree)} (here : P (.map entries))
    (below : ∀ entry ∈ entries, Every P entry.2) : Every P (.map entries)
  | handle {handle : Handle} (here : P (.handle handle)) : Every P (.handle handle)
  | cycle (here : P .cycle) : Every P .cycle

namespace Every

variable {P Q : Tree → Prop} {tree : Tree}

theorem here (h : Every P tree) : P tree := by
  cases h <;> assumption

theorem mono (h : Every P tree) (hPQ : ∀ t, P t → Q t) : Every Q tree := by
  induction h with
  | prim here => exact .prim (hPQ _ here)
  | seq here _ ih => exact .seq (hPQ _ here) ih
  | map here _ ih => exact .map (hPQ _ here) ih
  | handle here => exact .handle (hPQ _ here)
  | cycle here => exact .cycle (hPQ _ here)

theorem and (h : Every P tree) (k : Every Q tree) : Every (fun t => P t ∧ Q t) tree := by
  induction h with
  | prim here => exact .prim ⟨here, k.here⟩
  | seq here _ ih =>
    cases k with
    | seq here' below => exact .seq ⟨here, here'⟩ fun t mem => ih t mem (below t mem)
  | map here _ ih =>
    cases k with
    | map here' below => exact .map ⟨here, here'⟩ fun e mem => ih e mem (below e mem)
  | handle here => exact .handle ⟨here, k.here⟩
  | cycle here => exact .cycle ⟨here, k.here⟩

end Every

/-- If the tree is a map, no key of it occurs twice. -/
def DistinctKeys : Tree → Prop
  | .map entries => (entries.map entryKey).Nodup
  | _ => True

/-- The tree is not the leaf that ends a collection inside itself. -/
def NotCycle : Tree → Prop
  | .cycle => False
  | _ => True

/-- The tree is a collection within the limits or a plain value that is admitted, as far as it can
be seen without looking into its parts. -/
def Plain (admitted : Primitive → Prop) : Tree → Prop
  | .prim p => admitted p
  | .seq _ elements => elements.length ≤ maxCollectionSize
  | .map entries =>
    entries.length ≤ maxCollectionSize ∧ ∀ entry ∈ entries, admitted entry.1
  | .handle _ => False
  | .cycle => False

instance (admitted : Primitive → Prop) [DecidablePred admitted] :
    (tree : Tree) → Decidable (tree.Plain admitted)
  | .prim p => inferInstanceAs (Decidable (admitted p))
  | .seq _ elements => inferInstanceAs (Decidable (elements.length ≤ maxCollectionSize))
  | .map _ => inferInstanceAs (Decidable (_ ∧ _))
  | .handle _ => inferInstanceAs (Decidable False)
  | .cycle => inferInstanceAs (Decidable False)

theorem Plain.mono {P Q : Primitive → Prop} {tree : Tree} (h : tree.Plain P)
    (hPQ : ∀ p, P p → Q p) : tree.Plain Q := by
  cases tree with
  | prim p => exact hPQ p h
  | seq kind elements => exact h
  | map entries => exact ⟨h.1, fun entry mem => hPQ _ (h.2 entry mem)⟩
  | handle h' => exact h.elim
  | cycle => exact h.elim

/-- The tree is the value of an item, as far as it can be seen without looking into its parts. -/
def Regular (tree : Tree) : Prop := tree.NotCycle ∧ tree.DistinctKeys

theorem Plain.regular {P : Primitive → Prop} {tree : Tree} (h : tree.Plain P)
    (distinct : tree.DistinctKeys) : tree.Regular := by
  refine ⟨?_, distinct⟩
  cases tree with
  | cycle => exact h.elim
  | _ => exact trivial

end Tree

namespace Heap

open DryRun.Tree (Every DistinctKeys NotCycle Regular)

/-- The maps of an item have no key twice. -/
theorem unfoldBelow_distinct (heap : Heap) (fuel : Nat) (above : List Item) (item : Item) :
    (heap.unfoldBelow fuel above item).Every DistinctKeys := by
  induction fuel generalizing above item with
  | zero =>
    cases item with
    | prim p => exact .prim trivial
    | seq s => exact .cycle trivial
    | map id => exact .cycle trivial
    | handle h => exact .handle trivial
  | succ fuel ih =>
    cases item with
    | prim p => exact .prim trivial
    | seq s =>
      rw [unfoldBelow]
      split
      · exact .cycle trivial
      · refine .seq trivial fun tree mem => ?_
        obtain ⟨element, -, rfl⟩ := List.mem_map.1 mem
        exact ih _ element
    | map id =>
      rw [unfoldBelow]
      split
      · exact .cycle trivial
      · refine .map ?_ fun entry mem => ?_
        · have keys := (heap.entries id).nodup
          rw [DistinctKeys, List.map_map]
          exact keys
        · obtain ⟨row, -, rfl⟩ := List.mem_map.1 mem
          exact ih _ row.2
    | handle h => exact .handle trivial

theorem unfold_distinct (heap : Heap) (item : Item) :
    (heap.unfold item).Every DistinctKeys :=
  heap.unfoldBelow_distinct _ _ item

/-! ## Unfolding what was made -/

/-- `P` holds of the unfolding of items between `start` and `made`: in every heap that grew from
`made`, below any collections but those made in between, and to a depth of as many collections as
were made in between. -/
def Shows (start made : Heap) (P : (Item → Tree) → Prop) : Prop :=
  Grows start made ∧ ∀ later, Grows made later → ∀ fuel above,
    made.collectionCount ≤ start.collectionCount + fuel →
    (∀ x ∈ above, made.Has x → start.Has x) → P (later.unfoldBelow fuel above)

namespace Shows

variable {a b c : Heap} {P Q : (Item → Tree) → Prop}

theorem refl (heap : Heap) (h : ∀ later fuel above, P (unfoldBelow later fuel above)) :
    Shows heap heap P :=
  ⟨.refl heap, fun later _ fuel above _ _ => h later fuel above⟩

theorem mono (h : Shows a b P) (hPQ : ∀ unfold, P unfold → Q unfold) : Shows a b Q :=
  ⟨h.1, fun later grows fuel above hfuel habove => hPQ _ (h.2 later grows fuel above hfuel habove)⟩

/-- What was made first is shown when more has been made. -/
theorem trans (h : Shows a b P) (k : Shows b c Q) :
    Shows a c fun unfold => P unfold ∧ Q unfold := by
  refine ⟨h.1.trans k.1, fun later grows fuel above hfuel habove => ⟨?_, ?_⟩⟩
  · have count := k.1.collectionCount_le
    exact h.2 later (k.1.trans grows) fuel above (by omega) fun x mem made =>
      habove x mem (k.1.has made)
  · have count := h.1.collectionCount_le
    exact k.2 later grows fuel above (by omega) fun x mem made => h.1.has (habove x mem made)

/-- A collection made last is unfolded where nothing before it was, and its parts below it. -/
theorem below (h : Shows a b P) (made : Grows b c) {x : Item} (new : c.Has x) (unmade : ¬ b.Has x)
    (count : c.collectionCount = b.collectionCount + 1) {later : Heap} (grows : Grows c later)
    {fuel : Nat} {above : List Item} (hfuel : c.collectionCount ≤ a.collectionCount + fuel)
    (habove : ∀ y ∈ above, c.Has y → a.Has y) :
    ∃ n, fuel = n + 1 ∧ x ∉ above ∧ P (later.unfoldBelow n (x :: above)) := by
  have older := h.1.collectionCount_le
  obtain ⟨n, rfl⟩ : ∃ n, fuel = n + 1 := ⟨fuel - 1, by omega⟩
  refine ⟨n, rfl, fun mem => unmade (h.1.has (habove x mem new)), ?_⟩
  refine h.2 later (made.trans grows) n _ (by omega) fun y mem hy => ?_
  rcases List.mem_cons.1 mem with rfl | mem
  · exact absurd hy unmade
  · exact habove y mem (made.has hy)

/-- A sequence shows its elements. -/
theorem makeSequence {items : List Item} {trees : List Tree}
    (h : Shows a b fun unfold => items.map unfold = trees) (kind : SequenceKind) :
    Shows a (b.makeSequence kind items).1 fun unfold =>
      unfold (.seq (b.makeSequence kind items).2) = .seq kind trees := by
  have made := Grows.makeSequence b kind items
  refine ⟨h.1.trans made, fun later grows fuel above hfuel habove => ?_⟩
  have new : (b.makeSequence kind items).1.Has (.seq ⟨kind, b.sequenceCount kind⟩) :=
    (b.has_makeSequence kind items _).2 (.inr rfl)
  have count : (b.makeSequence kind items).1.collectionCount = b.collectionCount + 1 := by
    simp only [collectionCount_eq, sequenceCount_makeSequence, maps_makeSequence]
    cases kind <;> simp <;> omega
  have content : later.elements ⟨kind, b.sequenceCount kind⟩ = items := by
    rw [grows.elements _ new, elements_makeSequence, if_pos rfl]
  obtain ⟨n, rfl, outside, shown⟩ :=
    h.below made new (Nat.lt_irrefl _) count grows hfuel habove
  dsimp only
  rw [makeSequence_snd, unfoldBelow, if_neg outside, content, shown]

/-- A map shows its entries. -/
theorem makeMap {entries : Entries} {trees : List (Primitive × Tree)}
    (h : Shows a b fun unfold =>
      entries.rows.map (fun (key, value) => (key, unfold value)) = trees) :
    Shows a (b.makeMap entries).1 fun unfold =>
      unfold (.map (b.makeMap entries).2) = .map trees := by
  have made := Grows.makeMap b entries
  refine ⟨h.1.trans made, fun later grows fuel above hfuel habove => ?_⟩
  have new : (b.makeMap entries).1.Has (.map b.maps.size) :=
    (b.has_makeMap entries _).2 (.inr rfl)
  have count : (b.makeMap entries).1.collectionCount = b.collectionCount + 1 := by
    simp only [collectionCount, Heap.makeMap, Array.size_push]
    omega
  have content : later.entries b.maps.size = entries := by
    rw [grows.entries _ new, entries_makeMap, if_pos rfl]
  obtain ⟨n, rfl, outside, shown⟩ :=
    h.below made new (Nat.lt_irrefl _) count grows hfuel habove
  show later.unfoldBelow (n + 1) above (.map b.maps.size) = .map trees
  rw [unfoldBelow, if_neg outside, content, shown]

end Shows

/-! ## Building -/

theorem shows_buildElements {trees : List Tree}
    (h : ∀ tree ∈ trees, ∀ heap : Heap,
      Shows heap (heap.build tree).1 fun unfold => unfold (heap.build tree).2 = tree)
    (heap : Heap) :
    Shows heap (heap.buildElements trees).1 fun unfold =>
      (heap.buildElements trees).2.map unfold = trees := by
  induction trees generalizing heap with
  | nil => exact .refl heap fun _ _ _ => rfl
  | cons tree trees ih =>
    rw [List.forall_mem_cons] at h
    rw [buildElements]
    refine ((h.1 heap).trans (ih h.2 _)).mono fun unfold both => ?_
    rw [List.map_cons, both.1, both.2]

theorem shows_buildEntries {entries : List (Primitive × Tree)}
    (h : ∀ entry ∈ entries, ∀ heap : Heap,
      Shows heap (heap.build entry.2).1 fun unfold => unfold (heap.build entry.2).2 = entry.2)
    (heap : Heap) :
    Shows heap (heap.buildEntries entries).1 fun unfold =>
      (heap.buildEntries entries).2.map (fun (key, value) => (key, unfold value)) = entries := by
  induction entries generalizing heap with
  | nil => exact .refl heap fun _ _ _ => rfl
  | cons entry entries ih =>
    obtain ⟨key, tree⟩ := entry
    rw [List.forall_mem_cons] at h
    rw [buildEntries]
    refine ((h.1 heap).trans (ih h.2 _)).mono fun unfold both => ?_
    obtain ⟨first, rest⟩ := both
    dsimp only at first rest ⊢
    rw [List.map_cons, rest, first]

theorem shows_build {tree : Tree} (h : tree.Every Regular) (heap : Heap) :
    Shows heap (heap.build tree).1 fun unfold => unfold (heap.build tree).2 = tree := by
  induction h generalizing heap with
  | prim here =>
    rw [build]
    exact .refl heap fun _ fuel _ => by cases fuel <;> rfl
  | handle here =>
    rw [build]
    exact .refl heap fun _ fuel _ => by cases fuel <;> rfl
  | cycle here => exact here.1.elim
  | seq here _ ih =>
    rw [build]
    exact (shows_buildElements ih heap).makeSequence _
  | @map entries here _ ih =>
    rw [build]
    have shown := shows_buildEntries ih heap
    -- the keys of the tree are distinct, and so no entry takes the place of another
    have keys : ((heap.buildEntries entries).2.map Entry.key).Nodup := by
      have same := shown.2 _ (.refl _) _ [] (Nat.le_add_left _ _) (by simp)
      have := congrArg (List.map Tree.entryKey) same
      rw [List.map_map] at this
      have distinct := here.2
      rw [DistinctKeys, ← this] at distinct
      exact distinct
    refine Shows.makeMap (shown.mono fun unfold same => ?_)
    rw [Table.rows_ofList_of_nodup keys, same]

/-- **A tree that is built is unfolded again.** -/
theorem unfold_build {tree : Tree} (h : tree.Every Regular) (heap : Heap) :
    (heap.build tree).1.unfold (heap.build tree).2 = tree :=
  (shows_build h heap).2 _ (.refl _) _ [] (by omega) (by simp)

end Heap

end DryRun
