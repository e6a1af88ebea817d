import DryRun.Item.Parameter
import DryRun.Proofs.Heap.Cycle

/-!
# Where showing an item stops

Where calls can be nested only so deep, an item may be shown, or be found to lie inside itself, or
be nested too deep, and it is the first of such things on the way through the item that decides.
`Tree.visits` lists all that lies on this way, in order, and `firstObstacle?` is where it comes to
an end.

* `Tree.stops_parametersWithin` — trees are shown up to the first obstacle, and completely if there
  is none.
* `Tree.Every.not_recurs` — a tree without a leaf for a collection inside itself has no such visit.
* `Heap.deep_unfoldBelow_iff` — something in such a tree lies as deep as one gets in the heap.
-/

set_option autoImplicit false

namespace DryRun

/-! ## Visits -/

/-- Something that is come across while an item is shown. -/
structure Visit where
  /-- In how many collections it lies, one inside the other. -/
  depth : Nat
  /-- Is it a collection that lies inside itself? -/
  recurs : Bool
deriving DecidableEq

namespace Visit

variable {depth : Nat} {v : Visit}

/-- What is come across in a collection, as it is counted outside of the collection. -/
def inside (v : Visit) : Visit := { v with depth := v.depth + 1 }

/-- What stands in the way where `depth` calls can be nested. -/
def obstacle? (depth : Nat) (v : Visit) : Option RenderFault :=
  if depth ≤ v.depth then some .tooDeep
  else if v.recurs then some (.item .recursiveRendering)
  else none

theorem obstacle?_inside (depth : Nat) (v : Visit) :
    v.inside.obstacle? (depth + 1) = v.obstacle? depth := by
  rw [obstacle?, obstacle?, inside]
  simp only [Nat.add_le_add_iff_right]

theorem obstacle?_eq_none_iff : v.obstacle? depth = none ↔ v.depth < depth ∧ v.recurs = false := by
  rw [obstacle?]
  split
  · next deep => exact iff_of_false nofun fun h => Nat.not_lt.2 deep h.1
  · next flat =>
    rw [and_iff_right (Nat.lt_of_not_le flat)]
    cases v.recurs <;> simp

theorem obstacle?_eq_tooDeep_iff : v.obstacle? depth = some .tooDeep ↔ depth ≤ v.depth := by
  rw [obstacle?]
  split
  · next deep => exact iff_of_true rfl deep
  · next flat =>
    refine iff_of_false ?_ flat
    cases v.recurs <;> simp

theorem recurs_of_obstacle? {cause : ItemFault} (h : v.obstacle? depth = some (.item cause)) :
    v.recurs = true := by
  rw [obstacle?] at h
  split at h
  · cases h
  · split at h
    · assumption
    · cases h

end Visit

/-- The first obstacle among some visits. -/
def firstObstacle? (depth : Nat) (visits : List Visit) : Option RenderFault :=
  visits.findSome? (Visit.obstacle? depth)

theorem firstObstacle?_inside (depth : Nat) (visits : List Visit) :
    firstObstacle? (depth + 1) (visits.map Visit.inside) = firstObstacle? depth visits := by
  rw [firstObstacle?, List.findSome?_map]
  exact congrArg (List.findSome? · visits) (funext (Visit.obstacle?_inside depth))

namespace Tree

mutual

/-- What is come across while a tree is shown. -/
def visits : Tree → List Visit
  | .prim _ => [⟨0, false⟩]
  | .seq _ elements => ⟨0, false⟩ :: (visitsOf elements).map Visit.inside
  | .map entries => ⟨0, false⟩ :: (entryVisits entries).map Visit.inside
  | .handle _ => [⟨0, false⟩]
  | .cycle => [⟨0, true⟩]

/-- What is come across while trees are shown. -/
def visitsOf : List Tree → List Visit
  | [] => []
  | tree :: rest => visits tree ++ visitsOf rest

/-- What is come across while entries are shown, the key of each before its value. -/
def entryVisits : List (Primitive × Tree) → List Visit
  | [] => []
  | (_, tree) :: rest => ⟨0, false⟩ :: (visits tree ++ entryVisits rest)

end

/-! ## Showing up to an obstacle -/

/-- What is shown where calls can be nested only so deep, with the first obstacle, and what is shown
otherwise. -/
inductive Stops {α : Type} :
    Option RenderFault → Except RenderFault α → Except ItemFault α → Prop where
  /-- There is an obstacle. -/
  | obstacle (fault : RenderFault) (shown : Except ItemFault α) :
    Stops (some fault) (.error fault) shown
  /-- There is none. -/
  | free (a : α) : Stops none (.ok a) (.ok a)

namespace Stops

variable {α β γ : Type} {o o' : Option RenderFault} {within : Except RenderFault α}
  {shown : Except ItemFault α} {within' : Except RenderFault β} {shown' : Except ItemFault β}

theorem eq_error {fault : RenderFault} (h : Stops (some fault) within shown) :
    within = .error fault := by
  cases h
  rfl

theorem eq_ok (h : Stops none within shown) : ∃ a, within = .ok a ∧ shown = .ok a := by
  cases h
  exact ⟨_, rfl, rfl⟩

theorem map (f : α → β) (h : Stops o within shown) :
    Stops o (do return f (← within)) (do return f (← shown)) := by
  cases h with
  | obstacle => exact .obstacle _ _
  | free => exact .free _

/-- What comes second is not looked at if there is an obstacle in what comes first. -/
theorem both (f : α → β → γ) (first : Stops o within shown) (second : Stops o' within' shown') :
    Stops (o.or o') (do let a ← within; return f a (← within'))
      (do let a ← shown; return f a (← shown')) := by
  cases first with
  | obstacle => exact .obstacle _ _
  | free =>
    cases second with
    | obstacle => exact .obstacle _ _
    | free => exact .free _

end Stops

theorem parameterWithin_zero (tree : Tree) : tree.parameterWithin 0 = .error .tooDeep := by
  cases tree <;> rfl

mutual

theorem stops_parameterWithin : ∀ (depth : Nat) (tree : Tree),
    Stops (firstObstacle? depth tree.visits) (tree.parameterWithin depth) tree.parameter
  | 0, .prim _ | 0, .handle _ | 0, .cycle | 0, .seq _ _ | 0, .map _ => .obstacle _ _
  | _ + 1, .prim _ | _ + 1, .handle _ => .free _
  | _ + 1, .cycle => .obstacle _ _
  | depth + 1, .seq kind elements => by
    have below : firstObstacle? (depth + 1) (visits (.seq kind elements)) =
        firstObstacle? depth (visitsOf elements) := firstObstacle?_inside depth _
    rw [below]
    exact (stops_parametersWithin depth elements).map _
  | depth + 1, .map entries => by
    have below : firstObstacle? (depth + 1) (visits (.map entries)) =
        firstObstacle? depth (entryVisits entries) := firstObstacle?_inside depth _
    rw [below]
    exact (stops_entryParametersWithin depth entries).map _

/-- **The first obstacle decides** whether trees are shown. -/
theorem stops_parametersWithin : ∀ (depth : Nat) (trees : List Tree),
    Stops (firstObstacle? depth (visitsOf trees)) (parametersWithin depth trees)
      (parameters trees)
  | _, [] => .free _
  | depth, tree :: rest => by
    rw [visitsOf, firstObstacle?, List.findSome?_append]
    exact (stops_parameterWithin depth tree).both List.cons (stops_parametersWithin depth rest)

theorem stops_entryParametersWithin : ∀ (depth : Nat) (entries : List (Primitive × Tree)),
    Stops (firstObstacle? depth (entryVisits entries)) (entryParametersWithin depth entries)
      (entryParameters entries)
  | _, [] => .free _
  | 0, (key, tree) :: rest => by
    -- the key cannot be shown, and neither can the value
    rw [entryParametersWithin, parameterWithin_zero]
    exact .obstacle _ _
  | depth + 1, (key, tree) :: rest => by
    have after : firstObstacle? (depth + 1) (entryVisits ((key, tree) :: rest)) =
        (visits tree ++ entryVisits rest).findSome? (Visit.obstacle? (depth + 1)) := rfl
    rw [after, List.findSome?_append]
    exact (stops_parameterWithin (depth + 1) tree).both
      (fun value more => .ofFields [("key", primitiveParameter key), ("value", value)] :: more)
      (stops_entryParametersWithin (depth + 1) rest)

end

/-! ## Collections inside themselves -/

theorem mem_visitsOf {v : Visit} {trees : List Tree} :
    v ∈ visitsOf trees ↔ ∃ tree ∈ trees, v ∈ tree.visits := by
  induction trees with
  | nil => simp [visitsOf]
  | cons tree rest ih => simp [visitsOf, ih]

theorem mem_entryVisits {v : Visit} {entries : List (Primitive × Tree)} :
    v ∈ entryVisits entries ↔ ∃ entry ∈ entries, v = ⟨0, false⟩ ∨ v ∈ entry.2.visits := by
  induction entries with
  | nil => simp [entryVisits]
  | cons entry rest ih => simp [entryVisits, ih, or_assoc]

/-- A tree without a leaf for a collection inside itself has no visit of one. -/
theorem Every.not_recurs {tree : Tree} (h : tree.Every NotCycle) :
    ∀ v ∈ tree.visits, v.recurs = false := by
  induction h with
  | prim | handle => exact List.forall_mem_singleton.2 rfl
  | cycle turns => exact turns.elim
  | seq _ _ ih =>
    refine List.forall_mem_cons.2 ⟨rfl, List.forall_mem_map.2 fun v mem => ?_⟩
    obtain ⟨element, stored, visit⟩ := mem_visitsOf.1 mem
    exact ih element stored v visit
  | map _ _ ih =>
    refine List.forall_mem_cons.2 ⟨rfl, List.forall_mem_map.2 fun v mem => ?_⟩
    obtain ⟨entry, stored, rfl | visit⟩ := mem_entryVisits.1 mem
    · rfl
    · exact ih entry stored v visit

/-! ## How deep something lies -/

/-- Something in a tree lies in `depth` collections, one inside the other. -/
def Deep (depth : Nat) (tree : Tree) : Prop := ∃ v ∈ tree.visits, depth ≤ v.depth

variable {depth : Nat}

theorem deep_zero (tree : Tree) : tree.Deep 0 := by
  cases tree <;> exact ⟨_, List.mem_cons_self, Nat.zero_le _⟩

theorem exists_inside_iff {visits : List Visit} :
    (∃ v ∈ ⟨0, false⟩ :: visits.map Visit.inside, depth + 1 ≤ v.depth) ↔
      ∃ v ∈ visits, depth ≤ v.depth := by
  simp [Visit.inside]

theorem deep_seq_iff {kind : SequenceKind} {elements : List Tree} :
    (Tree.seq kind elements).Deep (depth + 1) ↔ ∃ tree ∈ elements, tree.Deep depth := by
  rw [Deep, visits, exists_inside_iff]
  constructor
  · rintro ⟨v, mem, deep⟩
    obtain ⟨tree, stored, visit⟩ := mem_visitsOf.1 mem
    exact ⟨tree, stored, v, visit, deep⟩
  · rintro ⟨tree, stored, v, visit, deep⟩
    exact ⟨v, mem_visitsOf.2 ⟨tree, stored, visit⟩, deep⟩

theorem deep_map_iff {entries : List (Primitive × Tree)} :
    (Tree.map entries).Deep (depth + 1) ↔
      ∃ entry ∈ entries, (Tree.prim entry.1).Deep depth ∨ entry.2.Deep depth := by
  rw [Deep, visits, exists_inside_iff]
  constructor
  · rintro ⟨v, mem, deep⟩
    obtain ⟨entry, stored, key | visit⟩ := mem_entryVisits.1 mem
    · exact ⟨entry, stored, .inl ⟨v, List.mem_singleton.2 key, deep⟩⟩
    · exact ⟨entry, stored, .inr ⟨v, visit, deep⟩⟩
  · rintro ⟨entry, stored, ⟨v, key, deep⟩ | ⟨v, visit, deep⟩⟩
    · exact ⟨v, mem_entryVisits.2 ⟨entry, stored, .inl (List.mem_singleton.1 key)⟩, deep⟩
    · exact ⟨v, mem_entryVisits.2 ⟨entry, stored, .inr visit⟩, deep⟩

end Tree

namespace Heap

variable {heap : Heap} {depth : Nat} {item : Item}

/-- From an item one gets into `depth` collections, one inside the other. -/
inductive Deep (heap : Heap) : (depth : Nat) → Item → Prop where
  /-- An item itself lies in no collection. -/
  | here (item : Item) : Deep heap 0 item
  /-- What lies in a part of an item lies in one collection more. -/
  | inside {depth : Nat} {item part : Item} (holds : heap.Holds item part)
    (deep : Deep heap depth part) : Deep heap (depth + 1) item

theorem deep_succ_iff :
    heap.Deep (depth + 1) item ↔ ∃ part, heap.Holds item part ∧ heap.Deep depth part := by
  constructor
  · intro deep
    cases deep with
    | inside holds deep => exact ⟨_, holds, deep⟩
  · rintro ⟨part, holds, deep⟩
    exact .inside holds deep

/-- **Something in a tree lies as deep** as one gets in the heap, if nothing is left out of the
tree. -/
theorem deep_unfoldBelow_iff {fuel : Nat} {above : List Item}
    (whole : (heap.unfoldBelow fuel above item).Every Tree.NotCycle) :
    (heap.unfoldBelow fuel above item).Deep depth ↔ heap.Deep depth item := by
  induction depth generalizing fuel above item with
  | zero => exact iff_of_true (Tree.deep_zero _) (.here item)
  | succ depth ih =>
    rw [deep_succ_iff]
    cases item with
    | prim | handle =>
      refine iff_of_false (by simp [unfoldBelow, Tree.Deep, Tree.visits]) ?_
      rintro ⟨part, holds, -⟩
      cases holds
    | seq s =>
      cases fuel with
      | zero => exact whole.here.elim
      | succ fuel =>
        rw [unfoldBelow] at whole ⊢
        split at whole
        · exact whole.here.elim
        · next unmet =>
          cases whole with
          | seq _ below =>
            rw [if_neg unmet, Tree.deep_seq_iff]
            constructor
            · rintro ⟨tree, mem, deep⟩
              obtain ⟨element, stored, rfl⟩ := List.mem_map.1 mem
              exact ⟨element, .element stored, (ih (below _ mem)).1 deep⟩
            · rintro ⟨part, holds, deep⟩
              cases holds with
              | element stored =>
                exact ⟨_, List.mem_map_of_mem stored,
                  (ih (below _ (List.mem_map_of_mem stored))).2 deep⟩
    | map id =>
      cases fuel with
      | zero => exact whole.here.elim
      | succ fuel =>
        rw [unfoldBelow] at whole ⊢
        split at whole
        · exact whole.here.elim
        · next unmet =>
          -- a key is unfolded as it is
          have keys (p : Primitive) : (Tree.prim p).Deep depth ↔ heap.Deep depth (.prim p) := by
            have key : (heap.unfoldBelow 0 [] (.prim p)).Every Tree.NotCycle := .prim trivial
            exact ih key
          cases whole with
          | map _ below =>
            rw [if_neg unmet, Tree.deep_map_iff]
            constructor
            · rintro ⟨entry, mem, deep⟩
              obtain ⟨row, stored, rfl⟩ := List.mem_map.1 mem
              rcases deep with deep | deep
              · exact ⟨_, .key (List.mem_map_of_mem stored), (keys row.1).1 deep⟩
              · exact ⟨_, .value (List.mem_map_of_mem stored), (ih (below _ mem)).1 deep⟩
            · rintro ⟨part, holds, deep⟩
              cases holds with
              | key mem =>
                obtain ⟨row, stored, rfl⟩ := List.mem_map.1 mem
                exact ⟨_, List.mem_map_of_mem stored, .inl ((keys row.1).2 deep)⟩
              | value mem =>
                obtain ⟨row, stored, rfl⟩ := List.mem_map.1 mem
                exact ⟨_, List.mem_map_of_mem stored,
                  .inr ((ih (below _ (List.mem_map_of_mem stored))).2 deep)⟩

end Heap

end DryRun
