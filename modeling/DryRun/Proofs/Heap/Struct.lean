import DryRun.Heap.Struct
import DryRun.Proofs.Heap.Nesting

/-!
# Copying and comparing structs ends

`Heap.clone` and `Heap.equal` recurse through nested structs, with a bound on the depth.  This file
describes the recursions without the bound, as derivations.  `Heap.Copies` is the copying of some
items one after the other, `Heap.Compares` the comparison of some pairs of items; a derivation is a
recursion that ends.

* `Heap.copies_clone` and `Heap.compares_equal` — if nesting is well-founded the recursions end, and
  the bound is never what ends them;
* `Heap.Copies.fresh` and `Heap.Copies.new` — copies are new structs, and only new structs are
  nested in them.
-/

set_option autoImplicit false

namespace DryRun

/-! ## The recursions -/

namespace Heap

/-- Items are copied: a struct by a new one with copies of its elements, anything else is shared. -/
inductive Copies : Heap → List Item → Heap → List Item → Prop where
  /-- There is nothing to copy. -/
  | nil (heap : Heap) : Copies heap [] heap []
  /-- What is no struct is shared. -/
  | share {heap after : Heap} {item : Item} {items copies : List Item}
    (other : ∀ id, item ≠ .seq ⟨.struct, id⟩) (rest : Copies heap items after copies) :
    Copies heap (item :: items) after (item :: copies)
  /-- A struct is made anew. -/
  | copy {heap middle after : Heap} {id : Nat} {inner items copies : List Item}
    (elements : Copies heap (heap.elements ⟨.struct, id⟩) middle inner)
    (rest : Copies (middle.makeSequence .struct inner).1 items after copies) :
    Copies heap (.seq ⟨.struct, id⟩ :: items) after
      (.seq (middle.makeSequence .struct inner).2 :: copies)

/-- Are two items the same, of which one is no struct? -/
def same : Item → Item → Bool
  | .prim a, .prim b => a.toBytes == b.toBytes
  | a, b => a == b

/-- Pairs of items are compared one after the other, up to the first that differs: two structs by
their elements, anything else as it is. -/
inductive Compares (heap : Heap) : List (Item × Item) → Bool → Prop where
  /-- There is nothing to compare. -/
  | nil : Compares heap [] true
  /-- Two items that are not both structs are the same. -/
  | agree {a b : Item} {rest : List (Item × Item)} {answer : Bool}
    (shallow : ∀ i j, ¬ (a = .seq ⟨.struct, i⟩ ∧ b = .seq ⟨.struct, j⟩)) (equal : same a b = true)
    (others : Compares heap rest answer) : Compares heap ((a, b) :: rest) answer
  /-- Two items that are not both structs differ. -/
  | differ {a b : Item} {rest : List (Item × Item)}
    (shallow : ∀ i j, ¬ (a = .seq ⟨.struct, i⟩ ∧ b = .seq ⟨.struct, j⟩))
    (different : same a b = false) : Compares heap ((a, b) :: rest) false
  /-- A struct is equal to itself. -/
  | itself {i : Nat} {rest : List (Item × Item)} {answer : Bool}
    (others : Compares heap rest answer) :
    Compares heap ((.seq ⟨.struct, i⟩, .seq ⟨.struct, i⟩) :: rest) answer
  /-- Two structs have not as many elements. -/
  | lengths {i j : Nat} {rest : List (Item × Item)} (other : i ≠ j)
    (different : (heap.elements ⟨.struct, i⟩).length ≠ (heap.elements ⟨.struct, j⟩).length) :
    Compares heap ((.seq ⟨.struct, i⟩, .seq ⟨.struct, j⟩) :: rest) false
  /-- Some elements of two structs differ. -/
  | unequal {i j : Nat} {rest : List (Item × Item)} (other : i ≠ j)
    (lengths : (heap.elements ⟨.struct, i⟩).length = (heap.elements ⟨.struct, j⟩).length)
    (elements : Compares heap
      ((heap.elements ⟨.struct, i⟩).zip (heap.elements ⟨.struct, j⟩)) false) :
    Compares heap ((.seq ⟨.struct, i⟩, .seq ⟨.struct, j⟩) :: rest) false
  /-- No elements of two structs differ. -/
  | equal {i j : Nat} {rest : List (Item × Item)} {answer : Bool} (other : i ≠ j)
    (lengths : (heap.elements ⟨.struct, i⟩).length = (heap.elements ⟨.struct, j⟩).length)
    (elements : Compares heap
      ((heap.elements ⟨.struct, i⟩).zip (heap.elements ⟨.struct, j⟩)) true)
    (others : Compares heap rest answer) :
    Compares heap ((.seq ⟨.struct, i⟩, .seq ⟨.struct, j⟩) :: rest) answer

variable {heap after : Heap} {items copies : List Item}

namespace Copies

theorem grows (h : Copies heap items after copies) : Grows heap after := by
  induction h with
  | nil heap => exact .refl heap
  | share _ _ ih => exact ih
  | @copy _ middle _ _ inner _ _ _ _ ih₁ ih₂ =>
    exact (ih₁.trans (.makeSequence middle .struct inner)).trans ih₂

theorem length_eq (h : Copies heap items after copies) : copies.length = items.length := by
  induction h with
  | nil => rfl
  | share _ _ ih => rw [List.length_cons, List.length_cons, ih]
  | copy _ _ _ ih => rw [List.length_cons, List.length_cons, ih]

/-- Copying one item and then the others. -/
theorem cons {middle : Heap} {item copied : Item} (first : Copies heap [item] middle [copied])
    (rest : Copies middle items after copies) :
    Copies heap (item :: items) after (copied :: copies) := by
  cases first with
  | share other first =>
    cases first
    exact .share other rest
  | copy elements first =>
    cases first
    exact .copy elements rest

/-- **Copies are new**, and only new structs are nested in new ones. -/
theorem fresh (h : Copies heap items after copies) {n : Nat} (older : n ≤ heap.structs.size)
    (closed : ∀ a, n ≤ a → ∀ b, heap.Nests a b → n ≤ b) :
    (∀ a, n ≤ a → ∀ b, after.Nests a b → n ≤ b) ∧
      ∀ b, .seq ⟨.struct, b⟩ ∈ copies → n ≤ b := by
  induction h with
  | nil heap => exact ⟨closed, fun b mem => absurd mem List.not_mem_nil⟩
  | share other _ ih =>
    obtain ⟨closed, new⟩ := ih older closed
    refine ⟨closed, fun b mem => ?_⟩
    rcases List.mem_cons.1 mem with same | mem
    · exact absurd same.symm (other b)
    · exact new b mem
  | @copy heap middle after id inner items copies elements rest ih₁ ih₂ =>
    obtain ⟨closed₁, new₁⟩ := ih₁ older closed
    have grown : heap.structs.size ≤ middle.structs.size := elements.grows.sequences .struct
    -- the struct that is made holds the copies of the elements, and these are new
    have closed₂ : ∀ a, n ≤ a → ∀ b, (middle.makeSequence .struct inner).1.Nests a b → n ≤ b := by
      intro a ha b nested
      rw [Nests, elements_makeSequence] at nested
      split at nested
      · exact new₁ b nested
      · exact closed₁ a ha b nested
    have more : n ≤ (middle.makeSequence .struct inner).1.structs.size :=
      Nat.le_trans (Nat.le_trans older grown)
        ((Grows.makeSequence middle .struct inner).sequences .struct)
    obtain ⟨closed, new⟩ := ih₂ more closed₂
    refine ⟨closed, fun b mem => ?_⟩
    rcases List.mem_cons.1 mem with same | mem
    · rw [makeSequence_snd] at same
      cases same
      exact Nat.le_trans older grown
    · exact new b mem

/-- A copy is new with all that is nested in it. -/
theorem new (h : Copies heap items after copies) {c : Nat} (mem : .seq ⟨.struct, c⟩ ∈ copies) :
    ∀ b ∈ after.nest c, ¬ heap.Has (.seq ⟨.struct, b⟩) := by
  -- structs are numbered as they are made, so the new ones are those from the old size on
  have nothing (a : Nat) (ha : heap.structs.size ≤ a) (b : Nat) : ¬ heap.Nests a b := by
    intro nested
    rw [Nests, elements, Array.getElem?_eq_none ha] at nested
    cases nested
  obtain ⟨closed, new⟩ := h.fresh (Nat.le_refl _) fun a ha b nested =>
    absurd nested (nothing a ha b)
  intro b way
  suffices heap.structs.size ≤ b from Nat.not_lt.2 this
  induction way with
  | refl => exact new c mem
  | tail _ step ih => exact closed _ ih _ step

end Copies

/-! ## Copying ends -/

theorem cloneWithin_of_not_struct {item : Item} (h : ∀ id, item ≠ .seq ⟨.struct, id⟩)
    (fuel : Nat) : cloneWithin fuel item = pure item := by
  match item with
  | .seq ⟨.struct, id⟩ => exact absurd rfl (h id)
  | .seq ⟨.array, _⟩ | .prim _ | .map _ | .handle _ => cases fuel <;> rfl

/-- Items that are copied one after the other, each as it should be. -/
theorem copies_mapM {base : Heap} {copy : Item → StateM Heap Item} {items : List Item}
    (each : ∀ item ∈ items, ∀ heap, Grows base heap →
      Copies heap [item] ((copy item).run heap).2 [((copy item).run heap).1])
    (grown : Grows base heap) :
    Copies heap items ((items.mapM copy).run heap).2 ((items.mapM copy).run heap).1 := by
  induction items generalizing heap with
  | nil => exact .nil heap
  | cons item items ih =>
    rw [List.forall_mem_cons] at each
    rw [List.mapM_cons]
    have first := each.1 heap grown
    exact first.cons (ih each.2 (grown.trans first.grows))

section

variable {base : Heap} (names : ∀ a, ∀ item ∈ base.elements ⟨.struct, a⟩, base.Has item)
include names

/-- A heap that has grown has the old structs as they were, so the bound on the depth still holds
while copies are being made. -/
theorem copies_cloneWithin {fuel : Nat} {item : Item} (made : base.Has item)
    (below : base.NestedBelow fuel item) (grown : Grows base heap) :
    Copies heap [item] ((cloneWithin fuel item).run heap).2
      [((cloneWithin fuel item).run heap).1] := by
  induction fuel generalizing item heap with
  | zero =>
    rcases struct_or_not item with ⟨id, rfl⟩ | other
    · exact below.elim
    · rw [cloneWithin_of_not_struct other]
      exact .share other (.nil heap)
  | succ fuel ih =>
    rcases struct_or_not item with ⟨id, rfl⟩ | other
    · refine .copy (copies_mapM (fun inner mem heap' grown' => ?_) grown) (.nil _)
      rw [grown.elements _ made] at mem
      exact ih (names id inner mem) (below inner mem) grown'
    · rw [cloneWithin_of_not_struct other]
      exact .share other (.nil heap)

end

/-- **Copying ends.** -/
theorem copies_clone (h : heap.WellNested)
    (names : ∀ a, ∀ item ∈ heap.elements ⟨.struct, a⟩, heap.Has item) {item : Item}
    (made : heap.Has item) : Copies heap [item] (heap.clone item).1 [(heap.clone item).2] :=
  copies_cloneWithin names made (nestedBelow_of_wellNested h names made) (.refl heap)

/-! ## Comparing ends -/

theorem equalWithin_of_not_structs {a b : Item}
    (h : ∀ i j, ¬ (a = .seq ⟨.struct, i⟩ ∧ b = .seq ⟨.struct, j⟩)) (fuel : Nat) :
    heap.equalWithin fuel a b = same a b := by
  rw [equalWithin.eq_def, same.eq_def]
  split
  · rfl
  · exact absurd ⟨rfl, rfl⟩ (h _ _)
  · next notPrims _ =>
    split
    · exact (notPrims _ _ rfl rfl).elim
    · rfl

/-- Pairs are compared as they should be if those inside of structs are. -/
theorem compares_all_of_inner {fuel : Nat}
    (inner : ∀ n, fuel = n + 1 → ∀ pairs : List (Item × Item),
      (∀ pair ∈ pairs, heap.NestedBelow n pair.1) →
      Compares heap pairs (pairs.all fun (a, b) => heap.equalWithin n a b))
    {pairs : List (Item × Item)} (below : ∀ pair ∈ pairs, heap.NestedBelow fuel pair.1) :
    Compares heap pairs (pairs.all fun (a, b) => heap.equalWithin fuel a b) := by
  induction pairs with
  | nil => exact .nil
  | cons pair rest ih =>
    obtain ⟨a, b⟩ := pair
    rw [List.forall_mem_cons] at below
    rw [List.all_cons]
    dsimp only at below ⊢
    have others := ih below.2
    -- only two structs are compared with less fuel
    by_cases structs : ∃ i j, a = .seq ⟨.struct, i⟩ ∧ b = .seq ⟨.struct, j⟩
    · obtain ⟨i, j, rfl, rfl⟩ := structs
      cases fuel with
      | zero => exact below.1.elim
      | succ n =>
        rw [equalWithin]
        by_cases other : i = j
        · subst other
          rw [beq_self_eq_true, Bool.true_or, Bool.true_and]
          exact .itself others
        · rw [beq_false_of_ne other, Bool.false_or]
          by_cases lengths :
              (heap.elements ⟨.struct, i⟩).length = (heap.elements ⟨.struct, j⟩).length
          · have elements := inner n rfl
              ((heap.elements ⟨.struct, i⟩).zip (heap.elements ⟨.struct, j⟩))
              fun pair mem => below.1 pair.1 (List.of_mem_zip mem).1
            rw [beq_iff_eq.2 lengths, Bool.true_and]
            cases answer : ((heap.elements ⟨.struct, i⟩).zip (heap.elements ⟨.struct, j⟩)).all
                fun (a, b) => heap.equalWithin n a b with
            | false =>
              rw [answer] at elements
              exact .unequal other lengths elements
            | true =>
              rw [answer] at elements
              exact .equal other lengths elements others
          · rw [beq_false_of_ne lengths]
            exact .lengths other lengths
    · have shallow : ∀ i j, ¬ (a = .seq ⟨.struct, i⟩ ∧ b = .seq ⟨.struct, j⟩) :=
        fun i j both => structs ⟨i, j, both⟩
      rw [equalWithin_of_not_structs shallow]
      cases answer : same a b with
      | false => exact .differ shallow answer
      | true => exact .agree shallow answer others

/-- Comparing ends within the depth of nesting of the items on the left. -/
theorem compares_all {fuel : Nat} {pairs : List (Item × Item)}
    (below : ∀ pair ∈ pairs, heap.NestedBelow fuel pair.1) :
    Compares heap pairs (pairs.all fun (a, b) => heap.equalWithin fuel a b) := by
  induction fuel generalizing pairs with
  | zero => exact compares_all_of_inner (fun n no => by cases no) below
  | succ fuel ih =>
    refine compares_all_of_inner (fun n same pairs inside => ?_) below
    cases same
    exact ih inside

/-- **Comparing ends.** -/
theorem compares_equal (h : heap.WellNested)
    (names : ∀ a, ∀ item ∈ heap.elements ⟨.struct, a⟩, heap.Has item) {a : Item}
    (made : heap.Has a) (b : Item) : Compares heap [(a, b)] (heap.equal a b) := by
  have below : ∀ pair ∈ [(a, b)], heap.NestedBelow heap.structs.size pair.1 :=
    List.forall_mem_singleton.2 (nestedBelow_of_wellNested h names made)
  have all := compares_all below
  rwa [List.all_cons, List.all_nil, Bool.and_true] at all

end Heap

end DryRun
