import DryRun.Proofs.Heap.Struct
import DryRun.Proofs.Number.TwosComplement
import Mathlib.Data.List.Forall2

/-!
# When items are equal

Items are compared by methods of their own: each kind of item has one, and the item on the left is
asked.  This file says what they come to together.

* `Primitive.equals_eq` — two plain values are equal if their byte forms are, though integers and
  truth values are compared by what they are with their like.  An integer has a byte form of its
  own, so that this makes no difference.
* `Heap.equal_iff_matches` — apart from plain values and structs, an item equals only itself; a
  struct equals one with equal elements.
* `Heap.equal_symm`, `Heap.equal_trans` — this is an equivalence, by induction on how structs are
  nested.
* `Entries.sameEntry_iff` — plain values with the same byte form are one key of a map.
-/

set_option autoImplicit false

namespace DryRun

/-! ## Plain values -/

/-- Are two plain values equal, the way the left one has it?  A byte string is compared with the
byte form of the other value, and so are integers and truth values, but two of these by what they
are. -/
def Primitive.equals : Primitive → Primitive → Bool
  | .int a, .int b => a == b
  | .bool a, .bool b => a == b
  | a, b => a.toBytes == b.toBytes

/-- An integer has a byte form of its own. -/
theorem TwosComplement.encode_injective : Function.Injective encode :=
  Function.LeftInverse.injective decode_encode

/-- **Byte forms decide**, whichever of the two is asked. -/
theorem Primitive.equals_eq (a b : Primitive) : a.equals b = (a.toBytes == b.toBytes) := by
  cases a with
  | bytes a => rfl
  | int a =>
    cases b with
    | int b =>
      exact Bool.eq_iff_iff.2 (by simp [equals, toBytes, TwosComplement.encode_injective.eq_iff])
    | _ => rfl
  | bool a =>
    cases b with
    | bool b => cases a <;> cases b <;> rfl
    | _ => rfl

namespace Heap

variable {heap : Heap}

/-! ## One comparison -/

/-- Two items match if they are the same one, plain values with the same byte form, or structs with
as many elements that are related by `R`. -/
inductive Matches (heap : Heap) (R : Item → Item → Prop) : Item → Item → Prop where
  /-- The same item. -/
  | itself (a : Item) : Matches heap R a a
  /-- Plain values, of whatever kind. -/
  | plain {a b : Primitive} (same : a.toBytes = b.toBytes) : Matches heap R (.prim a) (.prim b)
  /-- Structs. -/
  | structs {i j : Nat}
    (elements : List.Forall₂ R (heap.elements ⟨.struct, i⟩) (heap.elements ⟨.struct, j⟩)) :
    Matches heap R (.seq ⟨.struct, i⟩) (.seq ⟨.struct, j⟩)

theorem equalWithin_self (heap : Heap) (fuel : Nat) (a : Item) :
    heap.equalWithin fuel a a = true := by
  rw [equalWithin.eq_def]
  split <;> simp

/-- Structs are compared one with the other, other items are not looked into. -/
theorem structs_or_not (a b : Item) :
    (∃ i j, a = .seq ⟨.struct, i⟩ ∧ b = .seq ⟨.struct, j⟩) ∨
      ∀ i j, ¬(a = .seq ⟨.struct, i⟩ ∧ b = .seq ⟨.struct, j⟩) := by
  by_cases structs : ∃ i j, a = .seq ⟨.struct, i⟩ ∧ b = .seq ⟨.struct, j⟩
  · exact .inl structs
  · exact .inr fun i j both => structs ⟨i, j, both⟩

/-- To a greater depth than there is, nothing else is found. -/
theorem equalWithin_of_nestedBelow {fuel more : Nat} {a b : Item}
    (below : heap.NestedBelow fuel a) (le : fuel ≤ more) :
    heap.equalWithin more a b = heap.equalWithin fuel a b := by
  induction fuel generalizing more a b with
  | zero =>
    rcases structs_or_not a b with ⟨i, j, rfl, rfl⟩ | shallow
    · exact below.elim
    · rw [equalWithin_of_not_structs shallow, equalWithin_of_not_structs shallow]
  | succ fuel ih =>
    rcases structs_or_not a b with ⟨i, j, rfl, rfl⟩ | shallow
    · obtain ⟨more, rfl⟩ := Nat.exists_eq_add_of_lt le
      rw [equalWithin, equalWithin]
      congr 2
      rw [Bool.eq_iff_iff, List.all_eq_true, List.all_eq_true]
      refine forall₂_congr fun pair mem => ?_
      obtain ⟨x, y⟩ := pair
      dsimp only
      rw [ih (below x (List.of_mem_zip mem).1) (Nat.le_add_right fuel more)]
    · rw [equalWithin_of_not_structs shallow, equalWithin_of_not_structs shallow]

theorem all_zip_iff {f : Item → Item → Bool} {l r : List Item} :
    (l.length == r.length && (l.zip r).all fun (x, y) => f x y) = true ↔
      List.Forall₂ (fun x y => f x y = true) l r := by
  rw [List.forall₂_iff_zip, Bool.and_eq_true, beq_iff_eq, List.all_eq_true]
  exact and_congr_right fun _ => ⟨fun h a b mem => h (a, b) mem, fun h pair mem => h mem⟩

section

variable (nesting : heap.WellNested)
  (names : ∀ a, ∀ item ∈ heap.elements ⟨.struct, a⟩, heap.Has item)
include nesting names

/-- Structs are equal if they have as many elements, and these are equal one by one. -/
theorem equal_structs_iff {i : Nat} (made : heap.Has (.seq ⟨.struct, i⟩)) (j : Nat) :
    heap.equal (.seq ⟨.struct, i⟩) (.seq ⟨.struct, j⟩) = true ↔
      List.Forall₂ (fun x y => heap.equal x y = true) (heap.elements ⟨.struct, i⟩)
        (heap.elements ⟨.struct, j⟩) := by
  have below := nestedBelow_of_wellNested nesting names made
  obtain ⟨n, size⟩ : ∃ n, heap.structs.size = n + 1 :=
    Nat.exists_eq_succ_of_ne_zero (Nat.ne_zero_of_lt made)
  rw [size] at below
  have inner (x : Item) (mem : x ∈ heap.elements ⟨.struct, i⟩) (y : Item) :
      heap.equalWithin n x y = heap.equal x y := by
    rw [equal, size, equalWithin_of_nestedBelow (below x mem) (Nat.le_succ n)]
  rw [equal, size, equalWithin]
  by_cases other : i = j
  · subst other
    rw [beq_self_eq_true, Bool.true_or]
    exact iff_of_true rfl (List.forall₂_same.2 fun x _ => heap.equalWithin_self _ x)
  · rw [beq_false_of_ne other, Bool.false_or, all_zip_iff, List.forall₂_iff_zip,
      List.forall₂_iff_zip]
    refine and_congr_right fun _ => ?_
    constructor
    · intro h x y mem
      exact inner x (List.of_mem_zip mem).1 y ▸ h mem
    · intro h x y mem
      exact (inner x (List.of_mem_zip mem).1 y).symm ▸ h mem

/-- **What equality is**: one comparison, in which the elements of structs are equal. -/
theorem equal_iff_matches {a : Item} (made : heap.Has a) (b : Item) :
    heap.equal a b = true ↔ heap.Matches (fun x y => heap.equal x y = true) a b := by
  constructor
  · intro equal_
    rcases structs_or_not a b with ⟨i, j, rfl, rfl⟩ | shallow
    · exact .structs ((equal_structs_iff nesting names made j).1 equal_)
    · rw [equal, equalWithin_of_not_structs shallow, same.eq_def] at equal_
      split at equal_
      · exact .plain (beq_iff_eq.1 equal_)
      · rw [beq_iff_eq.1 equal_]
        exact .itself b
  · rintro (_ | same | elements)
    · exact heap.equalWithin_self _ a
    · rw [equal, equalWithin_of_not_structs (by rintro _ _ ⟨⟨⟩, -⟩)]
      exact beq_iff_eq.2 same
    · exact (equal_structs_iff nesting names made _).2 elements

/-! ## An equivalence -/

theorem equal_symm {a b : Item} (ha : heap.Has a) (hb : heap.Has b)
    (h : heap.equal a b = true) : heap.equal b a = true := by
  induction a using nesting.item_induction generalizing b with
  | other a notStruct =>
    rw [equal_iff_matches nesting names ha] at h
    rw [equal_iff_matches nesting names hb]
    cases h with
    | itself => exact .itself a
    | plain same => exact .plain same.symm
    | structs => exact absurd rfl (notStruct _)
  | struct i ih =>
    rw [equal_iff_matches nesting names ha] at h
    rw [equal_iff_matches nesting names hb]
    cases h with
    | itself => exact .itself _
    | structs elements =>
      rw [List.forall₂_iff_get] at elements
      refine .structs (List.forall₂_iff_get.2 ⟨elements.1.symm, fun n h₁ h₂ => ?_⟩)
      exact ih _ (List.get_mem _ _) (names _ _ (List.get_mem _ _)) (names _ _ (List.get_mem _ _))
        (elements.2 n h₂ h₁)

theorem equal_trans {a b c : Item} (ha : heap.Has a) (hb : heap.Has b)
    (h : heap.equal a b = true) (k : heap.equal b c = true) : heap.equal a c = true := by
  induction a using nesting.item_induction generalizing b c with
  | other a notStruct =>
    rw [equal_iff_matches nesting names ha] at h ⊢
    rw [equal_iff_matches nesting names hb] at k
    cases h with
    | itself => exact k
    | plain same =>
      cases k with
      | itself => exact .plain same
      | plain same' => exact .plain (same.trans same')
    | structs => exact absurd rfl (notStruct _)
  | struct i ih =>
    rw [equal_iff_matches nesting names ha] at h ⊢
    rw [equal_iff_matches nesting names hb] at k
    cases h with
    | itself => exact k
    | structs elements =>
      cases k with
      | itself => exact .structs elements
      | structs elements' =>
        rw [List.forall₂_iff_get] at elements elements'
        refine .structs (List.forall₂_iff_get.2
          ⟨elements.1.trans elements'.1, fun n h₁ h₂ => ?_⟩)
        exact ih _ (List.get_mem _ _) (names _ _ (List.get_mem _ _))
          (names _ _ (List.get_mem _ _)) (elements.2 n h₁ (elements.1 ▸ h₁))
          (elements'.2 n (elements.1 ▸ h₁) h₂)

end

end Heap

/-! ## Keys of maps -/

/-- Two items stand for the same entry of a map: reading, asking for, dropping and replacing an
entry comes to the same under both. -/
structure Entries.SameEntry (entries : Entries) (a b : Item) : Prop where
  /-- The same value is read under both keys. -/
  get : entries.get a = entries.get b
  /-- There is an entry under both keys or under neither. -/
  has : entries.has a = entries.has b
  /-- The same entry is dropped under both keys. -/
  remove : entries.remove a = entries.remove b
  /-- A value can be put under both keys or under neither. -/
  room : ∀ value, (∃ after, entries.set a value = .ok after) ↔
    ∃ after, entries.set b value = .ok after
  /-- A value that is put under the first key is read under the second. -/
  set : ∀ value after, entries.set a value = .ok after → after.get b = .ok value

namespace Entries

variable {entries after : Entries} {p q : Primitive}

theorem get_prim (entries : Entries) (p : Primitive) :
    entries.get (.prim p) =
      match entries.find? p.toBytes with
      | some (_, value) => .ok value
      | none => .error .keyNotFound := rfl

theorem has_prim (entries : Entries) (p : Primitive) :
    entries.has (.prim p) = .ok (entries.contains p.toBytes) := rfl

theorem remove_prim (entries : Entries) (p : Primitive) :
    entries.remove (.prim p) = .ok (entries.erase p.toBytes) := rfl

theorem set_prim (entries : Entries) (p : Primitive) (value : Item) :
    entries.set (.prim p) value =
      if entries.contains p.toBytes ∨ entries.size < maxCollectionSize then
        .ok (Table.insert entries (p, value))
      else .error .mapFull := rfl

/-- **The byte form is the key.** -/
theorem sameEntry_iff (p q : Primitive) :
    (∀ entries : Entries, entries.SameEntry (.prim p) (.prim q)) ↔ p.toBytes = q.toBytes := by
  constructor
  · intro same
    -- a map that has an entry under `p` only
    have has := (same (Table.insert .empty (p, default))).has
    rw [has_prim, has_prim, Table.contains, Table.contains, Table.find?_insert, Table.find?_insert,
      if_pos (show Entry.key (p, default) = p.toBytes from rfl)] at has
    by_contra other
    rw [if_neg (show Entry.key (p, default) ≠ q.toBytes from other)] at has
    cases has
  · intro same entries
    refine ⟨?_, ?_, ?_, fun value => ?_, fun value after put => ?_⟩
    · rw [get_prim, get_prim, same]
    · rw [has_prim, has_prim, same]
    · rw [remove_prim, remove_prim, same]
    · rw [set_prim, set_prim, same]
      split
      · exact iff_of_true ⟨_, rfl⟩ ⟨_, rfl⟩
      · exact Iff.rfl
    · rw [set_prim] at put
      split at put
      · cases put
        rw [get_prim, Table.find?_insert, if_pos (show Entry.key (p, value) = q.toBytes from same)]
      · cases put

end Entries

/-! ## The laws -/

/-- What equality comes to in a heap. -/
structure Heap.EqualityLaws (heap : Heap) : Prop where
  /-- Every item equals itself. -/
  refl : ∀ a, heap.equal a a = true
  /-- It does not matter which of two items is compared with the other. -/
  symm : ∀ a b, heap.Has a → heap.Has b → heap.equal a b = heap.equal b a
  /-- If an item equals another one and this equals a third one, the first equals the third. -/
  trans : ∀ a b c, heap.Has a → heap.Has b → heap.Has c →
    heap.equal a b = true → heap.equal b c = true → heap.equal a c = true
  /-- Plain values are compared in the way of the left one. -/
  plain : ∀ p q, heap.equal (.prim p) (.prim q) = p.equals q
  /-- Plain values are equal exactly if their byte forms are the same. -/
  bytes : ∀ p q, heap.equal (.prim p) (.prim q) = true ↔ p.toBytes = q.toBytes
  /-- Plain values are equal exactly if they are the same key of every map. -/
  keys : ∀ p q, heap.equal (.prim p) (.prim q) = true ↔
    ∀ entries : Entries, entries.SameEntry (.prim p) (.prim q)
  /-- Structs are equal if they have as many elements, and these are equal one by one. -/
  structs : ∀ i j, heap.Has (.seq ⟨.struct, i⟩) → heap.Has (.seq ⟨.struct, j⟩) →
    (heap.equal (.seq ⟨.struct, i⟩) (.seq ⟨.struct, j⟩) = true ↔
      List.Forall₂ (fun x y => heap.equal x y = true) (heap.elements ⟨.struct, i⟩)
        (heap.elements ⟨.struct, j⟩))
  /-- Two items that are neither both plain nor both structs are equal only if they are the same
  one. -/
  others : ∀ a b, (∀ p q, ¬(a = .prim p ∧ b = .prim q)) →
    (∀ i j, ¬(a = .seq ⟨.struct, i⟩ ∧ b = .seq ⟨.struct, j⟩)) →
    (heap.equal a b = true ↔ a = b)

theorem Heap.equal_prim (heap : Heap) (p q : Primitive) :
    heap.equal (.prim p) (.prim q) = (p.toBytes == q.toBytes) :=
  equalWithin_of_not_structs (by rintro _ _ ⟨⟨⟩, -⟩) _

/-- **Equality is an equivalence** that agrees with the keys of maps, wherever structs are nested in
a way that ends. -/
theorem Heap.equalityLaws {heap : Heap} (nesting : heap.WellNested)
    (names : ∀ a, ∀ item ∈ heap.elements ⟨.struct, a⟩, heap.Has item) : heap.EqualityLaws where
  refl := heap.equalWithin_self _
  symm a b ha hb := Bool.eq_iff_iff.2
    ⟨equal_symm nesting names ha hb, equal_symm nesting names hb ha⟩
  trans _ _ _ ha hb _ := equal_trans nesting names ha hb
  plain p q := (heap.equal_prim p q).trans (p.equals_eq q).symm
  bytes p q := by rw [heap.equal_prim, beq_iff_eq]
  keys p q := by rw [heap.equal_prim, beq_iff_eq, Entries.sameEntry_iff]
  structs _ j made _ := equal_structs_iff nesting names made j
  others a b notPrims shallow := by
    rw [equal, equalWithin_of_not_structs shallow, same.eq_def]
    split
    · exact absurd ⟨rfl, rfl⟩ (notPrims _ _)
    · exact beq_iff_eq

/-- Two structs with a one each, as an integer and as a truth value, but each with an array of its
own in the second place. -/
example :
    let heap : Heap := ⟨#[[], []], #[[.ofInt 1], [.ofBool true],
      [.seq ⟨.struct, 0⟩, .seq ⟨.array, 0⟩], [.seq ⟨.struct, 1⟩, .seq ⟨.array, 1⟩]], #[], #[]⟩
    heap.equal (.seq ⟨.struct, 0⟩) (.seq ⟨.struct, 1⟩) = true ∧
      heap.equal (.seq ⟨.struct, 2⟩) (.seq ⟨.struct, 3⟩) = false := by
  decide +kernel

end DryRun
