import DryRun.Heap

/-!
# What a change of the heap does to what is named

Every change of the heap is one of a few: a collection or an object is made, or what a name stands
for is replaced.  For each of them this file says what all names stand for afterwards
(`elements_makeSequence` and the like) and which names there are (`has_makeSequence` and the like),
so that nothing later depends on how the heap is kept.

* `Heap.Has heap item` — what `item` names was made;
* `Heap.Grows a b` — from `a` to `b`, collections were made and nothing else was done.
-/

set_option autoImplicit false

namespace DryRun.Heap

/-- How many sequences of a kind were made. -/
def sequenceCount (heap : Heap) : SequenceKind → Nat
  | .array => heap.arrays.size
  | .struct => heap.structs.size

/-- What an item names, if it names anything, was made. -/
def Has (heap : Heap) : Item → Prop
  | .prim _ => True
  | .seq s => s.id < heap.sequenceCount s.kind
  | .map id => id < heap.maps.size
  | .handle h => h.root < heap.objects.size

instance (heap : Heap) : (item : Item) → Decidable (heap.Has item)
  | .prim _ => inferInstanceAs (Decidable True)
  | .seq s => inferInstanceAs (Decidable (s.id < heap.sequenceCount s.kind))
  | .map id => inferInstanceAs (Decidable (id < heap.maps.size))
  | .handle h => inferInstanceAs (Decidable (h.root < heap.objects.size))

theorem collectionCount_eq (heap : Heap) :
    heap.collectionCount =
      heap.sequenceCount .array + heap.sequenceCount .struct + heap.maps.size := rfl

theorem getD_setIfInBounds {α : Type} (xs : Array α) (i j : Nat) (x default : α) :
    ((xs.setIfInBounds i x)[j]?).getD default =
      if j = i ∧ i < xs.size then x else (xs[j]?).getD default := by
  rw [Array.getElem?_setIfInBounds]
  by_cases same : i = j
  · subst same
    by_cases inside : i < xs.size
    · simp [inside]
    · simp [inside]
  · rw [if_neg same, if_neg fun h => same h.1.symm]

variable (heap : Heap)

/-! ## Sequences -/

section Sequences

variable (kind : SequenceKind) (s t : Sequence) (items : List Item)

theorem makeSequence_snd :
    (heap.makeSequence kind items).2 = ⟨kind, heap.sequenceCount kind⟩ := by
  cases kind <;> rfl

theorem elements_makeSequence :
    (heap.makeSequence kind items).1.elements s =
      if s = ⟨kind, heap.sequenceCount kind⟩ then items else heap.elements s := by
  obtain ⟨kind', id⟩ := s
  cases kind <;> cases kind' <;>
    simp only [makeSequence, elements, sequenceCount, Sequence.mk.injEq, Array.getElem?_push,
      true_and, false_and, reduceCtorEq, if_false] <;>
    split <;> rfl

theorem entries_makeSequence (id : Nat) :
    (heap.makeSequence kind items).1.entries id = heap.entries id := by
  cases kind <;> rfl

theorem maps_makeSequence : (heap.makeSequence kind items).1.maps = heap.maps := by
  cases kind <;> rfl

theorem objects_makeSequence : (heap.makeSequence kind items).1.objects = heap.objects := by
  cases kind <;> rfl

theorem sequenceCount_makeSequence (kind' : SequenceKind) :
    (heap.makeSequence kind items).1.sequenceCount kind' =
      if kind' = kind then heap.sequenceCount kind' + 1 else heap.sequenceCount kind' := by
  cases kind <;> cases kind' <;> simp [makeSequence, sequenceCount]

theorem has_makeSequence (x : Item) :
    (heap.makeSequence kind items).1.Has x ↔
      heap.Has x ∨ x = .seq ⟨kind, heap.sequenceCount kind⟩ := by
  cases x with
  | prim p => simp [Has]
  | seq s =>
    obtain ⟨kind', id⟩ := s
    simp only [Has, sequenceCount_makeSequence, Item.seq.injEq, Sequence.mk.injEq]
    split
    · next same =>
      subst same
      simp only [true_and]
      omega
    · next other => simp [other]
  | map id => simp [Has, maps_makeSequence]
  | handle h => simp [Has, objects_makeSequence]

theorem elements_setElements :
    (heap.setElements s items).elements t =
      if t = s ∧ heap.Has (.seq s) then items else heap.elements t := by
  obtain ⟨kind, id⟩ := s
  obtain ⟨kind', id'⟩ := t
  cases kind <;> cases kind' <;>
    simp only [setElements, elements, Has, sequenceCount, Sequence.mk.injEq, true_and, false_and,
      reduceCtorEq, if_false, getD_setIfInBounds]

theorem entries_setElements (id : Nat) :
    (heap.setElements s items).entries id = heap.entries id := by
  obtain ⟨kind, _⟩ := s
  cases kind <;> rfl

theorem maps_setElements : (heap.setElements s items).maps = heap.maps := by
  obtain ⟨kind, _⟩ := s
  cases kind <;> rfl

theorem objects_setElements : (heap.setElements s items).objects = heap.objects := by
  obtain ⟨kind, _⟩ := s
  cases kind <;> rfl

theorem sequenceCount_setElements :
    (heap.setElements s items).sequenceCount kind = heap.sequenceCount kind := by
  obtain ⟨kind', id⟩ := s
  cases kind <;> cases kind' <;> simp [setElements, sequenceCount]

theorem has_setElements (x : Item) : (heap.setElements s items).Has x ↔ heap.Has x := by
  cases x with
  | prim p => simp [Has]
  | seq s => simp [Has, sequenceCount_setElements]
  | map id => simp [Has, maps_setElements]
  | handle h => simp [Has, objects_setElements]

end Sequences

/-! ## Maps -/

section Maps

variable (entries : Entries) (id id' : Nat)

theorem entries_makeMap :
    (heap.makeMap entries).1.entries id =
      if id = heap.maps.size then entries else heap.entries id := by
  simp only [makeMap, Heap.entries, Array.getElem?_push]
  split <;> rfl

theorem elements_makeMap (s : Sequence) : (heap.makeMap entries).1.elements s = heap.elements s :=
  rfl

theorem has_makeMap (x : Item) :
    (heap.makeMap entries).1.Has x ↔ heap.Has x ∨ x = .map heap.maps.size := by
  cases x with
  | prim p => simp [Has]
  | seq s =>
    obtain ⟨kind, id⟩ := s
    cases kind <;> simp [Has, makeMap, sequenceCount]
  | map id =>
    simp only [Has, makeMap, Array.size_push, Item.map.injEq]
    omega
  | handle h => simp [Has, makeMap]

theorem entries_setEntries :
    (heap.setEntries id entries).entries id' =
      if id' = id ∧ heap.Has (.map id) then entries else heap.entries id' := by
  rw [setEntries, Heap.entries, getD_setIfInBounds]
  rfl

theorem elements_setEntries (s : Sequence) :
    (heap.setEntries id entries).elements s = heap.elements s := rfl

theorem has_setEntries (x : Item) : (heap.setEntries id entries).Has x ↔ heap.Has x := by
  cases x with
  | prim p => simp [Has]
  | seq s =>
    obtain ⟨kind, id⟩ := s
    cases kind <;> simp [Has, setEntries, sequenceCount]
  | map id => simp [Has, setEntries]
  | handle h => simp [Has, setEntries]

end Maps

/-! ## Objects -/

section Objects

variable (object : Object) (id : Nat)

theorem has_makeObject (x : Item) :
    (heap.makeObject object).1.Has x ↔
      heap.Has x ∨ ∃ path, x = .handle ⟨heap.objects.size, path⟩ := by
  cases x with
  | prim p => simp [Has]
  | seq s =>
    obtain ⟨kind, id⟩ := s
    cases kind <;> simp [Has, makeObject, sequenceCount]
  | map id => simp [Has, makeObject]
  | handle h =>
    obtain ⟨root, path⟩ := h
    simp only [Has, makeObject, Array.size_push, Item.handle.injEq, Handle.mk.injEq]
    constructor
    · intro hlt
      rcases Nat.lt_or_ge root heap.objects.size with old | new
      · exact .inl old
      · exact .inr ⟨path, by omega, rfl⟩
    · rintro (old | ⟨_, rfl, _⟩)
      · omega
      · omega

theorem has_setObject (x : Item) : (heap.setObject id object).Has x ↔ heap.Has x := by
  cases x with
  | prim p => simp [Has]
  | seq s =>
    obtain ⟨kind, id⟩ := s
    cases kind <;> simp [Has, setObject, sequenceCount]
  | map id => simp [Has, setObject]
  | handle h => simp [Has, setObject]

end Objects

/-! ## Growing -/

/-- Collections were made, and nothing else was done. -/
structure Grows (a b : Heap) : Prop where
  /-- There are no fewer sequences. -/
  sequences : ∀ kind, a.sequenceCount kind ≤ b.sequenceCount kind
  /-- There are no fewer maps. -/
  maps : a.maps.size ≤ b.maps.size
  /-- The objects are the same. -/
  objects : b.objects = a.objects
  /-- The sequences have the elements they had. -/
  elements : ∀ s, a.Has (.seq s) → b.elements s = a.elements s
  /-- The maps have the entries they had. -/
  entries : ∀ id, a.Has (.map id) → b.entries id = a.entries id

namespace Grows

variable {a b c : Heap}

theorem refl (a : Heap) : Grows a a :=
  ⟨fun _ => Nat.le_refl _, Nat.le_refl _, rfl, fun _ _ => rfl, fun _ _ => rfl⟩

theorem has (h : Grows a b) {x : Item} (hx : a.Has x) : b.Has x := by
  cases x with
  | prim p => trivial
  | seq s => exact Nat.lt_of_lt_of_le hx (h.sequences s.kind)
  | map id => exact Nat.lt_of_lt_of_le hx h.maps
  | handle r =>
    show r.root < b.objects.size
    rw [h.objects]
    exact hx

theorem trans (h : Grows a b) (k : Grows b c) : Grows a c where
  sequences kind := Nat.le_trans (h.sequences kind) (k.sequences kind)
  maps := Nat.le_trans h.maps k.maps
  objects := k.objects.trans h.objects
  elements s hs := (k.elements s (h.has hs)).trans (h.elements s hs)
  entries id hid := (k.entries id (h.has hid)).trans (h.entries id hid)

theorem collectionCount_le (h : Grows a b) : a.collectionCount ≤ b.collectionCount := by
  have arrays := h.sequences .array
  have structs := h.sequences .struct
  have maps := h.maps
  rw [collectionCount_eq, collectionCount_eq]
  omega

theorem makeSequence (heap : Heap) (kind : SequenceKind) (items : List Item) :
    Grows heap (heap.makeSequence kind items).1 where
  sequences kind' := by
    rw [sequenceCount_makeSequence]
    split <;> omega
  maps := Nat.le_of_eq (by rw [maps_makeSequence])
  objects := objects_makeSequence heap kind items
  elements s hs := by
    rw [elements_makeSequence, if_neg]
    rintro rfl
    exact Nat.lt_irrefl _ hs
  entries id _ := entries_makeSequence heap kind items id

theorem makeMap (heap : Heap) (entries : Entries) : Grows heap (heap.makeMap entries).1 where
  sequences kind := by cases kind <;> exact Nat.le_refl _
  maps := by simp [Heap.makeMap]
  objects := rfl
  elements _ _ := rfl
  entries id hid := by
    rw [entries_makeMap, if_neg]
    rintro rfl
    exact Nat.lt_irrefl _ hid

end Grows

end DryRun.Heap
