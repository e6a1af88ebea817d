import DryRun.Item.Tree
import DryRun.Proofs.Heap.Forward
import DryRun.Proofs.Heap.Growth

/-!
# What becomes of objects

Objects are made and never removed.  Of those that were made only iterators and assets change: an
iterator moves on, and the registration of an asset is renewed.

* `Heap.Grants heap scriptHash` — some object is the right to write into the storage of a contract.
* `Heap.Retains a b` — from `a` to `b` objects were made, moved on and renewed, and nothing else was
  done to them.  So a storage context stays what it is (`Retains.storageContext`).
* `Heap.Evolves a b` — besides, none of the objects that were made is a right to write.  The changes
  of this kind are gone through one by one (`Evolves.makeObject`, `Evolves.advance`,
  `Evolves.renew`).
* `Heap.SameCollections a b` — from `a` to `b` the collections are the same, as they are after all
  of these changes.
* `Heap.objects_of_object?` — a handle to an object that is no part of another one leads to it
  directly.
-/

set_option autoImplicit false

namespace DryRun

/-! ## Rights to write -/

/-- Some object is the right to write into the storage of a contract. -/
def Heap.Grants (heap : Heap) (scriptHash : Bytes) : Prop :=
  ∃ id : Nat, heap.objects[id]? = some (.storageContext ⟨scriptHash, false⟩)

/-- An object that is not the right to write into a storage. -/
def Object.Harmless : Object → Prop
  | .storageContext context => context.readOnly = true
  | _ => True

/-- An object that is neither a right to write nor an iterator. -/
def Object.Plain : Object → Prop
  | .storageContext context => context.readOnly = true
  | .iterator _ => False
  | _ => True

theorem Object.Plain.harmless {object : Object} (h : object.Plain) : object.Harmless := by
  cases object with
  | storageContext context => exact h
  | _ => exact trivial

namespace Heap

variable {heap : Heap} {scriptHash : Bytes}

theorem not_grants_empty : ¬ empty.Grants scriptHash := by
  rintro ⟨id, h⟩
  cases h

theorem grants_of_objects {heap' : Heap} (h : heap'.objects = heap.objects)
    (k : heap'.Grants scriptHash) : heap.Grants scriptHash := by
  rwa [Grants, h] at k

theorem grants_makeObject {object : Object} (h : (heap.makeObject object).1.Grants scriptHash) :
    heap.Grants scriptHash ∨ object = .storageContext ⟨scriptHash, false⟩ := by
  obtain ⟨id, h⟩ := h
  simp only [makeObject, Array.getElem?_push] at h
  split at h
  · exact .inr (Option.some.inj h)
  · exact .inl ⟨id, h⟩

mutual

/-- Building an item makes collections and does nothing else. -/
theorem grows_build (heap : Heap) : ∀ tree, Grows heap (heap.build tree).1
  | .prim _ => .refl heap
  | .handle _ => .refl heap
  | .cycle => .refl heap
  | .seq kind elements => by
    rw [build]
    exact (grows_buildElements heap elements).trans (.makeSequence _ kind _)
  | .map entries => by
    rw [build]
    exact (grows_buildEntries heap entries).trans (.makeMap _ _)

theorem grows_buildElements (heap : Heap) :
    ∀ trees, Grows heap (heap.buildElements trees).1
  | [] => .refl heap
  | tree :: rest => by
    rw [buildElements]
    exact (grows_build heap tree).trans (grows_buildElements _ rest)

theorem grows_buildEntries (heap : Heap) :
    ∀ entries, Grows heap (heap.buildEntries entries).1
  | [] => .refl heap
  | (key, tree) :: rest => by
    rw [buildEntries]
    exact (grows_build heap tree).trans (grows_buildEntries _ rest)

end

end Heap

/-! ## Parts -/

/-- An object that is no part of another one. -/
def Object.Whole (object : Object) : Prop :=
  ∀ (owner : Object) (part : Part), owner.part? part ≠ some object

namespace Object

theorem whole_storageContext (context : StorageContext) : (storageContext context).Whole := by
  intro owner part
  rw [part?.eq_def]
  split <;> simp

theorem whole_asset (value : Asset) : (asset value).Whole := by
  intro owner part
  rw [part?.eq_def]
  split <;> simp

end Object

/-- A handle to an object that is no part leads to it directly. -/
theorem Heap.objects_of_object? {heap : Heap} {handle : Handle} {object : Object}
    (whole : object.Whole) (h : heap.object? handle = some object) :
    heap.objects[handle.root]? = some object := by
  rw [object?] at h
  generalize heap.objects[handle.root]? = root at h ⊢
  rcases List.eq_nil_or_concat handle.path with path | ⟨before, part, path⟩
  · rwa [path] at h
  · rw [path, List.concat_eq_append, List.foldl_append, List.foldl_cons, List.foldl_nil] at h
    obtain ⟨owner, -, h⟩ := Option.bind_eq_some_iff.1 h
    exact absurd h (whole owner part)

/-! ## Evolving -/

/-- What may become of an object. -/
inductive Object.Becomes : Object → Object → Prop where
  /-- It stays what it is. -/
  | same (object : Object) : Becomes object object
  /-- An iterator moves on. -/
  | moved (old new : Iterator) : Becomes (.iterator old) (.iterator new)
  /-- The registration of an asset is renewed. -/
  | renewed (old new : Asset) : Becomes (.asset old) (.asset new)

namespace Object.Becomes

variable {a b c : Object}

theorem trans (h : Becomes a b) (k : Becomes b c) : Becomes a c := by
  cases h with
  | same => exact k
  | moved old new =>
    cases k with
    | same => exact .moved old new
    | moved _ new => exact .moved old new
  | renewed old new =>
    cases k with
    | same => exact .renewed old new
    | renewed _ new => exact .renewed old new

theorem harmless (h : Becomes a b) (k : a.Harmless) : b.Harmless := by
  cases h with
  | same => exact k
  | moved => exact trivial
  | renewed => exact trivial

/-- What is a storage context afterwards was the same before. -/
theorem of_storageContext {context : StorageContext} (h : Becomes a (.storageContext context)) :
    a = .storageContext context := by
  cases h
  rfl

theorem storageContext {context : StorageContext} (h : Becomes (.storageContext context) b) :
    b = .storageContext context := by
  cases h
  rfl

theorem contract {value : Contract} (h : Becomes (.contract value) b) : b = .contract value := by
  cases h
  rfl

end Object.Becomes

namespace Heap

/-- Objects were made, moved on and renewed, and nothing else became of them. -/
structure Retains (a b : Heap) : Prop where
  /-- There are no fewer objects. -/
  size : a.objects.size ≤ b.objects.size
  /-- What has become of the objects that there were. -/
  old : ∀ (id : Nat) object, a.objects[id]? = some object →
    ∃ object', b.objects[id]? = some object' ∧ object.Becomes object'

/-- Besides, no right to write was handed out. -/
structure Evolves (a b : Heap) : Prop extends Retains a b where
  /-- The new objects are no rights to write. -/
  new : ∀ (id : Nat) object, a.objects.size ≤ id → b.objects[id]? = some object →
    object.Harmless

namespace Retains

variable {a b c : Heap}

theorem of_objects (h : b.objects = a.objects) : Retains a b where
  size := Nat.le_of_eq (by rw [h])
  old _ object found := ⟨object, by rwa [h], .same object⟩

theorem refl (a : Heap) : Retains a a := of_objects rfl

theorem trans (h : Retains a b) (k : Retains b c) : Retains a c where
  size := Nat.le_trans h.size k.size
  old id object found := by
    obtain ⟨middle, found, first⟩ := h.old id object found
    obtain ⟨object', found, second⟩ := k.old id middle found
    exact ⟨object', found, first.trans second⟩

theorem makeObject (heap : Heap) (object : Object) : Retains heap (heap.makeObject object).1 where
  size := by
    show _ ≤ (heap.objects.push object).size
    rw [Array.size_push]
    omega
  old id object' found := by
    refine ⟨object', ?_, .same object'⟩
    show (heap.objects.push object)[id]? = _
    rw [Array.getElem?_push, if_neg, found]
    rintro rfl
    rw [Array.getElem?_eq_none (Nat.le_refl _)] at found
    cases found

/-- **A storage context stays what it is.** -/
theorem storageContext (h : Retains a b) {id : Nat} {context : StorageContext}
    (found : a.objects[id]? = some (.storageContext context)) :
    b.objects[id]? = some (.storageContext context) := by
  obtain ⟨object, found, becomes⟩ := h.old id _ found
  rwa [becomes.storageContext] at found

/-- **A contract stays what it is.** -/
theorem contract (h : Retains a b) {id : Nat} {contract : Contract}
    (found : a.objects[id]? = some (.contract contract)) :
    b.objects[id]? = some (.contract contract) := by
  obtain ⟨object, found, becomes⟩ := h.old id _ found
  rwa [becomes.contract] at found

/-- An object that was there is what has become of what it was. -/
theorem becomes_of_lt (h : Retains a b) {id : Nat} (inside : id < a.objects.size) {object : Object}
    (found : b.objects[id]? = some object) : a.objects[id].Becomes object := by
  obtain ⟨object', found', becomes⟩ := h.old id _ (Array.getElem?_eq_getElem inside)
  rw [found] at found'
  cases found'
  exact becomes

/-- A context that was there was the same context. -/
theorem storageContext_of_lt (h : Retains a b) {id : Nat} (inside : id < a.objects.size)
    {context : StorageContext} (found : b.objects[id]? = some (.storageContext context)) :
    a.objects[id]? = some (.storageContext context) := by
  rw [Array.getElem?_eq_getElem inside, (h.becomes_of_lt inside found).of_storageContext]

end Retains

namespace Evolves

variable {a b c : Heap}

theorem of_objects (h : b.objects = a.objects) : Evolves a b where
  toRetains := .of_objects h
  new id object fresh found := by
    rw [h, Array.getElem?_eq_none fresh] at found
    cases found

theorem refl (a : Heap) : Evolves a a := of_objects rfl

theorem trans (h : Evolves a b) (k : Evolves b c) : Evolves a c where
  toRetains := h.toRetains.trans k.toRetains
  new id object fresh found := by
    rcases Nat.lt_or_ge id b.objects.size with inside | outside
    · -- made in the first part: what has become of it since is still harmless
      have harmless := h.new id _ fresh (Array.getElem?_eq_getElem inside)
      exact (k.becomes_of_lt inside found).harmless harmless
    · exact k.new id object outside found

theorem makeObject {object : Object} (harmless : object.Harmless) (heap : Heap) :
    Evolves heap (heap.makeObject object).1 where
  toRetains := .makeObject heap object
  new id object' fresh found := by
    simp only [Heap.makeObject, Array.getElem?_push] at found
    split at found
    · cases found
      exact harmless
    · rw [Array.getElem?_eq_none fresh] at found
      cases found

/-- Replacing an object by what may become of it. -/
theorem setObject {heap : Heap} {id : Nat} {object object' : Object}
    (found : heap.objects[id]? = some object) (becomes : object.Becomes object') :
    Evolves heap (heap.setObject id object') where
  size := by
    have same : (heap.objects.setIfInBounds id object').size = heap.objects.size :=
      Array.size_setIfInBounds
    exact Nat.le_of_eq same.symm
  old id' there found' := by
    show ∃ after, (heap.objects.setIfInBounds id object')[id']? = some after ∧ _
    by_cases same : id = id'
    · subst same
      rw [found] at found'
      cases found'
      have inside := (Array.getElem?_eq_some_iff.1 found).1
      exact ⟨object', by rw [Array.getElem?_setIfInBounds_self, if_pos inside], becomes⟩
    · exact ⟨there, by rwa [Array.getElem?_setIfInBounds_ne same], .same there⟩
  new id' there fresh found' := by
    have outside : (heap.objects.setIfInBounds id object').size ≤ id' := by
      rwa [Array.size_setIfInBounds]
    rw [Heap.setObject, Array.getElem?_eq_none outside] at found'
    cases found'

theorem setIterator {heap : Heap} {id : Nat} {it : Iterator}
    (found : heap.iterator? id = some it) (it' : Iterator) :
    Evolves heap (heap.setIterator id it') := by
  rw [iterator?] at found
  split at found
  · next old there => exact setObject there (.moved old it')
  · cases found

theorem advanceWithin (fuel id : Nat) (heap : Heap) :
    Evolves heap (Heap.advanceWithin fuel id heap).1 :=
  (advanceWithin_of (R := Evolves) refl trans (fun found _ => setIterator found _) fuel id heap).1

/-- **Moving an iterator** does nothing to objects of other classes. -/
theorem advance (heap : Heap) (id : Nat) : Evolves heap (heap.advance id).1 :=
  advanceWithin (id + 1) id heap

/-- **Renewing an asset** does nothing to other objects. -/
theorem renew {heap : Heap} {handle : Handle} {asset : Asset}
    (found : heap.object? handle = some (.asset asset)) (renewed : Asset) :
    Evolves heap (heap.setObject handle.root (.asset renewed)) :=
  setObject (objects_of_object? (Object.whole_asset asset) found) (.renewed asset renewed)

/-- **No right to write is handed out.** -/
theorem grants (h : Evolves a b) {scriptHash : Bytes} (granted : b.Grants scriptHash) :
    a.Grants scriptHash := by
  obtain ⟨id, found⟩ := granted
  rcases Nat.lt_or_ge id a.objects.size with inside | outside
  · exact ⟨id, h.storageContext_of_lt inside found⟩
  · cases h.new id _ outside found

end Evolves

/-! ## Collections -/

/-- The collections are the same. -/
structure SameCollections (a b : Heap) : Prop where
  /-- The arrays. -/
  arrays : b.arrays = a.arrays
  /-- The structs. -/
  structs : b.structs = a.structs
  /-- The maps. -/
  maps : b.maps = a.maps

namespace SameCollections

variable {a b c : Heap}

theorem refl (a : Heap) : SameCollections a a := ⟨rfl, rfl, rfl⟩

theorem trans (h : SameCollections a b) (k : SameCollections b c) : SameCollections a c :=
  ⟨k.arrays.trans h.arrays, k.structs.trans h.structs, k.maps.trans h.maps⟩

theorem makeObject (heap : Heap) (object : Object) :
    SameCollections heap (heap.makeObject object).1 := ⟨rfl, rfl, rfl⟩

theorem setObject (heap : Heap) (id : Nat) (object : Object) :
    SameCollections heap (heap.setObject id object) := ⟨rfl, rfl, rfl⟩

theorem advanceWithin (fuel id : Nat) (heap : Heap) :
    SameCollections heap (Heap.advanceWithin fuel id heap).1 :=
  (advanceWithin_of (R := SameCollections) refl trans (fun _ _ => setObject _ _ _) fuel id heap).1

theorem advance (heap : Heap) (id : Nat) : SameCollections heap (heap.advance id).1 :=
  advanceWithin (id + 1) id heap

theorem elements (h : SameCollections a b) (s : Sequence) : b.elements s = a.elements s := by
  obtain ⟨kind, id⟩ := s
  cases kind
  · rw [Heap.elements, Heap.elements, h.arrays]
  · rw [Heap.elements, Heap.elements, h.structs]

theorem sequenceCount (h : SameCollections a b) (kind : SequenceKind) :
    b.sequenceCount kind = a.sequenceCount kind := by
  cases kind
  · rw [Heap.sequenceCount, Heap.sequenceCount, h.arrays]
  · rw [Heap.sequenceCount, Heap.sequenceCount, h.structs]

end SameCollections

end Heap

end DryRun
