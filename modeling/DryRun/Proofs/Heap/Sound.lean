import DryRun.Proofs.Chain.Objects
import DryRun.Proofs.Heap.Struct
import DryRun.Proofs.Item.Limits
import DryRun.Proofs.Item.Tree
import DryRun.Proofs.Table

/-!
# Sound heaps

A heap is sound if all that it holds was made, no collection is too large, and structs are nested
in a way that ends.  Which plain values it may hold is left open: `value` says so, and all that is
asked of it is that it is a `Primitive.Standard`, so that the operations on plain values stay
inside of it.

* `Heap.Admits heap value item` — the item may be held by the heap;
* `Heap.Sound heap value` — all that the heap holds may be held by it;
* `Heap.Apart heap s item` — the item is no struct that leads to the sequence `s`.

Each change of a heap has one statement that it keeps the heap sound.  Only one of them asks for
more than that what is put in may be held: what is put into a sequence that is there already must
stand apart from it (`Heap.Sound.setElements`), and copies of structs do (`Heap.Sound.clone`).
-/

set_option autoImplicit false

namespace DryRun

/-! ## Plain values -/

/-- Plain values are chosen so that taking byte forms, cutting bytes and counting them leads to
chosen ones again. -/
class Primitive.Standard (value : Primitive → Prop) : Prop where
  /-- All that are within the limits are chosen. -/
  of_limited : ∀ {p}, p.Limited → value p
  /-- Byte forms are chosen. -/
  toBytes : ∀ {p}, value p → value (.bytes p.toBytes)
  /-- Byte strings that are not longer are chosen. -/
  shorter : ∀ {b c : Bytes}, value (.bytes b) → c.length ≤ b.length → value (.bytes c)
  /-- Lengths are chosen. -/
  length : ∀ {b : Bytes}, value (.bytes b) → value (.int b.length)

/-- A number that is not too large to count items and bytes is in range. -/
theorem Primitive.limited_count {n : Nat} (h : n ≤ maxItemSize) : (Primitive.int n).Limited :=
  inIntegerRange_of_small (by omega)

/-- Truth values are chosen. -/
theorem Primitive.Standard.bool {value : Primitive → Prop} [Primitive.Standard value] (b : Bool) :
    value (.bool b) :=
  have limited : (Primitive.bool b).Limited := trivial
  of_limited limited

/-- All plain values may be chosen. -/
instance : Primitive.Standard fun _ => True :=
  ⟨fun _ => trivial, fun _ => trivial, fun _ _ => trivial, fun _ => trivial⟩

/-- Those within the limits may be chosen. -/
instance : Primitive.Standard Primitive.Limited :=
  ⟨id, Primitive.Limited.length_toBytes_le, fun h k => Nat.le_trans k h, Primitive.limited_count⟩

namespace Heap

/-! ## What a heap may hold -/

/-- A plain value is chosen, and what anything else names was made. -/
def Admits (heap : Heap) (value : Primitive → Prop) : Item → Prop
  | .prim p => value p
  | item => heap.Has item

/-- The items may be the elements of a sequence. -/
def AdmitsElements (heap : Heap) (value : Primitive → Prop) (items : List Item) : Prop :=
  items.length ≤ maxCollectionSize ∧ ∀ item ∈ items, heap.Admits value item

/-- The entries may be those of a map. -/
def AdmitsEntries (heap : Heap) (value : Primitive → Prop) (entries : Entries) : Prop :=
  entries.size ≤ maxCollectionSize ∧
    ∀ entry ∈ entries.rows, value entry.1 ∧ heap.Admits value entry.2

end Heap

/-- The keys and values that an iterator has copied and not yet gone by. -/
def Iterator.held : Iterator → List (Item × Item)
  | .walk _ current rest => current.toList ++ rest
  | _ => []

/-- What an iterator has copied may be held by the heap. -/
def Iterator.Sound (heap : Heap) (value : Primitive → Prop) (it : Iterator) : Prop :=
  ∀ entry ∈ it.held, heap.Admits value entry.1 ∧ heap.Admits value entry.2

/-- What can be read of an object may be held by the heap. -/
def Object.Sound (heap : Heap) (value : Primitive → Prop) : Object → Prop
  | .storageContext _ => True
  | .block b => b.Limited
  | .header h => h.Limited
  | .transaction t => t.Limited
  | .attr a => a.Limited
  | .input i => i.Limited
  | .output o => o.Limited
  | .witness w => w.Limited
  | .account a => a.Limited
  | .asset a => a.Limited
  | .contract c => value (.bytes c.script)
  | .iterator it => it.Sound heap value

/-- Whatever was made in `a` was made in `b`. -/
def Heap.Le (a b : Heap) : Prop := ∀ x, a.Has x → b.Has x

variable {heap heap' : Heap} {value : Primitive → Prop}

/-! ## In a heap with more in it -/

namespace Heap

theorem Le.refl (heap : Heap) : heap.Le heap := fun _ h => h

theorem Le.trans {a b c : Heap} (h : a.Le b) (k : b.Le c) : a.Le c := fun x hx => k x (h x hx)

theorem Grows.le {a b : Heap} (h : Grows a b) : a.Le b := fun _ hx => h.has hx

theorem le_setElements (heap : Heap) (s : Sequence) (items : List Item) :
    heap.Le (heap.setElements s items) :=
  fun x => (has_setElements heap s items x).2

theorem le_setEntries (heap : Heap) (id : Nat) (entries : Entries) :
    heap.Le (heap.setEntries id entries) :=
  fun x => (has_setEntries heap entries id x).2

theorem le_makeObject (heap : Heap) (object : Object) : heap.Le (heap.makeObject object).1 :=
  fun x hx => (has_makeObject heap object x).2 (.inl hx)

theorem le_setObject (heap : Heap) (id : Nat) (object : Object) :
    heap.Le (heap.setObject id object) :=
  fun x => (has_setObject heap object id x).2

theorem Admits.has {item : Item} (h : heap.Admits value item) : heap.Has item := by
  cases item with
  | prim p => exact trivial
  | _ => exact h

theorem Admits.of_has {item : Item} (h : heap.Has item) (chosen : ∀ p, item = .prim p → value p) :
    heap.Admits value item := by
  cases item with
  | prim p => exact chosen p rfl
  | _ => exact h

theorem Admits.mono {item : Item} (h : heap.Admits value item) (le : heap.Le heap') :
    heap'.Admits value item :=
  .of_has (le _ h.has) fun p same => by
    subst same
    exact h

theorem AdmitsElements.mono {items : List Item} (h : heap.AdmitsElements value items)
    (le : heap.Le heap') : heap'.AdmitsElements value items :=
  ⟨h.1, fun item mem => (h.2 item mem).mono le⟩

theorem AdmitsEntries.mono {entries : Entries} (h : heap.AdmitsEntries value entries)
    (le : heap.Le heap') : heap'.AdmitsEntries value entries :=
  ⟨h.1, fun entry mem => ⟨(h.2 entry mem).1, (h.2 entry mem).2.mono le⟩⟩

end Heap

theorem Iterator.Sound.mono {it : Iterator} (h : it.Sound heap value) (le : heap.Le heap') :
    it.Sound heap' value :=
  fun entry mem => ⟨(h entry mem).1.mono le, (h entry mem).2.mono le⟩

theorem Object.Sound.mono {object : Object} (h : object.Sound heap value) (le : heap.Le heap') :
    object.Sound heap' value := by
  cases object with
  | iterator it => exact Iterator.Sound.mono h le
  | _ => exact h

/-! ## Sound heaps -/

namespace Heap

/-- All that a heap holds may be held by it, and its structs are nested in a way that ends. -/
structure Sound (heap : Heap) (value : Primitive → Prop) : Prop where
  /-- The elements of the sequences. -/
  elements : ∀ s, heap.AdmitsElements value (heap.elements s)
  /-- The entries of the maps. -/
  entries : ∀ id, heap.AdmitsEntries value (heap.entries id)
  /-- The objects. -/
  objects : ∀ (id : Nat) object, heap.objects[id]? = some object → object.Sound heap value
  /-- The structs. -/
  nesting : heap.WellNested

/-- The item is not a struct from which one gets to the sequence, if that is a struct, by going
from structs to nested ones. -/
def Apart (heap : Heap) (s : Sequence) (item : Item) : Prop :=
  ∀ a b, s = ⟨.struct, a⟩ → item = .seq ⟨.struct, b⟩ → ¬ Relation.ReflTransGen heap.Nests b a

theorem Sound.names (h : heap.Sound value) (a : Nat) :
    ∀ item ∈ heap.elements ⟨.struct, a⟩, heap.Has item :=
  fun item mem => ((h.elements _).2 item mem).has

theorem admitsElements_nil (heap : Heap) : heap.AdmitsElements value [] :=
  ⟨Nat.zero_le _, fun _ mem => absurd mem List.not_mem_nil⟩

theorem admitsEntries_empty (heap : Heap) : heap.AdmitsEntries value .empty :=
  ⟨Nat.zero_le _, fun _ mem => absurd mem List.not_mem_nil⟩

theorem sound_empty : empty.Sound value where
  elements s := by
    obtain ⟨kind, id⟩ := s
    cases kind <;> exact admitsElements_nil _
  entries id := admitsEntries_empty _
  objects id object found := by cases found
  nesting := ⟨fun a => .intro a fun b nested => absurd nested List.not_mem_nil⟩

/-- A change after which everything is as it was or may be held. -/
theorem Sound.of_change (h : heap.Sound value) (le : heap.Le heap')
    (elements : ∀ s, heap'.elements s = heap.elements s ∨
      heap'.AdmitsElements value (heap'.elements s))
    (entries : ∀ id, heap'.entries id = heap.entries id ∨
      heap'.AdmitsEntries value (heap'.entries id))
    (objects : ∀ (id : Nat) object, heap'.objects[id]? = some object →
      heap.objects[id]? = some object ∨ object.Sound heap' value)
    (nesting : heap'.WellNested) : heap'.Sound value where
  elements s := by
    rcases elements s with same | new
    · rw [same]
      exact (h.elements s).mono le
    · exact new
  entries id := by
    rcases entries id with same | new
    · rw [same]
      exact (h.entries id).mono le
    · exact new
  objects id object found := by
    rcases objects id object found with old | new
    · exact (h.objects id object old).mono le
    · exact new
  nesting := nesting

/-! ### Sequences -/

/-- Only old structs are nested in a new one, and it is nested in none. -/
theorem Sound.makeSequence (h : heap.Sound value) (kind : SequenceKind) {items : List Item}
    (fit : heap.AdmitsElements value items) :
    (heap.makeSequence kind items).1.Sound value := by
  have le := (Grows.makeSequence heap kind items).le
  -- what was there before stands apart from the new struct, since nothing old names it
  have edges (a b : Nat) (nested : (heap.makeSequence kind items).1.Nests a b) :
      heap.Nests a b ∨ heap.Has (.seq ⟨.struct, b⟩) := by
    rw [Nests, elements_makeSequence] at nested
    split at nested
    · exact .inr (fit.2 _ nested).has
    · exact .inl nested
  refine h.of_change le (fun s => ?_) (fun id => .inl (entries_makeSequence heap kind items id))
    (fun id object found => .inl (by rwa [objects_makeSequence] at found))
    (h.nesting.of_change (fun a => heap.Has (.seq ⟨.struct, a⟩)) (fun a old b nested => ?_) edges)
  · rw [elements_makeSequence]
    split
    · exact .inr (fit.mono le)
    · exact .inl rfl
  · rw [Nests, elements_makeSequence, if_neg] at nested
    · exact ⟨nested, h.names a _ nested⟩
    · rintro same
      cases same
      exact Nat.lt_irrefl _ old

/-- **What is put into a sequence must stand apart from it**, if it is not there already. -/
theorem Sound.setElements (h : heap.Sound value) {s : Sequence} {items : List Item}
    (fit : heap.AdmitsElements value items)
    (apart : ∀ item ∈ items, item ∈ heap.elements s ∨ heap.Apart s item) :
    (heap.setElements s items).Sound value := by
  have le := heap.le_setElements s items
  have changed (a b : Nat) (nested : (heap.setElements s items).Nests a b) :
      heap.Nests a b ∨ s = ⟨.struct, a⟩ ∧ heap.Apart s (.seq ⟨.struct, b⟩) := by
    rw [Nests, elements_setElements] at nested
    split at nested
    · next same =>
      rcases apart _ nested with old | new
      · exact .inl (by rwa [Nests, same.1])
      · exact .inr ⟨same.1.symm, new⟩
    · exact .inl nested
  -- a struct that does not lead to `s` keeps its elements, and they do not lead there either
  refine h.of_change le (fun t => ?_) (fun id => .inl (entries_setElements heap s items id))
    (fun id object found => .inl (by rwa [objects_setElements] at found))
    (h.nesting.of_change (fun b => heap.Apart s (.seq ⟨.struct, b⟩)) (fun a hapart b nested => ?_)
      fun a b nested => (changed a b nested).imp id And.right)
  · rw [elements_setElements]
    split
    · exact .inr (fit.mono le)
    · exact .inl rfl
  · rcases changed a b nested with old | ⟨same, -⟩
    · refine ⟨old, fun c d hs hd way => ?_⟩
      cases hd
      exact hapart c a hs rfl (.head old way)
    · exact absurd .refl (hapart a a same rfl)

/-- A sequence may always lose elements and have them in another order. -/
theorem Sound.setElements_of_subset (h : heap.Sound value) {s : Sequence} {items : List Item}
    (length : items.length ≤ (heap.elements s).length) (subset : items ⊆ heap.elements s) :
    (heap.setElements s items).Sound value :=
  h.setElements
    ⟨Nat.le_trans length (h.elements s).1, fun item mem => (h.elements s).2 item (subset mem)⟩
    fun _ mem => .inl (subset mem)

/-- An item that stands apart from a sequence may be put into it. -/
theorem Sound.setElements_of_apart (h : heap.Sound value) {s : Sequence} {item : Item}
    {items : List Item} (length : items.length ≤ maxCollectionSize)
    (inside : ∀ x ∈ items, x ∈ heap.elements s ∨ x = item) (fit : heap.Admits value item)
    (apart : heap.Apart s item) : (heap.setElements s items).Sound value := by
  refine h.setElements ⟨length, fun x mem => ?_⟩ fun x mem => ?_
  · rcases inside x mem with old | rfl
    · exact (h.elements s).2 x old
    · exact fit
  · rcases inside x mem with old | rfl
    · exact .inl old
    · exact .inr apart

/-! ### Maps -/

theorem AdmitsEntries.get {entries : Entries} (h : heap.AdmitsEntries value entries)
    {key item : Item} (found : entries.get key = .ok item) : heap.Admits value item := by
  cases key with
  | prim p =>
    rw [Entries.get] at found
    simp only [Item.toKey, bind, Except.bind] at found
    split at found
    · next key' item' row =>
      cases found
      exact (h.2 _ (List.mem_of_find?_eq_some row)).2
    · cases found
  | seq s => cases found
  | map id => cases found
  | handle r => cases found

/-- Putting an entry into a map that has room for it or its key. -/
theorem AdmitsEntries.set {entries after : Entries} (h : heap.AdmitsEntries value entries)
    {key item : Item} (hkey : heap.Admits value key) (hitem : heap.Admits value item)
    (done : entries.set key item = .ok after) : heap.AdmitsEntries value after := by
  cases key with
  | prim p =>
    rw [Entries.set] at done
    change (if entries.contains p.toBytes ∨ entries.size < maxCollectionSize
      then pure (Table.insert entries (p, item)) else throw .mapFull : Except ItemFault Entries) = _
      at done
    split at done
    · next room =>
      cases done
      refine ⟨?_, Table.forall_mem_place ⟨hkey, hitem⟩ h.2⟩
      rcases room with known | room
      · exact Nat.le_trans (Nat.le_of_eq (Table.size_insert_of_contains entries known)) h.1
      · exact Nat.le_trans (Table.size_insert_le entries (p, item)) room
    · cases done
  | seq s => cases done
  | map id => cases done
  | handle r => cases done

theorem AdmitsEntries.remove {entries after : Entries} (h : heap.AdmitsEntries value entries)
    {key : Item} (done : entries.remove key = .ok after) : heap.AdmitsEntries value after := by
  cases key with
  | prim p =>
    cases done
    refine ⟨Nat.le_trans (Table.size_erase_le entries p.toBytes) h.1, fun entry mem => ?_⟩
    exact h.2 entry (List.mem_of_mem_filter mem)
  | seq s => cases done
  | map id => cases done
  | handle r => cases done

theorem AdmitsEntries.keys {entries : Entries} (h : heap.AdmitsEntries value entries) :
    heap.AdmitsElements value entries.keys := by
  refine ⟨by rw [Entries.keys, List.length_map]; exact h.1, fun item mem => ?_⟩
  obtain ⟨entry, hentry, rfl⟩ := List.mem_map.1 mem
  exact (h.2 entry hentry).1

theorem AdmitsEntries.values {entries : Entries} (h : heap.AdmitsEntries value entries) :
    heap.AdmitsElements value entries.values := by
  refine ⟨by rw [Entries.values, List.length_map]; exact h.1, fun item mem => ?_⟩
  obtain ⟨entry, hentry, rfl⟩ := List.mem_map.1 mem
  exact (h.2 entry hentry).2

theorem Sound.makeMap (h : heap.Sound value) {entries : Entries}
    (fit : heap.AdmitsEntries value entries) : (heap.makeMap entries).1.Sound value := by
  have le := (Grows.makeMap heap entries).le
  refine h.of_change le (fun s => .inl (elements_makeMap heap entries s)) (fun id => ?_)
    (fun id object found => .inl found) (h.nesting.of_nests fun a b nested => nested)
  rw [entries_makeMap]
  split
  · exact .inr (fit.mono le)
  · exact .inl rfl

theorem Sound.setEntries (h : heap.Sound value) (id : Nat) {entries : Entries}
    (fit : heap.AdmitsEntries value entries) : (heap.setEntries id entries).Sound value := by
  have le := heap.le_setEntries id entries
  refine h.of_change le (fun s => .inl (elements_setEntries heap entries id s)) (fun id' => ?_)
    (fun id' object found => .inl found) (h.nesting.of_nests fun a b nested => nested)
  rw [entries_setEntries]
  split
  · exact .inr (fit.mono le)
  · exact .inl rfl

/-! ### Objects -/

theorem Sound.makeObject (h : heap.Sound value) {object : Object} (fit : object.Sound heap value) :
    (heap.makeObject object).1.Sound value := by
  have le := heap.le_makeObject object
  refine h.of_change le (fun s => .inl rfl) (fun id => .inl rfl) (fun id other found => ?_)
    (h.nesting.of_nests fun a b nested => nested)
  simp only [Heap.makeObject, Array.getElem?_push] at found
  split at found
  · cases found
    exact .inr (fit.mono le)
  · exact .inl found

theorem Sound.setObject (h : heap.Sound value) (id : Nat) {object : Object}
    (fit : object.Sound heap value) : (heap.setObject id object).Sound value := by
  have le := heap.le_setObject id object
  refine h.of_change le (fun s => .inl rfl) (fun id => .inl rfl) (fun id' other found => ?_)
    (h.nesting.of_nests fun a b nested => nested)
  simp only [Heap.setObject, Array.getElem?_setIfInBounds] at found
  split at found
  · split at found
    · cases found
      exact .inr (fit.mono le)
    · cases found
  · exact .inl found

end Heap

/-- The parts of an object that is sound are sound. -/
theorem Object.Sound.part? {part : Part} {object found : Object} (h : object.Sound heap value)
    (hfound : object.part? part = some found) : found.Sound heap value := by
  rw [Object.part?.eq_def] at hfound
  split at hfound
  · obtain ⟨t, ht, rfl⟩ := Option.map_eq_some_iff.1 hfound
    exact Block.Limited.transactions h t (List.mem_of_getElem? ht)
  · obtain ⟨a, ha, rfl⟩ := Option.map_eq_some_iff.1 hfound
    exact Transaction.Limited.attributes h a (List.mem_of_getElem? ha)
  · obtain ⟨i, hi, rfl⟩ := Option.map_eq_some_iff.1 hfound
    exact Transaction.Limited.inputs h i (List.mem_of_getElem? hi)
  · obtain ⟨o, ho, rfl⟩ := Option.map_eq_some_iff.1 hfound
    exact Transaction.Limited.outputs h o (List.mem_of_getElem? ho)
  · obtain ⟨w, hw, rfl⟩ := Option.map_eq_some_iff.1 hfound
    exact Transaction.Limited.witnesses h w (List.mem_of_getElem? hw)
  · cases hfound

namespace Heap

/-- **What a handle stands for is sound.** -/
theorem Sound.object? (h : heap.Sound value) {handle : Handle} {object : Object}
    (found : heap.object? handle = some object) : object.Sound heap value := by
  have along (path : List Part) (start : Option Object)
      (sound : ∀ o, start = some o → o.Sound heap value) {o : Object}
      (ho : path.foldl (fun found part => found.bind (Object.part? part)) start = some o) :
      o.Sound heap value := by
    induction path generalizing start with
    | nil => exact sound o ho
    | cons part path ih =>
      refine ih (start.bind (Object.part? part)) (fun o' ho' => ?_) ho
      obtain ⟨whole, hwhole, hpart⟩ := Option.bind_eq_some_iff.1 ho'
      exact (sound whole hwhole).part? hpart
  exact along handle.path _ (fun o ho => h.objects _ o ho) found

/-! ## Copies -/

theorem Copies.sound {after : Heap} {items copies : List Item}
    (h : Copies heap items after copies) (sound : heap.Sound value)
    (fit : ∀ item ∈ items, heap.Admits value item) :
    after.Sound value ∧ ∀ item ∈ copies, after.Admits value item := by
  induction h with
  | nil heap => exact ⟨sound, fit⟩
  | share other rest ih =>
    rw [List.forall_mem_cons] at fit
    obtain ⟨sound', fit'⟩ := ih sound fit.2
    exact ⟨sound', List.forall_mem_cons.2 ⟨fit.1.mono rest.grows.le, fit'⟩⟩
  | @copy heap middle after id inner items copies elements rest ih₁ ih₂ =>
    rw [List.forall_mem_cons] at fit
    have old := sound.elements ⟨.struct, id⟩
    obtain ⟨sound₁, inside⟩ := ih₁ sound old.2
    -- the struct is made after its elements are copied, and before the others are
    have made := sound₁.makeSequence .struct ⟨elements.length_eq ▸ old.1, inside⟩
    have grown := elements.grows.trans (.makeSequence middle .struct inner)
    obtain ⟨sound₂, fit₂⟩ := ih₂ made fun item mem => (fit.2 item mem).mono grown.le
    have new : (middle.makeSequence .struct inner).1.Has
        (.seq (middle.makeSequence .struct inner).2) := by
      rw [makeSequence_snd, has_makeSequence]
      exact .inr rfl
    exact ⟨sound₂, List.forall_mem_cons.2 ⟨rest.grows.le _ new, fit₂⟩⟩

/-- From a new struct one does not get to an old one. -/
theorem Copies.apart {after : Heap} {items copies : List Item}
    (h : Copies heap items after copies) {s : Sequence} (old : heap.Has (.seq s)) :
    ∀ item ∈ copies, after.Apart s item := by
  rintro _ mem a b rfl rfl way
  exact h.new mem a way old

/-- **A copy may be held, and stands apart from all that was there.** -/
theorem Sound.clone (h : heap.Sound value) {item : Item} (fit : heap.Admits value item) :
    (heap.clone item).1.Sound value ∧ Grows heap (heap.clone item).1 ∧
      (heap.clone item).1.Admits value (heap.clone item).2 ∧
      ∀ s, heap.Has (.seq s) → (heap.clone item).1.Apart s (heap.clone item).2 := by
  have copies := copies_clone h.nesting h.names fit.has
  obtain ⟨sound, admitted⟩ := copies.sound h (List.forall_mem_singleton.2 fit)
  exact ⟨sound, copies.grows, List.forall_mem_singleton.1 admitted,
    fun s old => List.forall_mem_singleton.1 (copies.apart old)⟩

/-! ## Items made from trees -/

open DryRun.Tree (Every Plain)

theorem sound_buildElements {trees : List Tree}
    (each : ∀ tree ∈ trees, ∀ heap : Heap, heap.Sound value →
      (heap.build tree).1.Sound value ∧ heap.Le (heap.build tree).1 ∧
        (heap.build tree).1.Admits value (heap.build tree).2) (h : heap.Sound value) :
    (heap.buildElements trees).1.Sound value ∧ heap.Le (heap.buildElements trees).1 ∧
      (heap.buildElements trees).2.length = trees.length ∧
      ∀ item ∈ (heap.buildElements trees).2, (heap.buildElements trees).1.Admits value item := by
  induction trees generalizing heap with
  | nil => exact ⟨h, .refl heap, rfl, fun _ mem => absurd mem List.not_mem_nil⟩
  | cons tree trees ih =>
    rw [List.forall_mem_cons] at each
    rw [buildElements]
    obtain ⟨sound₁, le₁, first⟩ := each.1 heap h
    obtain ⟨sound₂, le₂, length, others⟩ := ih each.2 sound₁
    exact ⟨sound₂, le₁.trans le₂, congrArg (· + 1) length,
      List.forall_mem_cons.2 ⟨first.mono le₂, others⟩⟩

theorem sound_buildEntries {entries : List (Primitive × Tree)}
    (each : ∀ entry ∈ entries, ∀ heap : Heap, heap.Sound value →
      (heap.build entry.2).1.Sound value ∧ heap.Le (heap.build entry.2).1 ∧
        (heap.build entry.2).1.Admits value (heap.build entry.2).2)
    (keys : ∀ entry ∈ entries, value entry.1) (h : heap.Sound value) :
    (heap.buildEntries entries).1.Sound value ∧ heap.Le (heap.buildEntries entries).1 ∧
      (heap.buildEntries entries).2.length = entries.length ∧
      ∀ row ∈ (heap.buildEntries entries).2,
        value row.1 ∧ (heap.buildEntries entries).1.Admits value row.2 := by
  induction entries generalizing heap with
  | nil => exact ⟨h, .refl heap, rfl, fun _ mem => absurd mem List.not_mem_nil⟩
  | cons entry entries ih =>
    obtain ⟨key, tree⟩ := entry
    rw [List.forall_mem_cons] at each keys
    rw [buildEntries]
    obtain ⟨sound₁, le₁, first⟩ := each.1 heap h
    obtain ⟨sound₂, le₂, length, others⟩ := ih each.2 keys.2 sound₁
    exact ⟨sound₂, le₁.trans le₂, congrArg (· + 1) length,
      List.forall_mem_cons.2 ⟨⟨keys.1, first.mono le₂⟩, others⟩⟩

/-- Making an item from a tree within the limits. -/
theorem Sound.build {tree : Tree} (limited : tree.Every (Plain value)) (h : heap.Sound value) :
    (heap.build tree).1.Sound value ∧ heap.Le (heap.build tree).1 ∧
      (heap.build tree).1.Admits value (heap.build tree).2 := by
  induction limited generalizing heap with
  | prim here =>
    rw [build]
    exact ⟨h, .refl heap, here⟩
  | handle here => exact here.elim
  | cycle here => exact here.elim
  | @seq kind elements here _ ih =>
    obtain ⟨sound, le, length, admitted⟩ :=
      sound_buildElements (fun tree mem heap h => ih tree mem h) h
    have made := Grows.makeSequence (heap.buildElements elements).1 kind
      (heap.buildElements elements).2
    rw [build]
    refine ⟨sound.makeSequence kind ⟨length ▸ here, admitted⟩, le.trans made.le, ?_⟩
    show Has _ (.seq _)
    rw [makeSequence_snd, has_makeSequence]
    exact .inr rfl
  | @map entries here _ ih =>
    obtain ⟨sound, le, length, admitted⟩ :=
      sound_buildEntries (fun entry mem heap h => ih entry mem h) here.2 h
    have fit : (heap.buildEntries entries).1.AdmitsEntries value
        (.ofList (heap.buildEntries entries).2) := by
      refine ⟨Nat.le_trans (Table.size_ofList_le _) (length ▸ here.1), ?_⟩
      rw [Table.rows_ofList]
      exact Table.forall_mem_foldl_place (fun _ mem => absurd mem List.not_mem_nil) admitted
    have made := Grows.makeMap (heap.buildEntries entries).1
      (.ofList (heap.buildEntries entries).2)
    rw [build]
    refine ⟨sound.makeMap fit, le.trans made.le, ?_⟩
    exact (has_makeMap _ _ _).2 (.inr rfl)

end Heap

end DryRun
