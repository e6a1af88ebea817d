import DryRun.Proofs.Heap.Copy
import DryRun.Proofs.Machine.Mutation

/-!
# What is copied, and where to

Four instructions copy structs.  Two of them store the copy in a collection, and two push it, alone
or in an array with the copies of the other values of a collection.

* `Place` — where an item can lie, and `Machine.item?`, the item that lies there.
* `Machine.Copying` — where the four instructions find the items that they copy, and where they
  leave the copies.
* `Machine.exists_copying` — an instruction of these that goes well copies something.
* `Machine.Copying.copied` — if what is copied is a struct, what is left is a copy of it
  (`Heap.Copied`).
-/

set_option autoImplicit false

namespace DryRun

variable {σ : Type}

/-! ## Places -/

/-- The values that a collection holds, in order. -/
def Heap.valuesOf (heap : Heap) : Item → List Item
  | .seq s => heap.elements s
  | .map id => (heap.entries id).values
  | _ => []

/-- Where an item lies. -/
inductive Place where
  /-- On top of the evaluation stack. -/
  | top
  /-- Among the elements of a sequence. -/
  | element (s : Sequence) (n : Nat)
  /-- Under a key of a map. -/
  | entry (id : Nat) (key : Primitive)
  /-- Among the values of the collection on top of the evaluation stack. -/
  | inTop (n : Nat)
deriving DecidableEq

namespace Machine

/-- The item that lies at a place. -/
def item? (m : Machine σ) : Place → Option Item
  | .top => m.stack.items.head?
  | .element s n => (m.heap.elements s)[n]?
  | .entry id key => ((m.heap.entries id).get (.prim key)).toOption
  | .inTop n => m.stack.items.head?.bind fun item => (m.heap.valuesOf item)[n]?

/-- An instruction on collections that copies what lies at one place, and leaves the copy at another
one. -/
inductive Copying (m : Machine σ) : CollectionOp → Place → Place → Prop where
  /-- The item on top is stored behind the elements of a sequence. -/
  | append {value : Item} {s : Sequence} {rest : List Item}
    (items : m.stack.items = value :: .seq s :: rest) :
    Copying m .append .top (.element s (m.heap.elements s).length)
  /-- The item on top is stored in the place of an element. -/
  | setElement {value key : Item} {s : Sequence} {rest : List Item} {index : Nat}
    (items : m.stack.items = value :: key :: .seq s :: rest)
    (read : key.toInt = .ok (index : Int)) :
    Copying m .setItem .top (.element s index)
  /-- The item on top is stored under a key. -/
  | setEntry {value : Item} {key : Primitive} {id : Nat} {rest : List Item}
    (items : m.stack.items = value :: .prim key :: .map id :: rest) :
    Copying m .setItem .top (.entry id key)
  /-- An element is pushed. -/
  | pickElement {key : Item} {s : Sequence} {rest : List Item} {index : Nat}
    (items : m.stack.items = key :: .seq s :: rest) (read : key.toInt = .ok (index : Int)) :
    Copying m .pickItem (.element s index) .top
  /-- What is under a key is pushed. -/
  | pickEntry {key : Primitive} {id : Nat} {rest : List Item}
    (items : m.stack.items = .prim key :: .map id :: rest) :
    Copying m .pickItem (.entry id key) .top
  /-- Each value of a collection is in the array that is pushed. -/
  | value (n : Nat) : Copying m .values (.inTop n) (.inTop n)

/-- Operands are where they were before the instruction was read and paid for. -/
theorem Copying.ready {m : Machine σ} {op : CollectionOp} {source dest : Place}
    (h : m.Copying op source dest) (next : Nat) (due : Option Int) :
    (m.ready next due).Copying op source dest := by
  have stack := m.stack_ready next due
  have heap := m.heap_ready next due
  cases h with
  | append items => exact heap ▸ .append (stack ▸ items)
  | setElement items read => exact .setElement (stack ▸ items) read
  | setEntry items => exact .setEntry (stack ▸ items)
  | pickElement items read => exact .pickElement (stack ▸ items) read
  | pickEntry items => exact .pickEntry (stack ▸ items)
  | value n => exact .value n

theorem item?_ready (m : Machine σ) (next : Nat) (due : Option Int) (place : Place) :
    (m.ready next due).item? place = m.item? place := by
  cases place <;> simp [item?]

/-- What is written into is the sequence that the copy is stored in. -/
theorem Copying.eq_of_target? {m : Machine σ} {op : CollectionOp} {source dest : Place}
    {s : Sequence} (h : m.Copying op source dest) (target : op.target? m.stack.items = some s) :
    ∃ n, dest = .element s n := by
  cases h with
  | append items | setElement items =>
    rw [items] at target
    cases target
    exact ⟨_, rfl⟩
  | setEntry items =>
    rw [items] at target
    cases target
  | pickElement | pickEntry | value => cases target

end Machine

/-! ## What the instructions do -/

namespace Exec

variable {std : Machine.Standard σ} {m : Machine σ}

/-- What `pickItem` does where it goes well. -/
inductive Picks (m m' : Machine σ) : Prop where
  /-- A copy of an element has been pushed. -/
  | element {key item : Item} {s : Sequence} {rest : List Item} {index : Nat}
    (items : m.stack.items = key :: .seq s :: rest) (read : key.toInt = .ok (index : Int))
    (there : (m.heap.elements s)[index]? = some item) (heap : m'.heap = (m.heap.clone item).1)
    (pushed : m'.stack.items = (m.heap.clone item).2 :: rest)
  /-- A copy of what is under a key has been pushed. -/
  | entry {key item : Item} {id : Nat} {rest : List Item}
    (items : m.stack.items = key :: .map id :: rest)
    (there : (m.heap.entries id).get key = .ok item) (heap : m'.heap = (m.heap.clone item).1)
    (pushed : m'.stack.items = (m.heap.clone item).2 :: rest)

theorem wp_pickItem : wp pickItem (fun _ m' => Picks m m') (fun _ => True) m := by
  refine wp_bind.2 (wp_pop (fun key rest items => ?_) trivial)
  refine wp_bind.2 (wp_pop (fun item rest' items' => ?_) trivial)
  change rest.items = item :: rest'.items at items'
  rw [items'] at items
  cases item with
  | seq s =>
    refine wp_get_bind.2 (wp_bind.2 (wp_elementIndex _ _ _ (fun index read inside => ?_) trivial))
    have there : (m.heap.elements s)[index]? = some ((m.heap.elements s).getD index default) := by
      rw [List.getD_eq_getElem?_getD, List.getElem?_eq_getElem inside]
      rfl
    exact .element items read there rfl rfl
  | map id =>
    exact wp_get_bind.2 (wp_bind.2 (wp_liftItem (fun found there => .entry items there rfl rfl)
      trivial))
  | prim | handle => exact trivial

/-- Copying items one after the other does so in the heap, and changes nothing else. -/
theorem wp_mapM_copy (sound : m.Sound std) {items : List Item}
    (fit : ∀ item ∈ items, m.heap.Admits std.value item) :
    wp (items.mapM copy) (fun copies m' => m.heap.Copies items m'.heap copies ∧
      m'.stack = m.stack) (fun _ => True) m := by
  induction items generalizing m with
  | nil => exact ⟨.nil m.heap, rfl⟩
  | cons item items ih =>
    rw [List.forall_mem_cons] at fit
    rw [List.mapM_cons]
    have first := Heap.copies_clone sound.heap.nesting sound.heap.names fit.1.has
    obtain ⟨sound', grows, -, -⟩ := sound.heap.clone fit.1
    refine wp_bind.2 (wp_bind.2 ((ih (sound.withHeap sound' grows.le)
      fun item mem => (fit.2 item mem).mono grows.le).mono ?_ fun _ _ => trivial))
    exact fun copies m' ⟨rest, same⟩ => ⟨first.cons rest, same⟩

/-- Copies of items are made, and an array of them is pushed. -/
theorem wp_pushCopies (sound : m.Sound std) {l : List Item}
    (fit : ∀ item ∈ l, m.heap.Admits std.value item) :
    wp (do pushSequence .array (← l.mapM copy)) (fun _ m' => ∃ after copies,
      m.heap.Copies l after copies ∧ m'.heap = (after.makeSequence .array copies).1 ∧
        m'.stack.items = .seq (after.makeSequence .array copies).2 :: m.stack.items)
      (fun _ => True) m := by
  refine wp_bind.2 ((wp_mapM_copy sound fit).mono ?_ fun _ _ => trivial)
  rintro copies m' ⟨made, stack⟩
  rw [← stack]
  exact ⟨m'.heap, copies, made, rfl, rfl⟩

/-- What `values` does where it goes well: it pushes an array with copies of the values of the
collection on top. -/
inductive Lists (m m' : Machine σ) : Prop where
  /-- The array has been made after the copies. -/
  | intro {item : Item} {rest copies : List Item} {after : Heap}
    (items : m.stack.items = item :: rest) (made : ∀ value ∈ m.heap.valuesOf item, m.heap.Has value)
    (copied : m.heap.Copies (m.heap.valuesOf item) after copies)
    (heap : m'.heap = (after.makeSequence .array copies).1)
    (pushed : m'.stack.items = .seq (after.makeSequence .array copies).2 :: rest)

theorem wp_values (sound : m.Sound std) :
    wp values (fun _ m' => Lists m m') (fun _ => True) m := by
  refine wp_bind.2 (wp_pop (fun item rest items => ?_) trivial)
  have left := sound.stack
  rw [items, List.forall_mem_cons] at left
  have sound' := sound.withStack left.2
  cases item with
  | seq s =>
    have fit := (sound.heap.elements s).2
    refine wp_get_bind.2 ((wp_pushCopies sound' fit).mono ?_ fun _ _ => trivial)
    exact fun _ m' ⟨after, copies, copied, heap, pushed⟩ =>
      .intro items (fun value mem => (fit value mem).has) copied heap pushed
  | map id =>
    have fit := (sound.heap.entries id).values.2
    refine wp_get_bind.2 ((wp_pushCopies sound' fit).mono ?_ fun _ _ => trivial)
    exact fun _ m' ⟨after, copies, copied, heap, pushed⟩ =>
      .intro items (fun value mem => (fit value mem).has) copied heap pushed
  | prim | handle => exact trivial

end Exec

/-! ## Copies of structs -/

namespace Machine

variable {std : Standard σ} {m m' : Machine σ} {op : CollectionOp}

/-- **An instruction that stores or hands out an item**, and goes well, has found one to copy. -/
theorem exists_copying (single : op = .append ∨ op = .setItem ∨ op = .pickItem)
    (done : Exec.collection op m = .ok () m') :
    ∃ source dest, m.Copying op source dest ∧ (m.item? source).isSome := by
  rcases single with rfl | rfl | rfl
  · obtain ⟨value, s, rest, items, -⟩ := Exec.wp_append.ok done
    exact ⟨_, _, .append items, by rw [item?, items]; rfl⟩
  · cases Exec.wp_setItem.ok done with
    | element items read inside heap =>
      exact ⟨_, _, .setElement items read, by rw [item?, items]; rfl⟩
    | @entry value key id rest entries items put heap =>
      cases key with
      | prim key => exact ⟨_, _, .setEntry items, by rw [item?, items]; rfl⟩
      | seq | map | handle => cases put
  · cases Exec.wp_pickItem.ok done with
    | element items read there heap pushed =>
      exact ⟨_, _, .pickElement items read, by rw [item?, there]; rfl⟩
    | @entry key item id rest items there heap pushed =>
      cases key with
      | prim key => exact ⟨_, _, .pickEntry items, by rw [item?, there]; rfl⟩
      | seq | map | handle => cases there

/-- What lies at a place was made. -/
theorem Sound.has_of_item? (h : m.Sound std) {place : Place} {item : Item}
    (there : m.item? place = some item) : m.heap.Has item := by
  cases place with
  | top => exact (h.stack _ (List.mem_of_mem_head? there)).has
  | element s n => exact ((h.heap.elements s).2 _ (List.mem_of_getElem? there)).has
  | entry id key =>
    rw [item?] at there
    cases found : (m.heap.entries id).get (.prim key) with
    | ok value =>
      rw [found] at there
      cases there
      exact ((h.heap.entries id).get found).has
    | error cause =>
      rw [found] at there
      cases there
  | inTop n =>
    obtain ⟨collection, -, there⟩ := Option.bind_eq_some_iff.1 there
    have mem := List.mem_of_getElem? there
    cases collection with
    | seq s => exact ((h.heap.elements s).2 _ mem).has
    | map id => exact ((h.heap.entries id).values.2 _ mem).has
    | prim | handle => cases mem

section

variable (sound : m.Sound std) {o : Nat} (original : m.heap.Has (.seq ⟨.struct, o⟩))
include sound original

/-- What is written into a sequence as a copy of a struct is one. -/
theorem copied_of_written {s : Sequence} (made : m.heap.Has (.seq s)) {items : List Item} {n : Nat}
    (heap : m'.heap = (m.heap.clone (.seq ⟨.struct, o⟩)).1.setElements s items)
    (written : items[n]? = some (m.heap.clone (.seq ⟨.struct, o⟩)).2) :
    ∃ c, m'.item? (.element s n) = some (.seq ⟨.struct, c⟩) ∧ m.heap.Copied m'.heap o c := by
  obtain ⟨c, copy, cloned⟩ := sound.heap.cloned original
  refine ⟨c, ?_, heap ▸ cloned.toCopied.setElements made items⟩
  rw [item?, heap, Heap.elements_setElements, if_pos ⟨rfl, cloned.grows.has made⟩, written, copy]

/-- What is put into a map as a copy of a struct is one. -/
theorem copied_of_put {id : Nat} (made : m.heap.Has (.map id)) {key : Primitive} {entries : Entries}
    (heap : m'.heap = (m.heap.clone (.seq ⟨.struct, o⟩)).1.setEntries id entries)
    (put : ((m.heap.clone (.seq ⟨.struct, o⟩)).1.entries id).set (.prim key)
      (m.heap.clone (.seq ⟨.struct, o⟩)).2 = .ok entries) :
    ∃ c, m'.item? (.entry id key) = some (.seq ⟨.struct, c⟩) ∧ m.heap.Copied m'.heap o c := by
  obtain ⟨c, copy, cloned⟩ := sound.heap.cloned original
  have found := ((Entries.sameEntry_iff key key).2 rfl _).set _ _ put
  refine ⟨c, ?_, heap ▸ cloned.toCopied.congr (Heap.le_setEntries _ id entries) fun _ _ => rfl⟩
  rw [item?, heap, Heap.entries_setEntries, if_pos ⟨rfl, cloned.grows.has made⟩, found, copy]
  rfl

/-- What is pushed as a copy of a struct is one. -/
theorem copied_of_pushed {rest : List Item}
    (heap : m'.heap = (m.heap.clone (.seq ⟨.struct, o⟩)).1)
    (pushed : m'.stack.items = (m.heap.clone (.seq ⟨.struct, o⟩)).2 :: rest) :
    ∃ c, m'.item? .top = some (.seq ⟨.struct, c⟩) ∧ m.heap.Copied m'.heap o c := by
  obtain ⟨c, copy, cloned⟩ := sound.heap.cloned original
  exact ⟨c, by rw [item?, pushed, copy]; rfl, heap ▸ cloned.toCopied⟩

end

/-- **What an instruction leaves as a copy of a struct is one.** -/
theorem Copying.copied (sound : m.Sound std) {source dest : Place} (h : m.Copying op source dest)
    (done : Exec.collection op m = .ok () m') {o : Nat}
    (there : m.item? source = some (.seq ⟨.struct, o⟩)) :
    ∃ c, m'.item? dest = some (.seq ⟨.struct, c⟩) ∧ m.heap.Copied m'.heap o c := by
  have original := sound.has_of_item? there
  have fit := sound.stack
  cases h with
  | @append value s rest items =>
    rw [item?, items] at there
    cases there
    rw [items, List.forall_mem_cons, List.forall_mem_cons] at fit
    obtain ⟨_, _, _, items', heap⟩ := Exec.wp_append.ok done
    rw [items] at items'
    cases items'
    have made : m.heap.Has (.seq s) := fit.2.1.has
    refine copied_of_written sound original made heap ?_
    rw [← (m.heap.grows_clone _).elements s made, List.getElem?_concat_length]
  | @setElement value key s rest index items read =>
    rw [item?, items] at there
    cases there
    rw [items, List.forall_mem_cons, List.forall_mem_cons, List.forall_mem_cons] at fit
    cases Exec.wp_setItem.ok done with
    | element items' read' inside heap =>
      rw [items] at items'
      cases items'
      rw [read] at read'
      cases read'
      exact copied_of_written sound original fit.2.2.1.has heap (List.getElem?_set_self inside)
    | entry items' =>
      rw [items] at items'
      cases items'
  | @setEntry value key id rest items =>
    rw [item?, items] at there
    cases there
    rw [items, List.forall_mem_cons, List.forall_mem_cons, List.forall_mem_cons] at fit
    cases Exec.wp_setItem.ok done with
    | element items' =>
      rw [items] at items'
      cases items'
    | entry items' put heap =>
      rw [items] at items'
      cases items'
      exact copied_of_put sound original fit.2.2.1.has heap put
  | @pickElement key s rest index items read =>
    cases Exec.wp_pickItem.ok done with
    | element items' read' found heap pushed =>
      rw [items] at items'
      cases items'
      rw [read] at read'
      cases read'
      rw [item?, found] at there
      cases there
      exact copied_of_pushed sound original heap pushed
    | entry items' =>
      rw [items] at items'
      cases items'
  | @pickEntry key id rest items =>
    cases Exec.wp_pickItem.ok done with
    | element items' =>
      rw [items] at items'
      cases items'
    | entry items' found heap pushed =>
      rw [items] at items'
      cases items'
      rw [item?, found] at there
      cases there
      exact copied_of_pushed sound original heap pushed
  | value n =>
    obtain ⟨items, made, copied, heap, pushed⟩ := (Exec.wp_values sound).ok done
    rw [item?, items] at there
    obtain ⟨c, found, copy⟩ := copied.copied sound.heap.names made there
    refine ⟨c, ?_, heap ▸ copy.congr (Heap.Grows.makeSequence _ _ _).le fun b _ => ?_⟩
    · rw [item?, pushed, heap, Heap.makeSequence_snd, List.head?_cons, Option.bind_some,
        Heap.valuesOf, Heap.elements_makeSequence, if_pos rfl, found]
    · rw [Heap.elements_makeSequence, if_neg (by simp)]

end Machine

end DryRun
