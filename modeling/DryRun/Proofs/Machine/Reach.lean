import DryRun.Proofs.Heap.Iterator
import DryRun.Proofs.Machine.Sound

/-!
# What a machine reaches

A script gets at the items on the two stacks, at what an iterator has copied, and from a collection
at what is in it.  `Machine.Reaches` collects these items; the ways from one to the next are
`Heap.Holds`.  On a sound machine all of them may be held by its heap (`Machine.Sound.admits`).
-/

set_option autoImplicit false

namespace DryRun

/-- What is in a collection: the elements of a sequence, the keys and the values of a map. -/
inductive Heap.Holds (heap : Heap) : Item → Item → Prop where
  /-- An element of a sequence. -/
  | element {s : Sequence} {item : Item} (mem : item ∈ heap.elements s) : Holds heap (.seq s) item
  /-- A key of a map. -/
  | key {id : Nat} {item : Item} (mem : item ∈ (heap.entries id).keys) : Holds heap (.map id) item
  /-- A value of a map. -/
  | value {id : Nat} {item : Item} (mem : item ∈ (heap.entries id).values) :
    Holds heap (.map id) item

variable {σ : Type}

/-- The items that a script gets at, at once or by reading collections. -/
inductive Machine.Reaches (m : Machine σ) : Item → Prop where
  /-- An item on the evaluation stack. -/
  | stack {item : Item} (mem : item ∈ m.stack.items) : Reaches m item
  /-- An item on the alternative stack. -/
  | alt {item : Item} (mem : item ∈ m.alt.items) : Reaches m item
  /-- A key that an iterator has copied. -/
  | iteratorKey {id : Nat} {it : Iterator} {key value : Item}
    (found : m.heap.iterator? id = some it) (mem : (key, value) ∈ it.held) : Reaches m key
  /-- A value that an iterator has copied. -/
  | iteratorValue {id : Nat} {it : Iterator} {key value : Item}
    (found : m.heap.iterator? id = some it) (mem : (key, value) ∈ it.held) : Reaches m value
  /-- What is in a collection. -/
  | inside {item inner : Item} (way : Reaches m item) (holds : m.heap.Holds item inner) :
    Reaches m inner

variable {heap : Heap} {value : Primitive → Prop}

theorem Heap.Sound.admits_of_holds (h : heap.Sound value) {item inner : Item}
    (holds : heap.Holds item inner) : heap.Admits value inner := by
  cases holds with
  | element mem => exact (h.elements _).2 inner mem
  | key mem => exact (h.entries _).keys.2 inner mem
  | value mem => exact (h.entries _).values.2 inner mem

/-- **What a sound machine reaches** may be held by its heap. -/
theorem Machine.Sound.admits {std : Machine.Standard σ} {m : Machine σ} (h : m.Sound std)
    {item : Item} (way : m.Reaches item) : m.heap.Admits std.value item := by
  cases way with
  | stack mem => exact h.stack item mem
  | alt mem => exact h.alt item mem
  | iteratorKey found mem => exact (h.heap.iterator? found _ mem).1
  | iteratorValue found mem => exact (h.heap.iterator? found _ mem).2
  | inside _ holds => exact h.heap.admits_of_holds holds

end DryRun
