import DryRun.Heap

/-!
# Iterators

An iterator stands before its first element, on an element, or behind its last one; `advance`
moves it on and tells whether it then stands on an element, `key` and `value` read that element.
An iterator that is built from others names older objects only, so following the names ends.
-/

set_option autoImplicit false

namespace DryRun

namespace Iterator

/-- An iterator before the first of these entries. -/
def start (source : WalkSource) (entries : List (Item × Item)) : Iterator :=
  .walk source none entries

/-- A walk over a sequence; the keys are the positions. -/
def ofElements (items : List Item) : Iterator :=
  start .sequence (items.zipIdx.map fun (item, i) => (.ofInt i, item))

/-- A walk over a map. -/
def ofEntries (entries : Entries) : Iterator :=
  start .map (entries.rows.map fun (key, value) => (.prim key, value))

end Iterator

namespace Heap

/-- The iterator of a number. -/
def iterator? (heap : Heap) (id : Nat) : Option Iterator :=
  match heap.objects[id]? with
  | some (.iterator it) => some it
  | _ => none

/-- Replace an iterator. -/
def setIterator (heap : Heap) (id : Nat) (it : Iterator) : Heap :=
  heap.setObject id (.iterator it)

/-! ## Making iterators -/

/-- An iterator over a collection. -/
def iterate (heap : Heap) : Item → Except ItemFault Iterator
  | .map id => .ok (.ofEntries (heap.entries id))
  | .seq s => .ok (.ofElements (heap.elements s))
  | item => .error (.notIterable item.kind)

/-- An enumerator over a sequence. -/
def enumerate (heap : Heap) : Item → Except ItemFault Iterator
  | .seq s => .ok (.ofElements (heap.elements s))
  | item => .error (.notEnumerable item.kind)

/-! ## Moving and reading -/

/-- Move an iterator that is built to a depth below `fuel`. -/
def advanceWithin : (fuel : Nat) → (id : Nat) → Heap → Heap × Bool
  | 0, _, heap => (heap, false)
  | fuel + 1, id, heap =>
    match heap.iterator? id with
    | some (.walk source _ []) => (heap.setIterator id (.walk source none []), false)
    | some (.walk source _ (entry :: rest)) =>
      (heap.setIterator id (.walk source (some entry) rest), true)
    | some (.keys source) => advanceWithin fuel source heap
    | some (.values source) => advanceWithin fuel source heap
    | some (.concat keyed first second switched) =>
      if switched ∧ first ≠ second then advanceWithin fuel second heap
      else
        match advanceWithin fuel first heap with
        | (heap, true) => (heap, true)
        | (heap, false) =>
          advanceWithin fuel second (heap.setIterator id (.concat keyed first second true))
    | none => (heap, false)

/-- Move an iterator on; the answer says whether it stands on an element. -/
def advance (heap : Heap) (id : Nat) : Heap × Bool :=
  advanceWithin (id + 1) id heap

/-- The entry on which an iterator stands that is built to a depth below `fuel`; a wrapper shows
the one on which its source stands. -/
def entryWithin (heap : Heap) : (fuel : Nat) → (id : Nat) → Except ItemFault (Item × Item)
  | 0, _ => .error .notPositioned
  | fuel + 1, id =>
    match heap.iterator? id with
    | some (.walk _ (some entry) _) => .ok entry
    | some (.walk _ none _) => .error .notPositioned
    | some (.keys source) => do
      let (key, _) ← heap.entryWithin fuel source
      return (key, key)
    | some (.values source) => heap.entryWithin fuel source
    | some (.concat _ first second switched) =>
      heap.entryWithin fuel (if switched then second else first)
    | none => .error .notPositioned

/-- The entry on which an iterator stands. -/
def entry (heap : Heap) (id : Nat) : Except ItemFault (Item × Item) :=
  heap.entryWithin (id + 1) id

/-- The key of the element on which an iterator stands. -/
def iteratorKey (heap : Heap) (id : Nat) : Except ItemFault Item :=
  Prod.fst <$> heap.entry id

/-- The element on which an iterator stands. -/
def iteratorValue (heap : Heap) (id : Nat) : Except ItemFault Item :=
  Prod.snd <$> heap.entry id

end Heap

end DryRun
