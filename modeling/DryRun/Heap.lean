import DryRun.Heap.Object
import DryRun.Table

/-!
# The heap

Collections and objects live in a heap and are named by numbers in the order in which they were
made.  Nothing is ever removed.  Reading a name that was never made gives an empty collection or
no object, so that reading needs no proof.
-/

set_option autoImplicit false

namespace DryRun

/-- An entry of a map: the item that was the key, and the value. -/
abbrev Entry := Primitive × Item

/-- The key under which an entry is found: the byte form of the item that was given. -/
def Entry.key (entry : Entry) : Bytes := entry.1.toBytes

/-- The entries of a map. -/
abbrev Entries := Table Entry.key

/-- Collections and objects by number. -/
structure Heap where
  /-- The elements of each array. -/
  arrays : Array (List Item)
  /-- The elements of each struct. -/
  structs : Array (List Item)
  /-- The entries of each map. -/
  maps : Array Entries
  /-- The objects. -/
  objects : Array Object

namespace Heap

/-- The heap in which nothing was made. -/
def empty : Heap := ⟨#[], #[], #[], #[]⟩

instance : Inhabited Heap := ⟨empty⟩

/-- How many collections were made. -/
def collectionCount (heap : Heap) : Nat :=
  heap.arrays.size + heap.structs.size + heap.maps.size

/-! ## Sequences -/

/-- The elements of a sequence. -/
def elements (heap : Heap) : Sequence → List Item
  | ⟨.array, id⟩ => (heap.arrays[id]?).getD []
  | ⟨.struct, id⟩ => (heap.structs[id]?).getD []

/-- Make a sequence. -/
def makeSequence (heap : Heap) (kind : SequenceKind) (items : List Item) : Heap × Sequence :=
  match kind with
  | .array => ({ heap with arrays := heap.arrays.push items }, ⟨.array, heap.arrays.size⟩)
  | .struct => ({ heap with structs := heap.structs.push items }, ⟨.struct, heap.structs.size⟩)

/-- Replace the elements of a sequence. -/
def setElements (heap : Heap) (sequence : Sequence) (items : List Item) : Heap :=
  match sequence with
  | ⟨.array, id⟩ => { heap with arrays := heap.arrays.setIfInBounds id items }
  | ⟨.struct, id⟩ => { heap with structs := heap.structs.setIfInBounds id items }

/-! ## Maps -/

/-- The entries of a map. -/
def entries (heap : Heap) (id : Nat) : Entries :=
  (heap.maps[id]?).getD .empty

/-- Make a map. -/
def makeMap (heap : Heap) (entries : Entries) : Heap × Nat :=
  ({ heap with maps := heap.maps.push entries }, heap.maps.size)

/-- Replace the entries of a map. -/
def setEntries (heap : Heap) (id : Nat) (entries : Entries) : Heap :=
  { heap with maps := heap.maps.setIfInBounds id entries }

/-! ## Objects -/

/-- The object a handle stands for. -/
def object? (heap : Heap) (handle : Handle) : Option Object :=
  handle.path.foldl (fun found part => found.bind (Object.part? part)) heap.objects[handle.root]?

/-- Make an object. -/
def makeObject (heap : Heap) (object : Object) : Heap × Handle :=
  ({ heap with objects := heap.objects.push object }, ⟨heap.objects.size, []⟩)

/-- Replace an object. -/
def setObject (heap : Heap) (id : Nat) (object : Object) : Heap :=
  { heap with objects := heap.objects.setIfInBounds id object }

/-- The name of the class of what an item is or stands for. -/
def className (heap : Heap) : Item → String
  | .handle h => match heap.object? h with
    | some object => object.className
    | none => ItemKind.handle.name
  | item => item.kind.name

/-- An item as it appears in a notification. -/
def label (heap : Heap) : Item → String
  | .prim (.bytes b) => s!"<ByteArray {Hex.encode b}>"
  | .prim (.int v) => s!"<Integer {v}>"
  | .prim (.bool true) => "<Boolean True>"
  | .prim (.bool false) => "<Boolean False>"
  | .handle h => s!"<InteropInterface {heap.className (.handle h)}>"
  | item => s!"<{item.kind.name}>"

end Heap

/-! ## Entries of a map -/

namespace Entries

/-- The value under a key. -/
def get (entries : Entries) (key : Item) : Except ItemFault Item := do
  match entries.find? (← key.toKey).toBytes with
  | some (_, value) => return value
  | none => throw .keyNotFound

/-- Put a value under a key; a map that is full takes no new key. -/
def set (entries : Entries) (key value : Item) : Except ItemFault Entries := do
  let key ← key.toKey
  if entries.contains key.toBytes ∨ entries.size < maxCollectionSize then
    return Table.insert entries (key, value)
  else throw .mapFull

/-- Drop a key. -/
def remove (entries : Entries) (key : Item) : Except ItemFault Entries := do
  return Table.erase entries (← key.toKey).toBytes

/-- Does the map have the key? -/
def has (entries : Entries) (key : Item) : Except ItemFault Bool := do
  return Table.contains entries (← key.toKey).toBytes

/-- The items that were given as keys, in order. -/
def keys (entries : Entries) : List Item :=
  entries.rows.map fun (key, _) => .prim key

/-- The values, in the order of the keys. -/
def values (entries : Entries) : List Item :=
  entries.rows.map Prod.snd

end Entries

end DryRun
