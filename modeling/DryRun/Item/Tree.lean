import DryRun.Heap

/-!
# Items unfolded

An item of the heap, followed through all its references, is a tree.  A collection that occurs
several times is unfolded at every occurrence; one that occurs inside itself ends in the leaf
`Tree.cycle`.  `Heap.unfold` makes the tree of an item and `Heap.build` an item from a tree.
-/

set_option autoImplicit false

namespace DryRun

/-- The value of an item. -/
inductive Tree where
  /-- A plain value. -/
  | prim (value : Primitive)
  /-- A sequence and its elements. -/
  | seq (kind : SequenceKind) (elements : List Tree)
  /-- A map and its entries, in order. -/
  | map (entries : List (Primitive × Tree))
  /-- An object. -/
  | handle (handle : Handle)
  /-- A collection met again inside itself. -/
  | cycle

namespace Tree

instance : Inhabited Tree := ⟨.cycle⟩

/-- The kind of the item that has this value. -/
def kind : Tree → ItemKind
  | .prim p => p.kind
  | .seq .array _ => .array
  | .seq .struct _ => .struct
  | .map _ => .map
  | .handle _ => .handle
  | .cycle => .array

/-- The key under which an entry of a tree is found. -/
def entryKey (entry : Primitive × Tree) : Bytes := entry.1.toBytes

/-- Entries in the order in which they were put into a map, as the map then has them: a key keeps
its first place and its last entry. -/
def settle (entries : List (Primitive × Tree)) : List (Primitive × Tree) :=
  entries.foldl (fun rows row => Table.place entryKey row rows) []

end Tree

namespace Heap

/-- The tree of an item below some collections, none of which is unfolded again. -/
def unfoldBelow (heap : Heap) : (fuel : Nat) → (above : List Item) → Item → Tree
  | _, _, .prim p => .prim p
  | _, _, .handle h => .handle h
  | 0, _, .seq _ => .cycle
  | 0, _, .map _ => .cycle
  | fuel + 1, above, .seq s =>
    if .seq s ∈ above then .cycle
    else .seq s.kind ((heap.elements s).map (heap.unfoldBelow fuel (.seq s :: above)))
  | fuel + 1, above, .map id =>
    if .map id ∈ above then .cycle
    else .map ((heap.entries id).rows.map fun (key, value) =>
      (key, heap.unfoldBelow fuel (.map id :: above) value))

/-- The tree of an item.  A path without repetition is no longer than there are collections. -/
def unfold (heap : Heap) (item : Item) : Tree :=
  heap.unfoldBelow (heap.collectionCount + 1) [] item

mutual

/-- Make an item with the value of a tree; a leaf `cycle` has no value and becomes false. -/
def build (heap : Heap) : Tree → Heap × Item
  | .prim p => (heap, .prim p)
  | .handle h => (heap, .handle h)
  | .cycle => (heap, default)
  | .seq kind elements =>
    let (heap, items) := heap.buildElements elements
    let (heap, sequence) := heap.makeSequence kind items
    (heap, .seq sequence)
  | .map entries =>
    let (heap, rows) := heap.buildEntries entries
    let (heap, id) := heap.makeMap (.ofList rows)
    (heap, .map id)

/-- Make the elements of a sequence. -/
def buildElements (heap : Heap) : List Tree → Heap × List Item
  | [] => (heap, [])
  | tree :: rest =>
    let (heap, item) := heap.build tree
    let (heap, items) := heap.buildElements rest
    (heap, item :: items)

/-- Make the entries of a map. -/
def buildEntries (heap : Heap) : List (Primitive × Tree) → Heap × List Entry
  | [] => (heap, [])
  | (key, tree) :: rest =>
    let (heap, value) := heap.build tree
    let (heap, rows) := heap.buildEntries rest
    (heap, (key, value) :: rows)

end

end Heap

end DryRun
