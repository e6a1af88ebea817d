import DryRun.Heap.Struct
import DryRun.Machine.State
import DryRun.Script.Opcode

/-!
# Collection instructions

Sequences are indexed by integers and maps by primitive items.  A struct is copied when it is put
into a collection or taken out of one by index, key or `values`.
-/

set_option autoImplicit false

namespace DryRun.Exec

variable {σ : Type}

/-- An item as it is stored or handed out. -/
def copy (item : Item) : Exec σ Item :=
  onHeap (·.clone item)

/-- Pop an item as it is to be stored. -/
def popCopy : Exec σ Item := do
  copy (← pop)

/-- The index that a key means in a sequence with `size` elements. -/
def elementIndex (use : IndexUse) (size : Nat) (key : Item) : Exec σ Nat := do
  let index ← key.toInt
  if index < 0 ∨ index ≥ size then fail (.indexOutOfRange use index)
  return index.toNat

/-- The number of elements, or of bytes. -/
def arraySize : Exec σ Unit := do
  match ← pop with
  | .seq s => pushInt ((← get).heap.elements s).length
  | .map id => pushInt ((← get).heap.entries id).size
  | item => pushInt (← item.toBytes).length

/-- Make an array of the top items. -/
def pack : Exec σ Unit := do
  let n ← popIndex
  if n > (← get).stack.depth ∨ n > maxCollectionSize then fail (.packCount n)
  pushSequence .array (← (List.replicate n ()).mapM fun _ => pop)

/-- Push the elements of a sequence, the first one on top, and their number. -/
def unpack : Exec σ Unit := do
  match ← pop with
  | .seq s =>
    let items := (← get).heap.elements s
    items.reverse.forM push
    pushInt items.length
  | item => fail (.wrongKind .unpack item.kind)

/-- Look up an element. -/
def pickItem : Exec σ Unit := do
  let key ← pop
  match ← pop with
  | .seq s =>
    let items := (← get).heap.elements s
    let index ← elementIndex .pickItem items.length key
    push (← copy (items.getD index default))
  | .map id => push (← copy (← ((← get).heap.entries id).get key))
  | item => fail (.wrongKind .pickItem item.kind)

/-- Replace an element, or put one into a map. -/
def setItem : Exec σ Unit := do
  let value ← popCopy
  let key ← pop
  match ← pop with
  | .seq s =>
    let items := (← get).heap.elements s
    let index ← elementIndex .setItem items.length key
    modifyHeap (·.setElements s (items.set index value))
  | .map id =>
    let entries ← ((← get).heap.entries id).set key value
    modifyHeap (·.setEntries id entries)
  | item => fail (.wrongKind .setItem item.kind)

/-- Make a sequence with the elements of another one, or of falsehoods. -/
def newSequence (kind : SequenceKind) : Exec σ Unit := do
  match ← pop with
  | .seq s => pushSequence kind ((← get).heap.elements s)
  | item =>
    let n ← item.toInt
    if n < 0 ∨ n > maxCollectionSize then fail (.sequenceSize n)
    pushSequence kind (List.replicate n.toNat (.ofBool false))

/-- Add an element at the end of a sequence. -/
def append : Exec σ Unit := do
  let value ← popCopy
  match ← pop with
  | .seq s =>
    let items := (← get).heap.elements s
    if items.length ≥ maxCollectionSize then fail .sequenceFull
    modifyHeap (·.setElements s (items ++ [value]))
  | item => fail (.wrongKind .append item.kind)

/-- Reverse the order of the elements of a sequence. -/
def reverse : Exec σ Unit := do
  match ← pop with
  | .seq s => modifyHeap fun heap => heap.setElements s (heap.elements s).reverse
  | item => fail (.wrongKind .reverse item.kind)

/-- Drop an element. -/
def removeItem : Exec σ Unit := do
  let key ← pop
  match ← pop with
  | .seq s =>
    let items := (← get).heap.elements s
    let index ← elementIndex .remove items.length key
    modifyHeap (·.setElements s (items.eraseIdx index))
  | .map id =>
    let entries ← ((← get).heap.entries id).remove key
    modifyHeap (·.setEntries id entries)
  | item => fail (.wrongKind .remove item.kind)

/-- Is there an element? -/
def hasKey : Exec σ Unit := do
  let key ← pop
  match ← pop with
  | .seq s =>
    let index ← key.toInt
    if index < 0 then fail (.negativeKey index)
    pushBool (index < ((← get).heap.elements s).length)
  | .map id => pushBool (← ((← get).heap.entries id).has key)
  | item => fail (.wrongKind .hasKey item.kind)

/-- Make an array of the keys of a map. -/
def keys : Exec σ Unit := do
  match ← pop with
  | .map id => pushSequence .array ((← get).heap.entries id).keys
  | item => fail (.wrongKind .keys item.kind)

/-- Make an array of the values of a collection. -/
def values : Exec σ Unit := do
  match ← pop with
  | .map id => pushSequence .array (← ((← get).heap.entries id).values.mapM copy)
  | .seq s => pushSequence .array (← ((← get).heap.elements s).mapM copy)
  | item => fail (.wrongKind .values item.kind)

/-- Work on collections. -/
def collection : CollectionOp → Exec σ Unit
  | .arraySize => arraySize
  | .pack => pack
  | .unpack => unpack
  | .pickItem => pickItem
  | .setItem => setItem
  | .newArray => newSequence .array
  | .newStruct => newSequence .struct
  | .newMap => pushMap .empty
  | .append => append
  | .reverse => reverse
  | .remove => removeItem
  | .hasKey => hasKey
  | .keys => keys
  | .values => values

end DryRun.Exec
