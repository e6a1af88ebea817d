import DryRun.Item.Tree
import DryRun.Wire.Reader
import DryRun.Wire.Writer

/-!
# Serialized items

The bytes of an item: a byte for its type, then the value.  Byte strings and integers have their
length in front, collections the number of their elements; an entry of a map is the key and then
the value.  Objects have no bytes, and neither does a collection inside itself.
-/

set_option autoImplicit false

namespace DryRun.Tree

/-! ## Writing -/

/-- The bytes of a primitive value. -/
def writePrimitive : Primitive → Bytes
  | .bytes b => 0x00 :: Wire.varBytes b
  | .bool b => 0x01 :: Wire.bool b
  | .int v => 0x02 :: Wire.varBytes (TwosComplement.encode v)

/-- The byte that announces a sequence. -/
def sequenceByte : SequenceKind → UInt8
  | .array => 0x80
  | .struct => 0x81

mutual

/-- The bytes of a tree. -/
def write : Tree → Except ItemFault Bytes
  | .prim p => .ok (writePrimitive p)
  | .seq kind elements => do
    return sequenceByte kind :: Wire.varUint elements.length ++ (← writeElements elements)
  | .map entries => do
    return 0x82 :: Wire.varUint entries.length ++ (← writeEntries entries)
  | .handle _ => .error (.notSerializable .handle)
  | .cycle => .error .recursiveSerialization

/-- The bytes of elements, one after the other. -/
def writeElements : List Tree → Except ItemFault Bytes
  | [] => .ok []
  | tree :: rest => do
    let first ← write tree
    return first ++ (← writeElements rest)

/-- The bytes of entries, one after the other. -/
def writeEntries : List (Primitive × Tree) → Except ItemFault Bytes
  | [] => .ok []
  | (key, tree) :: rest => do
    let value ← write tree
    return writePrimitive key ++ value ++ (← writeEntries rest)

end

/-- The serialized form of a tree, which must not be longer than an item may be. -/
def serialize (tree : Tree) : Except ItemFault Bytes := do
  let bytes ← tree.write
  if bytes.length > maxItemSize then throw .serializedTooLarge
  return bytes

/-! ## Reading -/

/-- A computation that reads items. -/
abbrev ItemReader := EStateM ItemFault Cursor

/-- Read data inside an item. -/
def within {α : Type} (read : Reader α) : ItemReader α := fun cursor =>
  match read cursor with
  | .ok value cursor => .ok value cursor
  | .error cause cursor => .error (.undecodable cause) cursor

/-- Read an entry of a map.  That the key is a plain value is seen when the value has been read. -/
def readEntry (read : ItemReader Tree) : ItemReader (Primitive × Tree) := do
  let key ← read
  let value ← read
  match key with
  | .prim p => return (p, value)
  | other => throw (.notKey other.kind)

/-- Read a tree that is nested less deeply than `fuel`. -/
def read : (fuel : Nat) → ItemReader Tree
  | 0 => within do
    let mark ← Reader.u8
    throw (.unknownItemType mark)
  | fuel + 1 => do
    let mark ← within Reader.u8
    match mark with
    | 0x00 => return .prim (.bytes (← within (Reader.varBytes maxItemSize)))
    | 0x01 => return .prim (.bool (← within Reader.bool))
    | 0x02 =>
      let bytes ← within (Reader.varBytes maxIntegerSize)
      return .prim (.int (TwosComplement.decode bytes))
    | 0x80 =>
      let count ← within (Reader.varUint maxCollectionSize)
      return .seq .array (← Reader.times (read fuel) count)
    | 0x81 =>
      let count ← within (Reader.varUint maxCollectionSize)
      return .seq .struct (← Reader.times (read fuel) count)
    | 0x82 =>
      let count ← within (Reader.varUint maxCollectionSize)
      return .map (settle (← Reader.times (readEntry (read fuel)) count))
    | unknown => within (throw (.unknownItemType unknown))

/-- The tree that bytes are the serialized form of.  Every level of nesting takes a byte, so trees
are nested no deeper than there are bytes. -/
def deserialize (data : Bytes) : Except ItemFault Tree :=
  let reading : ItemReader Tree := do
    let tree ← read (data.length + 1)
    within Reader.expectEnd
    return tree
  match reading.run ⟨0, data⟩ with
  | .ok tree _ => .ok tree
  | .error fault _ => .error fault

end DryRun.Tree
