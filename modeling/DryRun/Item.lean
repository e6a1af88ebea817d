import DryRun.Item.Primitive

/-!
# Stack items

An item is a primitive value or a reference: to a sequence, to a map, or to an object of the
chain.  What the references stand for is kept in a heap, so that two items can share a collection;
here they are only names.
-/

set_option autoImplicit false

namespace DryRun

/-- The two kinds of sequences. -/
inductive SequenceKind where
  /-- Sequences that are shared when they are stored. -/
  | array
  /-- Sequences that are copied when they are stored. -/
  | struct
deriving DecidableEq

/-- The name of a sequence. -/
structure Sequence where
  /-- Its kind. -/
  kind : SequenceKind
  /-- Its number among the sequences of this kind. -/
  id : Nat
deriving DecidableEq

/-- A step from an object to a part of it. -/
inductive Part where
  /-- A transaction of a block. -/
  | transaction (index : Nat)
  /-- An attribute of a transaction. -/
  | attr (index : Nat)
  /-- An input of a transaction. -/
  | input (index : Nat)
  /-- An output of a transaction. -/
  | output (index : Nat)
  /-- A witness of a transaction. -/
  | witness (index : Nat)
deriving DecidableEq

/-- The name of an object, or of a part of one. -/
structure Handle where
  /-- The number of the object. -/
  root : Nat
  /-- The way from the object to the part. -/
  path : List Part
deriving DecidableEq

/-- A stack item. -/
inductive Item where
  /-- A plain value. -/
  | prim (value : Primitive)
  /-- A sequence. -/
  | seq (sequence : Sequence)
  /-- The map of a number. -/
  | map (id : Nat)
  /-- An object. -/
  | handle (handle : Handle)
deriving DecidableEq

namespace Item

instance : Inhabited Item := ⟨.prim (.bool false)⟩

/-- A byte string as an item. -/
def ofBytes (b : Bytes) : Item := .prim (.bytes b)

/-- An integer as an item. -/
def ofInt (v : Int) : Item := .prim (.int v)

/-- A truth value as an item. -/
def ofBool (b : Bool) : Item := .prim (.bool b)

/-- The kind of an item. -/
def kind : Item → ItemKind
  | .prim p => p.kind
  | .seq ⟨.array, _⟩ => .array
  | .seq ⟨.struct, _⟩ => .struct
  | .map _ => .map
  | .handle _ => .handle

/-- The byte form; only primitive items have one. -/
def toBytes : Item → Except ItemFault Bytes
  | .prim p => .ok p.toBytes
  | item => .error (.notBytes item.kind)

/-- The integer form; only primitive items have one. -/
def toInt : Item → Except ItemFault Int
  | .prim p => p.toInt
  | item => .error (.notInteger item.kind)

/-- The truth form; references are true. -/
def toBool : Item → Bool
  | .prim p => p.toBool
  | _ => true

/-- The item as a key of a map. -/
def toKey : Item → Except ItemFault Primitive
  | .prim p => .ok p
  | item => .error (.notKey item.kind)

end Item

end DryRun
