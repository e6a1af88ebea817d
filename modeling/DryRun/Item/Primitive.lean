import DryRun.Item.Fault
import DryRun.Number.TwosComplement

/-!
# Primitive items

Byte strings, integers and truth values convert freely between each other.  The byte form of a
primitive item decides what it equals and which key of a map it is.
-/

set_option autoImplicit false

namespace DryRun

/-- An item that is a plain value. -/
inductive Primitive where
  /-- A byte string. -/
  | bytes (value : Bytes)
  /-- An integer. -/
  | int (value : Int)
  /-- A truth value. -/
  | bool (value : Bool)
deriving DecidableEq

/-- The most bytes an integer may have. -/
def maxIntegerSize : Nat := 32

/-- The most bytes an item may have. -/
def maxItemSize : Nat := 1024 * 1024

/-- The most elements a collection may have. -/
def maxCollectionSize : Nat := 1024

/-- The integer that a byte string stands for as an operand. -/
def readInteger (bytes : Bytes) : Except ItemFault Int :=
  if bytes.length > maxIntegerSize then .error (.operandTooLarge bytes.length)
  else .ok (TwosComplement.decode bytes)

/-- An integer as a result: it must fit into the size of integers. -/
def checkInteger (v : Int) : Except ItemFault Int :=
  if (TwosComplement.encode v).length > maxIntegerSize then .error .resultTooLarge else .ok v

namespace Primitive

/-- The kind of a primitive item. -/
def kind : Primitive → ItemKind
  | .bytes _ => .byteArray
  | .int _ => .integer
  | .bool _ => .boolean

/-- The byte form. -/
def toBytes : Primitive → Bytes
  | .bytes b => b
  | .int v => TwosComplement.encode v
  | .bool b => if b then [1] else []

/-- The integer form; only a byte string can be too long for it. -/
def toInt : Primitive → Except ItemFault Int
  | .bytes b => readInteger b
  | .int v => .ok v
  | .bool b => .ok (if b then 1 else 0)

/-- The truth form: anything but zeros is true. -/
def toBool : Primitive → Bool
  | .bytes b => Bytes.anyNonzero b
  | .int v => v != 0
  | .bool b => b

end Primitive

end DryRun
