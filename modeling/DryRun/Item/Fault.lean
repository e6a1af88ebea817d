import DryRun.Wire.Error

/-!
# What can be wrong with a stack item

The kinds of items and their names, and the causes for which an operation on items fails, with
the wording of each.
-/

set_option autoImplicit false

namespace DryRun

/-- The kinds of stack items. -/
inductive ItemKind where
  /-- A byte string. -/
  | byteArray
  /-- An integer. -/
  | integer
  /-- A truth value. -/
  | boolean
  /-- A sequence with an identity. -/
  | array
  /-- A sequence with the meaning of a value. -/
  | struct
  /-- A table. -/
  | map
  /-- A handle to an object outside the machine. -/
  | handle
deriving DecidableEq

/-- The name of a kind. -/
def ItemKind.name : ItemKind → String
  | .byteArray => "ByteArray"
  | .integer => "Integer"
  | .boolean => "Boolean"
  | .array => "Array"
  | .struct => "Struct"
  | .map => "Map"
  | .handle => "InteropInterface"

/-- A cause for which an operation on items fails. -/
inductive ItemFault where
  /-- A byte string is too long to be read as an integer. -/
  | operandTooLarge (size : Nat)
  /-- An integer needs too many bytes. -/
  | resultTooLarge
  /-- The item has no byte form. -/
  | notBytes (kind : ItemKind)
  /-- The item has no integer form. -/
  | notInteger (kind : ItemKind)
  /-- The item cannot be a key. -/
  | notKey (kind : ItemKind)
  /-- A map does not have the key. -/
  | keyNotFound
  /-- A map has as many keys as it may have. -/
  | mapFull
  /-- A collection that contains itself cannot be shown. -/
  | recursiveRendering
  /-- A collection that contains itself cannot be serialized. -/
  | recursiveSerialization
  /-- The item has no serialized form. -/
  | notSerializable (kind : ItemKind)
  /-- The serialized form is too long. -/
  | serializedTooLarge
  /-- Bytes are not the serialized form of an item. -/
  | undecodable (cause : FormatError)
  /-- An iterator does not stand on an element. -/
  | notPositioned
  /-- The item cannot be walked over with keys. -/
  | notIterable (kind : ItemKind)
  /-- The item cannot be walked over. -/
  | notEnumerable (kind : ItemKind)
deriving DecidableEq

/-- The wording of each cause. -/
def ItemFault.message : ItemFault → String
  | .operandTooLarge size => s!"integer operand too large ({size} bytes)"
  | .resultTooLarge => "integer result exceeds 32 bytes"
  | .notBytes kind => s!"{kind.name} cannot be converted to a byte array"
  | .notInteger kind => s!"{kind.name} cannot be converted to an integer"
  | .notKey kind => s!"{kind.name} cannot be used as a map key"
  | .keyNotFound => "key not found in map"
  | .mapFull => "map size limit exceeded"
  | .recursiveRendering => "recursive collection cannot be rendered"
  | .recursiveSerialization => "cannot serialize a recursive collection"
  | .notSerializable kind => s!"{kind.name} is not serializable"
  | .serializedTooLarge => "serialized item exceeds the maximum item size"
  | .undecodable cause => s!"cannot deserialize stack item: {cause.message}"
  | .notPositioned => "iterator is not positioned on an element"
  | .notIterable kind => s!"cannot iterate over {kind.name}"
  | .notEnumerable kind => s!"cannot enumerate {kind.name}"

end DryRun
