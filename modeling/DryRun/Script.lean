import DryRun.Digest

/-!
# Scripts

A script is known by the hash of its bytes.  While it runs its bytes are read at many places, so
they are kept in an array, next to the hash; `Script.bytes` is the byte string that both stand for.
-/

set_option autoImplicit false

namespace DryRun

/-- A script that can be run. -/
structure Script where
  /-- The bytes, by position. -/
  code : Array UInt8
  /-- The hash that names the script. -/
  hash : Bytes
  /-- The hash is that of the bytes. -/
  hash_eq : hash = hash160 code.toList
deriving DecidableEq

namespace Script

/-- The script of some bytes. -/
def ofBytes (bytes : Bytes) : Script := ⟨bytes.toArray, hash160 bytes, rfl⟩

/-- The bytes of a script. -/
def bytes (script : Script) : Bytes := script.code.toList

/-- How many bytes a script has. -/
def size (script : Script) : Nat := script.code.size

/-- The byte at a position. -/
def byte? (script : Script) (position : Nat) : Option UInt8 := script.code[position]?

/-- The `n` bytes from a position on, as far as the script reaches. -/
def slice (script : Script) (position n : Nat) : Bytes :=
  (script.code.extract position (position + n)).toList

@[simp] theorem bytes_ofBytes (bytes : Bytes) : (ofBytes bytes).bytes = bytes := rfl

theorem size_eq_length (script : Script) : script.size = script.bytes.length := by
  simp [size, bytes]

theorem byte?_eq_getElem? (script : Script) (position : Nat) :
    script.byte? position = script.bytes[position]? := by
  simp [byte?, bytes]

theorem slice_eq_take_drop (script : Script) (position n : Nat) :
    script.slice position n = (script.bytes.drop position).take n := by
  simp [slice, bytes]

end Script

end DryRun
