import DryRun.Digest

/-!
# Numbers of system calls

A system call is known by a number that is derived from its name.
-/

set_option autoImplicit false

namespace DryRun.SyscallId

/-- The number of a name: the first four bytes of its digest. -/
def ofName (name : Bytes) : Nat :=
  Bytes.toNatLE ((Digest.sha256 name).take 4)

/-- The number that an operand means.  Four bytes are the number itself, all else is a name. -/
def ofOperand (operand : Bytes) : Nat :=
  if operand.length = 4 then Bytes.toNatLE operand else ofName operand

/-- The bytes of a text, if it has only characters of one byte each below 128. -/
def ascii? (text : String) : Option Bytes :=
  text.toList.mapM fun c => if c.toNat < 128 then some (UInt8.ofNat c.toNat) else none

/-- A number as messages show it: eight hexadecimal digits with the mark. -/
def text (id : Nat) : String :=
  let digits := Nat.toDigits 16 id
  "0x" ++ String.ofList (List.replicate (8 - digits.length) '0' ++ digits)

end DryRun.SyscallId
