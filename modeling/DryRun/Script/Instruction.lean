import DryRun.Item.Primitive
import DryRun.Script
import DryRun.Script.Opcode

/-!
# Instructions

An instruction is a code and the operand that follows it in a script; where the operand ends
depends on the code.  Behind the last byte of a script stands an implied return.
-/

set_option autoImplicit false

namespace DryRun

/-- A code and its operand. -/
structure Instruction where
  /-- The code. -/
  code : UInt8
  /-- The operand. -/
  operand : Bytes
deriving DecidableEq

/-- A cause for which no instruction can be read. -/
inductive FetchFault where
  /-- The operand runs past the end of the script. -/
  | pastEnd (position : Nat)
  /-- The operand would be too long for an item. -/
  | pushTooLarge (size : Nat)
  /-- The name of a system call is too long. -/
  | nameTooLong
deriving DecidableEq

/-- The wording of each cause. -/
def FetchFault.message : FetchFault → String
  | .pastEnd position => s!"instruction operand runs past end of script at {position}"
  | .pushTooLarge size => s!"PUSHDATA4 of {size} bytes exceeds the item size limit"
  | .nameTooLong => "syscall name too long"

namespace Instruction

/-- What the instruction does. -/
def opcode (i : Instruction) : Opcode := .ofByte i.code

/-- The instruction that stands behind the end of every script. -/
def impliedReturn : Instruction := ⟨0x66, []⟩

/-- The most bytes the name of a system call may have. -/
def maxSyscallName : Nat := 252

/-- The size of a jump's offset. -/
def offsetSize : Nat := 2

/-- The size of the name of a contract. -/
def contractSize : Nat := 20

/-- Reading at a position in a script, which a failure leaves where it has got to. -/
abbrev Fetch := EStateM FetchFault Nat

/-- Take the next `n` bytes of a script. -/
def take (script : Script) (n : Nat) : Fetch Bytes := fun position =>
  if position + n ≤ script.size then .ok (script.slice position n) (position + n)
  else .error (.pastEnd position) position

/-- Take a number of `width` bytes. -/
def takeNumber (script : Script) (width : Nat) : Fetch Nat :=
  Bytes.toNatLE <$> take script width

/-- Take the operand of a code. -/
def takeOperand (script : Script) (code : UInt8) : Fetch Bytes :=
  match Opcode.ofByte code with
  | .pushBytes n => take script n
  | .pushData width => do
    let size ← takeNumber script width
    if width = 4 ∧ size > maxItemSize then throw (.pushTooLarge size)
    take script size
  | .flow .jump | .flow .jumpIf | .flow .jumpIfNot | .flow .call => take script offsetSize
  | .flow .appCall | .flow .tailCall => take script contractSize
  | .flow .sysCall => do
    let size ← takeNumber script 1
    if size > maxSyscallName then throw .nameTooLong
    take script size
  | _ => pure []

/-- Take the instruction at a position.  Behind the end of the script nothing is taken. -/
def fetch (script : Script) : Fetch Instruction := fun position =>
  match script.byte? position with
  | none => .ok impliedReturn position
  | some code =>
    match takeOperand script code (position + 1) with
    | .ok operand position => .ok ⟨code, operand⟩ position
    | .error fault position => .error fault position

end Instruction

end DryRun
