import DryRun.Number.TwosComplement
import DryRun.Script.Instruction
import DryRun.Script.SyscallId
import DryRun.Text.Utf8

/-!
# Building scripts

A builder appends instructions to a script.  A jump may name a label that is placed later; `build`
then writes the distances into the jumps.  An operation that fails appends nothing, but a jump
whose code is refused is remembered all the same.
-/

set_option autoImplicit false

namespace DryRun

/-- A cause for which a script cannot be built. -/
inductive BuildFault where
  /-- A code is not a byte. -/
  | codeOutOfRange (code : Int)
  /-- A text has no UTF-8 form. -/
  | notEncodable
  /-- The name of a system call has characters other than ASCII. -/
  | nameNotAscii
  /-- The name of a system call has more than 255 bytes. -/
  | nameTooLong
  /-- The name of a contract does not have 20 bytes. -/
  | badContractSize
  /-- A jump names a label that was not placed. -/
  | undefinedLabel (label : RawText)
  /-- The distance of a jump does not fit into two bytes. -/
  | offsetTooFar (offset : Int)
deriving DecidableEq

/-- The wording of each cause. -/
def BuildFault.message : BuildFault → String
  | .codeOutOfRange code => s!"opcode {code} is not a byte"
  | .notEncodable => "text is not encodable"
  | .nameNotAscii => "syscall name is not ASCII"
  | .nameTooLong => "syscall name too long"
  | .badContractSize => "script hash must be 20 bytes"
  | .undefinedLabel label => s!"undefined label {Quoted.text label}"
  | .offsetTooFar offset => s!"jump offset {offset} out of range"

/-- A value that a script can push. -/
inductive Constant where
  /-- An integer. -/
  | int (value : Int)
  /-- A truth value. -/
  | bool (value : Bool)
  /-- A text. -/
  | text (value : RawText)
  /-- A byte string. -/
  | bytes (value : Bytes)
deriving DecidableEq

/-- A jump whose distance is not yet known. -/
structure PendingJump where
  /-- Where the instruction starts. -/
  position : Nat
  /-- The label it jumps to. -/
  label : RawText
deriving DecidableEq

/-- A script under construction. -/
structure Builder where
  /-- The bytes so far. -/
  code : Bytes
  /-- The labels and their places, latest first. -/
  labels : List (RawText × Nat)
  /-- The jumps, in order. -/
  jumps : List PendingJump

/-- A step of building. -/
abbrev Building := EStateM BuildFault Builder

namespace Builder

/-- A script with no instructions. -/
def empty : Builder := ⟨[], [], []⟩

/-- Append bytes. -/
def append (bytes : Bytes) : Building Unit :=
  modify fun b => { b with code := b.code ++ bytes }

/-- Append an instruction. -/
def emit (code : Int) (operand : Bytes) : Building Unit := do
  if 0 ≤ code ∧ code < 256 then append (UInt8.ofNat code.toNat :: operand)
  else throw (.codeOutOfRange code)

/-- The shortest instruction that pushes a byte string. -/
def pushBytes (data : Bytes) : Bytes :=
  let size := data.length
  if size ≤ 0x4B then UInt8.ofNat size :: data
  else if size < 0x100 then 0x4C :: Bytes.ofNatLE 1 size ++ data
  else if size < 0x10000 then 0x4D :: Bytes.ofNatLE 2 size ++ data
  else 0x4E :: Bytes.ofNatLE 4 size ++ data

/-- The shortest instruction that pushes an integer. -/
def pushInt (v : Int) : Bytes :=
  if v = -1 then [0x4F]
  else if 1 ≤ v ∧ v ≤ 16 then [UInt8.ofNat (0x50 + v.toNat)]
  else pushBytes (TwosComplement.encode v)

/-- Append the shortest instruction that pushes a value. -/
def push : Constant → Building Unit
  | .int v => append (pushInt v)
  | .bool b => append (pushInt (if b then 1 else 0))
  | .bytes data => append (pushBytes data)
  | .text t =>
    if t.all (·.isValidChar) then append (pushBytes (Utf8.encode (RawText.toString t)))
    else throw .notEncodable

/-- Append a system call by name. -/
def syscall (name : String) : Building Unit := do
  let some raw := SyscallId.ascii? name | throw .nameNotAscii
  if raw.length ≥ 256 then throw .nameTooLong
  append (0x68 :: UInt8.ofNat raw.length :: raw)

/-- Append a call of another contract, or a jump into it; zeros mean a contract chosen at run
time. -/
def appCall (contract : Bytes) (tail : Bool) : Building Unit := do
  if contract.length ≠ Instruction.contractSize then throw .badContractSize
  append ((if tail then 0x69 else 0x67) :: contract)

/-- Place a label here. -/
def label (name : RawText) : Building Unit :=
  modify fun b => { b with labels := (name, b.code.length) :: b.labels }

/-- Append a jump to a label. -/
def jump (code : Int) (name : RawText) : Building Unit := do
  modify fun b => { b with jumps := b.jumps ++ [⟨b.code.length, name⟩] }
  emit code [0, 0]

/-- Write the distance of a jump into its instruction. -/
def resolve (jump : PendingJump) : Building Unit := do
  let b ← get
  match b.labels.find? fun entry => entry.1 = jump.label with
  | none => throw (.undefinedLabel jump.label)
  | some (_, target) =>
    let offset := (target : Int) - jump.position
    if offset < -0x8000 ∨ 0x7FFF < offset then throw (.offsetTooFar offset)
    let operand := Bytes.ofNatLE 2 (offset % 0x10000).toNat
    let start := jump.position + 1
    set { b with code := b.code.take start ++ operand ++ b.code.drop (start + 2) }

/-- The script with all distances filled in. -/
def build : Building Bytes := do
  (← get).jumps.forM resolve
  return (← get).code

end Builder

end DryRun
