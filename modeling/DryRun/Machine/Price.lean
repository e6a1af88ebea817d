import DryRun.Machine.State
import DryRun.Number.Bitwise
import DryRun.Syscall.Registry

/-!
# Prices of instructions

Prices are counted in base units of a thousandth of a gas.  Constants are free and most
instructions cost one unit.  A system call costs what its entry says; a few have a price that
depends on their operands, which are looked up on the stack before the call takes them.
-/

set_option autoImplicit false

namespace DryRun.Price

/-- How many hundred-millionths a base unit is worth. -/
def ratio : Int := 100000

/-- How many base units make a gas. -/
def unitsPerGas : Int := 1000

/-- The price of a system call that has none. -/
def unpricedCall : Int := unitsPerGas

/-- The price of a new asset. -/
def assetCreation : Int := 5000 * unitsPerGas

/-- The price of a year of an asset. -/
def assetYear : Int := 5000 * unitsPerGas

/-- The price of a contract without rights. -/
def contractBase : Int := 100 * unitsPerGas

/-- The price of the right to keep storage. -/
def contractStorage : Int := 400 * unitsPerGas

/-- The price of the right to call contracts chosen at run time. -/
def contractDynamicInvoke : Int := 500 * unitsPerGas

/-- The price of checking signatures against one key. -/
def perKey : Int := 100

/-- The price of a contract with the rights that an integer's bits say. -/
def deploymentUnits (properties : Int) : Int :=
  contractBase + (if Bitwise.testBit properties 0 then contractStorage else 0) +
    (if Bitwise.testBit properties 1 then contractDynamicInvoke else 0)

/-- The price of storing: a unit for each kibibyte that is begun, and at least one. -/
def storageUnits (keySize valueSize : Int) : Int :=
  max 1 (-(-(keySize + valueSize) / 1024))

variable {σ η : Type}

/-- The item at a position of the evaluation stack. -/
def operand (m : Machine σ) (n : Nat) : Except Fault Item :=
  (m.stack.peek n).mapError .stack

/-- The integer at a position. -/
def operandInt (m : Machine σ) (n : Nat) : Except Fault Int := do
  ((← operand m n).toInt).mapError .item

/-- The byte string at a position. -/
def operandBytes (m : Machine σ) (n : Nat) : Except Fault Bytes := do
  ((← operand m n).toBytes).mapError .item

/-- The price of checking signatures: that of each key. -/
def multisigUnits (m : Machine σ) : Except Fault Int := do
  match m.stack.items with
  | [] => return 1
  | item :: _ =>
    let count ← match item with
      | .seq s => .ok ((m.heap.elements s).length : Int)
      | item => item.toInt.mapError Fault.item
    return if count < 1 then 1 else perKey * count

/-- The price of a system call whose price depends on its operands. -/
def dynamicUnits (method : String) (m : Machine σ) : Except Fault Int := do
  match method with
  | "Asset.Create" => return assetCreation
  | "Asset.Renew" =>
    let years ← operandInt m 1
    if years < 0 then throw (.machine (.negativeYears years))
    return years * assetYear
  | "Contract.Create" | "Contract.Migrate" => return deploymentUnits (← operandInt m 3)
  | "Storage.Put" | "Storage.PutEx" =>
    let key ← operandBytes m 1
    let value ← operandBytes m 2
    return storageUnits key.length value.length
  | _ => return unpricedCall

/-- The price of the system call of a number. -/
def syscallUnits (registry : Registry η) (id : Nat) (m : Machine σ) : Except Fault Int :=
  match registry.find? id with
  | none => .ok unpricedCall
  | some entry =>
    match entry.price with
    | some price => if price > 0 then .ok price else dynamicUnits entry.method m
    | none => dynamicUnits entry.method m

/-- The price of an instruction in base units. -/
def units (registry : Registry η) (instruction : Instruction) (m : Machine σ) :
    Except Fault Int :=
  if instruction.code ≤ 0x61 then .ok 0
  else match instruction.opcode with
  | .flow .sysCall => syscallUnits registry (SyscallId.ofOperand instruction.operand) m
  | .flow .appCall | .flow .tailCall => .ok 10
  | .crypto .sha1 | .crypto .sha256 => .ok 10
  | .crypto .hash160 | .crypto .hash256 => .ok 20
  | .crypto .checkSig | .crypto .verify => .ok 100
  | .crypto .checkMultisig => multisigUnits m
  | _ => .ok 1

/-- The price of an instruction in hundred-millionths. -/
def amount (registry : Registry η) (instruction : Instruction) (m : Machine σ) :
    Except Fault Int := do
  return (← units registry instruction m) * ratio

end DryRun.Price
