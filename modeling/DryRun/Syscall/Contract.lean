import DryRun.World

/-!
# System calls on contracts

A running script can deploy a contract, destroy the contract it belongs to, or replace that
contract by a new one.  All this happens in the run only.
-/

set_option autoImplicit false

namespace DryRun

/-- Calls on contracts. -/
inductive ContractCall where
  /-- Deploy a contract. -/
  | create
  /-- Replace the running contract. -/
  | migrate
  /-- Destroy the running contract. -/
  | destroy
  /-- The script. -/
  | getScript
  /-- May it be paid? -/
  | isPayable
  /-- The right to its storage. -/
  | getStorageContext
deriving DecidableEq

namespace Exec

/-- Pop a contract. -/
def popContract : Exec World Contract :=
  popObject "ContractState" fun
    | .contract c => some c
    | _ => none

/-! ## Deploying -/

/-- Pop a field of a contract that has at most `limit` bytes. -/
def popField (limit : Nat) (what : String) : Exec World Bytes := do
  let data ← popBytes
  if data.length > limit then refuse (.size (.contractField what data.length limit))
  return data

/-- The most bytes of a short field. -/
def maxShortField : Nat := 252

/-- The most bytes of a description. -/
def maxDescription : Nat := 65536

/-- Pop a field that holds text; what is not UTF-8 is replaced. -/
def popText (limit : Nat) (what : String) : Exec World String := do
  return Utf8.decodeLossy (← popField limit what)

/-- Pop an integer that must be a byte. -/
def popByte (cause : Int → SyscallFault) : Exec World UInt8 := do
  let v ← popInt
  if v < 0 ∨ v > 0xFF then refuse (cause v)
  return .ofNat v.toNat

/-- Pop the description of a new contract. -/
def popNewContract : Exec World Contract := do
  let script ← popField maxItemSize "script"
  let paramList ← popField maxShortField "parameter list"
  let returnType ← popByte .returnType
  let properties ← popByte .contractProperties
  let name ← popText maxShortField "name"
  let codeVersion ← popText maxShortField "version"
  let author ← popText maxShortField "author"
  let email ← popText maxShortField "email"
  let description ← popText maxDescription "description"
  return { script, paramList, returnType, properties, name, codeVersion, author, email,
           description }

/-- Deploy a contract in the name of the running script.  Where there already is a contract of this
name, that one stays. -/
def deploy (setting : Setting) (contract : Contract) : Exec World FoundContract := do
  match ← findContract setting contract.scriptHash with
  | some found => return found
  | none =>
    let handle ← onHeap (·.makeObject (.contract contract))
    let deployed : Deployed := ⟨contract, handle.root⟩
    let creator ← executing
    modifyWorld fun w => { w with contracts := w.contracts.deploy deployed (some creator) }
    return .deployed deployed

/-! ## Destroying -/

/-- Destroy a contract and delete what the run wrote into its storage. -/
def destroyContract (setting : Setting) (scriptHash : Bytes) : Exec World Unit := do
  if (← findContract setting scriptHash).isSome then
    modifyWorld fun w =>
      { w with contracts := w.contracts.destroy scriptHash, storage := w.storage.wipe scriptHash }

/-- Deploy a contract in place of the running one.  What the run wrote into the storage of the old
one goes to the new one, if that has storage. -/
def migrate (setting : Setting) : Exec World Unit := do
  let found ← deploy setting (← popNewContract)
  let source ← executing
  let target := found.contract.scriptHash
  if found.contract.hasStorage ∧ target ≠ source then
    modifyWorld fun w => { w with storage := w.storage.copy source target }
  pushContract found
  destroyContract setting source

/-! ## Storage -/

/-- Push the right to the storage of a contract that the running script has deployed. -/
def contractStorage : Exec World Unit := do
  let contract ← popContract
  let scriptHash := contract.scriptHash
  if (← get).world.contracts.creatorOf scriptHash ≠ some (← executing) then refuse .notCreator
  pushObject (.storageContext ⟨scriptHash, false⟩)

/-- Do what a call on contracts says. -/
def contract (setting : Setting) : ContractCall → Exec World Unit
  | .create => do pushContract (← deploy setting (← popNewContract))
  | .migrate => migrate setting
  | .destroy => do destroyContract setting (← executing)
  | .getScript => do pushBytes (← popContract).script
  | .isPayable => do pushBool (← popContract).isPayable
  | .getStorageContext => contractStorage

end Exec

end DryRun
