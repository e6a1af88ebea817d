import DryRun.Machine.Step
import DryRun.World.Contracts
import DryRun.World.Storage
import DryRun.World.Witnesses

/-!
# The world of a run

What system calls can see and change besides the machine: the conversation with the node, the
storage and the contracts touched in the run, and the events it has announced.  The node, the
height and the witnesses are fixed for the whole run.
-/

set_option autoImplicit false

namespace DryRun

/-- Something a script announces. -/
inductive Event where
  /-- A message of a script. -/
  | log (scriptHash : Bytes) (message : String)
  /-- An item, shown by its label. -/
  | notify (scriptHash : Bytes) (label : String)
deriving DecidableEq

/-- The text of an event. -/
def Event.text : Event → String
  | .log scriptHash message => s!"[LOG] {Hex.display scriptHash}: {message}"
  | .notify scriptHash label => s!"[NOTIFY] {Hex.display scriptHash}: {label}"

/-- What is fixed for a run. -/
structure Setting where
  /-- The node. -/
  node : Node
  /-- The height at which the chain is looked at. -/
  height : Nat
  /-- The accounts that have signed. -/
  witnesses : WitnessSet

/-- What a run changes outside the machine. -/
structure World where
  /-- The conversation with the node. -/
  link : Link
  /-- The storage written so far. -/
  storage : StorageOverlay
  /-- The contracts touched so far. -/
  contracts : ContractOverlay
  /-- The events so far, latest first. -/
  events : List Event

/-- The world before a run, in the middle of a conversation. -/
def World.fresh (link : Link) : World :=
  { link, storage := .empty, contracts := .empty, events := [] }

namespace Exec

variable {α : Type}

/-! ## Reaching the world -/

/-- Change the world. -/
def modifyWorld (f : World → World) : Exec World Unit :=
  modify fun m => { m with world := f m.world }

/-- Fail for a cause in a system call. -/
def refuse (cause : SyscallFault) : Exec World α :=
  throw (.syscall cause)

/-- Ask the node. -/
def asking (question : Asking α) : Exec World α := do
  match question (← get).world.link with
  | .ok a link =>
    modifyWorld ({ · with link })
    return a
  | .error cause link =>
    modifyWorld ({ · with link })
    throw (.node cause)

/-- Announce an event. -/
def announce (event : Event) : Exec World Unit :=
  modifyWorld fun w => { w with events := event :: w.events }

/-- The hash of the running script. -/
def executing : Exec World Bytes := do
  return ((← get).current?.map Frame.scriptHash).getD []

/-! ## Objects on the stack -/

/-- Pop a handle to an object of one class. -/
def popHandle (expected : String) (select : Object → Option α) : Exec World (Handle × α) := do
  let item ← pop
  let heap := (← get).heap
  let found := match item with
    | .handle h => ((heap.object? h).bind select).map fun value => (h, value)
    | _ => none
  match found with
  | some found => return found
  | none => refuse (.wrongType expected (heap.className item))

/-- Pop an object of one class. -/
def popObject (expected : String) (select : Object → Option α) : Exec World α :=
  Prod.snd <$> popHandle expected select

/-- Push a handle to a new object, or the empty byte string for none. -/
def pushOptional (object : Option Object) : Exec World Unit :=
  match object with
  | some object => pushObject object
  | none => pushBytes []

/-- Push an array of handles to parts of an object. -/
def pushParts (handle : Handle) (part : Nat → Part) (count : Nat) : Exec World Unit := do
  if count > maxCollectionSize then refuse (.tooManyItems count)
  pushSequence .array ((List.range count).map fun i =>
    .handle { handle with path := handle.path ++ [part i] })

/-- Pop a hash of a size. -/
def popHash (size : Nat) : Exec World Bytes := do
  let data ← popBytes
  if data.length ≠ size then refuse (.size (.hash size data.length))
  return data

/-! ## Contracts -/

/-- Where a contract was found. -/
inductive FoundContract where
  /-- It was deployed in this run. -/
  | deployed (deployed : Deployed)
  /-- The node has it. -/
  | remote (contract : Contract)

/-- The contract that was found. -/
def FoundContract.contract : FoundContract → Contract
  | .deployed d => d.contract
  | .remote c => c

/-- The contract of a name: what the run has made of it, or else what the node has. -/
def findContract (setting : Setting) (scriptHash : Bytes) :
    Exec World (Option FoundContract) := do
  match (← get).world.contracts.lookup scriptHash with
  | some fate => return fate.map .deployed
  | none =>
    return (← asking (setting.node.contract scriptHash setting.height)).map .remote

/-- Push a handle to a contract.  A contract deployed in this run has one object for all. -/
def pushContract : FoundContract → Exec World Unit
  | .deployed d => push (.handle ⟨d.object, []⟩)
  | .remote c => pushObject (.contract c)

/-- The script of a contract that is called. -/
def findCallee (setting : Setting) (scriptHash : Bytes) : Exec World (Option Callee) := do
  return (← findContract setting scriptHash).map fun found =>
    ⟨found.contract.script, found.contract.hasDynamicInvoke⟩

end Exec

end DryRun
