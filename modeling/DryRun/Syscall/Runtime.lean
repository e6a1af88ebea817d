import DryRun.Heap.Iterator
import DryRun.Item.Codec
import DryRun.World

/-!
# System calls on the run itself

The calls that check witnesses, announce events, serialize items, name the scripts on the frames,
use the storage of contracts and walk over collections.
-/

set_option autoImplicit false

namespace DryRun

/-- Calls on the run. -/
inductive RuntimeCall where
  /-- Has an account signed? -/
  | checkWitness
  /-- The time of the block at the height of the run. -/
  | getTime
  /-- Why the script runs. -/
  | getTrigger
  /-- Announce a message. -/
  | log
  /-- Announce an item. -/
  | notify
  /-- The bytes of an item. -/
  | serialize
  /-- The item of bytes. -/
  | deserialize
  /-- The name of the platform. -/
  | platform
deriving DecidableEq

/-- Calls on the frames. -/
inductive EngineCall where
  /-- What contains the script. -/
  | getScriptContainer
  /-- The running script. -/
  | getExecutingScriptHash
  /-- The script that called it. -/
  | getCallingScriptHash
  /-- The script that was loaded first. -/
  | getEntryScriptHash
deriving DecidableEq

/-- Calls on storage. -/
inductive StorageCall where
  /-- The right to the running contract's storage. -/
  | getContext
  /-- The right to read it. -/
  | getReadOnlyContext
  /-- Read a value. -/
  | get
  /-- Write a value. -/
  | put
  /-- Write a value with flags. -/
  | putEx
  /-- Delete a key. -/
  | delete
  /-- List keys. -/
  | find
  /-- Give up the right to write. -/
  | asReadOnly
deriving DecidableEq

/-- Calls on iterators. -/
inductive IteratorCall where
  /-- Walk over a sequence. -/
  | createEnumerator
  /-- Walk over a collection. -/
  | createIterator
  /-- Move on. -/
  | next
  /-- The element. -/
  | value
  /-- The key of the element. -/
  | key
  /-- One walk after another, without keys. -/
  | concatEnumerators
  /-- One walk after another. -/
  | concatIterators
  /-- The keys. -/
  | keys
  /-- The values. -/
  | values
deriving DecidableEq

namespace Exec

/-! ## The run -/

/-- The reason of every dry run: an invocation. -/
def trigger : Int := 0x10

/-- The name of the platform. -/
def platformName : Bytes := Utf8.encode "NEO"

/-- Has the account of a hash or key signed? -/
def checkWitness (setting : Setting) (operand : Bytes) : Exec World Bool := do
  match setting.witnesses.check operand with
  | .ok answer => return answer
  | .error cause => refuse (.key cause)

/-- The time of the block at the height of the run. -/
def blockTime (setting : Setting) : Exec World Nat := do
  match ← asking (setting.node.headerAt setting.height) with
  | some header => return header.timestamp.toNat
  | none => refuse (.noHeader setting.height)

/-- Do what a call on the run says. -/
def runtime (setting : Setting) : RuntimeCall → Exec World Unit
  | .checkWitness => do pushBool (← checkWitness setting (← popBytes))
  | .getTime => do pushInt (← blockTime setting)
  | .getTrigger => pushInt trigger
  | .log => do
    let message ← popBytes
    announce (.log (← executing) (Utf8.decodeLossy message))
  | .notify => do
    let item ← pop
    announce (.notify (← executing) ((← get).heap.label item))
  | .serialize => do
    let item ← pop
    let tree := (← get).heap.unfold item
    pushBytes (← tree.serialize)
  | .deserialize => do
    let tree ← Tree.deserialize (← popBytes)
    push (← onHeap (·.build tree))
  | .platform => pushBytes platformName

/-! ## The frames -/

/-- The hash of the script of a frame, or nothing if there is no such frame. -/
def hashOf (frame : Option Frame) : Bytes :=
  (frame.map Frame.scriptHash).getD []

/-- Push the name of a script. -/
def engine : EngineCall → Exec World Unit
  | .getScriptContainer =>
    refuse (.unsupported "ExecutionEngine.GetScriptContainer"
      "a dry run has no script container")
  | .getExecutingScriptHash => do pushBytes (← executing)
  | .getCallingScriptHash => do pushBytes (hashOf (← get).calling?)
  | .getEntryScriptHash => do pushBytes (hashOf (← get).outermost?)

/-! ## Storage -/

/-- The most bytes of a storage key. -/
def maxStorageKey : Nat := 1024

/-- Pop a storage context. -/
def popContext : Exec World StorageContext :=
  popObject "StorageContext" fun
    | .storageContext c => some c
    | _ => none

/-- Write a value; flags are taken but not kept. -/
def put (withFlags : Bool) : Exec World Unit := do
  let context ← popContext
  let key ← popBytes
  if key.length > maxStorageKey then refuse (.size (.storageKey key.length maxStorageKey))
  let value ← popBytes
  if value.length > maxItemSize then refuse (.size (.storageValue value.length))
  if withFlags then
    let _ ← popInt
  match (← get).world.storage.write context key value with
  | .ok storage => modifyWorld ({ · with storage })
  | .error cause => refuse cause

/-- Delete a key. -/
def delete : Exec World Unit := do
  let context ← popContext
  let key ← popBytes
  match (← get).world.storage.delete context key with
  | .ok storage => modifyWorld ({ · with storage })
  | .error cause => refuse cause

/-- Do what a call on storage says. -/
def storage (setting : Setting) : StorageCall → Exec World Unit
  | .getContext => do pushObject (.storageContext ⟨← executing, false⟩)
  | .getReadOnlyContext => do pushObject (.storageContext ⟨← executing, true⟩)
  | .get => do
    let context ← popContext
    let key ← popBytes
    let overlay := (← get).world.storage
    pushBytes (← asking (overlay.read setting.node setting.height context key))
  | .put => put false
  | .putEx => put true
  | .delete => delete
  | .find => refuse (.unsupported "Storage.Find" "the node interface has no prefix scan")
  | .asReadOnly => do
    let context ← popContext
    pushObject (.storageContext context.asReadOnly)

/-! ## Iterators -/

/-- Pop an iterator, with or without keys. -/
def popIterator (keyed : Bool) : Exec World Nat := do
  let expected := if keyed then "Iterator" else "Enumerator"
  let (handle, _) ← popHandle expected fun
    | .iterator it => if keyed && !it.hasKeys then none else some it
    | _ => none
  return handle.root

/-- Push one walk after another. -/
def concatIterators (keyed : Bool) : Exec World Unit := do
  let first ← popIterator keyed
  let second ← popIterator keyed
  pushObject (.iterator (.concat keyed first second false))

/-- Do what a call on iterators says. -/
def iterator : IteratorCall → Exec World Unit
  | .createEnumerator => do
    let item ← pop
    pushObject (.iterator (← (← get).heap.enumerate item))
  | .createIterator => do
    let item ← pop
    pushObject (.iterator (← (← get).heap.iterate item))
  | .next => do
    let id ← popIterator false
    pushBool (← onHeap (·.advance id))
  | .value => do
    let id ← popIterator false
    push (← (← get).heap.iteratorValue id)
  | .key => do
    let id ← popIterator true
    push (← (← get).heap.iteratorKey id)
  | .concatEnumerators => concatIterators false
  | .concatIterators => concatIterators true
  | .keys => do pushObject (.iterator (.keys (← popIterator true)))
  | .values => do pushObject (.iterator (.values (← popIterator true)))

end Exec

end DryRun
