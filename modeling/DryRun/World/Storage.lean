import DryRun.Heap.Object
import DryRun.Machine.Fault
import DryRun.Node

/-!
# Storage written in a run

What a run writes into storage is kept in front of what the node has.  A key that was deleted
holds the empty byte string here, so that the node is not asked for it again.
-/

set_option autoImplicit false

namespace DryRun

/-- A contract and a key of its storage. -/
abbrev StorageKey := Bytes × Bytes

/-- The values written in a run, in order of the first write to each key. -/
abbrev StorageOverlay := Table (Prod.fst : StorageKey × Bytes → StorageKey)

namespace StorageOverlay

/-- The value under a key: the one written here, or else the node's. -/
def read (overlay : StorageOverlay) (node : Node) (height : Nat) (context : StorageContext)
    (key : Bytes) : Asking Bytes :=
  match overlay.find? (context.scriptHash, key) with
  | some (_, value) => pure value
  | none => node.storage context.scriptHash key height

/-- Write a value through a context. -/
def write (overlay : StorageOverlay) (context : StorageContext) (key value : Bytes) :
    Except SyscallFault StorageOverlay :=
  if context.readOnly then .error .readOnly
  else .ok (overlay.insert ((context.scriptHash, key), value))

/-- Delete a key through a context. -/
def delete (overlay : StorageOverlay) (context : StorageContext) (key : Bytes) :
    Except SyscallFault StorageOverlay :=
  overlay.write context key []

/-- The keys and values written under one contract. -/
def ofContract (overlay : StorageOverlay) (scriptHash : Bytes) : List (Bytes × Bytes) :=
  overlay.rows.filterMap fun ((owner, key), value) =>
    if owner = scriptHash then some (key, value) else none

/-- Copy what was written under one contract to another one. -/
def copy (overlay : StorageOverlay) (source target : Bytes) : StorageOverlay :=
  (overlay.ofContract source).foldl (fun overlay (key, value) =>
    overlay.insert ((target, key), value)) overlay

/-- Delete every key written under a contract. -/
def wipe (overlay : StorageOverlay) (scriptHash : Bytes) : StorageOverlay :=
  (overlay.ofContract scriptHash).foldl (fun overlay (key, _) =>
    overlay.insert ((scriptHash, key), [])) overlay

end StorageOverlay

end DryRun
