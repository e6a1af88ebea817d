import DryRun.Chain.Account
import DryRun.Chain.Asset
import DryRun.Chain.Block
import DryRun.Chain.Contract
import DryRun.Item

/-!
# Objects behind handles

A script sees chain data, storage contexts and iterators only through handles.  This file lists
what a handle can stand for, the parts that have handles of their own, and the class names under
which objects appear in messages.
-/

set_option autoImplicit false

namespace DryRun

/-- The right to use the storage of one contract. -/
structure StorageContext where
  /-- The contract. -/
  scriptHash : Bytes
  /-- Is writing forbidden? -/
  readOnly : Bool
deriving DecidableEq

/-- The same context without the right to write. -/
def StorageContext.asReadOnly (context : StorageContext) : StorageContext :=
  { context with readOnly := true }

/-- What an iterator walks over. -/
inductive WalkSource where
  /-- The elements of a sequence. -/
  | sequence
  /-- The entries of a map. -/
  | map
deriving DecidableEq

/-- An iterator.  One that is built from others names them by their numbers. -/
inductive Iterator where
  /-- A walk over keys and values that were copied when it began. -/
  | walk (source : WalkSource) (current : Option (Item × Item)) (rest : List (Item × Item))
  /-- One iterator after another; `keyed` if both have keys, `switched` once the second has its
  turn. -/
  | concat (keyed : Bool) (first second : Nat) (switched : Bool)
  /-- The keys of an iterator. -/
  | keys (source : Nat)
  /-- The values of an iterator. -/
  | values (source : Nat)

namespace Iterator

/-- Does the iterator have keys of its own? -/
def hasKeys : Iterator → Bool
  | .walk .. => true
  | .concat keyed .. => keyed
  | .keys _ => false
  | .values _ => false

/-- The name of the class of an iterator. -/
def className : Iterator → String
  | .walk .sequence .. => "ArrayWrapper"
  | .walk .map .. => "MapWrapper"
  | .concat false .. => "ConcatenatedEnumerator"
  | .concat true .. => "ConcatenatedIterator"
  | .keys _ => "IteratorKeysWrapper"
  | .values _ => "IteratorValuesWrapper"

end Iterator

/-- What a handle can stand for. -/
inductive Object where
  /-- A storage context. -/
  | storageContext (context : StorageContext)
  /-- A block. -/
  | block (block : Block)
  /-- A block header. -/
  | header (header : Header)
  /-- A transaction. -/
  | transaction (transaction : Transaction)
  /-- An attribute of a transaction. -/
  | attr (value : Attribute)
  /-- An input of a transaction. -/
  | input (input : Input)
  /-- An output of a transaction. -/
  | output (output : Output)
  /-- A witness. -/
  | witness (witness : Witness)
  /-- An account. -/
  | account (account : Account)
  /-- An asset. -/
  | asset (asset : Asset)
  /-- A contract. -/
  | contract (contract : Contract)
  /-- An iterator. -/
  | iterator (iterator : Iterator)

namespace Object

/-- The name of the class of an object. -/
def className : Object → String
  | .storageContext _ => "StorageContext"
  | .block _ => "Block"
  | .header _ => "BlockHeader"
  | .transaction _ => "Transaction"
  | .attr _ => "TransactionAttribute"
  | .input _ => "TransactionInput"
  | .output _ => "TransactionOutput"
  | .witness _ => "Witness"
  | .account _ => "AccountState"
  | .asset _ => "AssetState"
  | .contract _ => "ContractState"
  | .iterator it => it.className

/-- The part of an object at the end of one step. -/
def part? : Part → Object → Option Object
  | .transaction i, .block b => .transaction <$> b.transactions[i]?
  | .attr i, .transaction t => .attr <$> t.attributes[i]?
  | .input i, .transaction t => .input <$> t.inputs[i]?
  | .output i, .transaction t => .output <$> t.outputs[i]?
  | .witness i, .transaction t => .witness <$> t.witnesses[i]?
  | _, _ => none

end Object

end DryRun
