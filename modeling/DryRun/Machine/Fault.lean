import DryRun.Item.Stack
import DryRun.Machine.GasLimit
import DryRun.Node.Error
import DryRun.Script.Instruction
import DryRun.Script.SyscallId

/-!
# Faults

Every cause that ends a run early, by the part of the machine in which it arises, with the wording
under which it is reported.
-/

set_option autoImplicit false

namespace DryRun

/-! ## The machine itself -/

/-- Operations on collections that name themselves when they refuse an item. -/
inductive CollectionUse where
  /-- Pushing the elements. -/
  | unpack
  /-- Looking up an element. -/
  | pickItem
  /-- Replacing an element. -/
  | setItem
  /-- Adding an element. -/
  | append
  /-- Reversing the elements. -/
  | reverse
  /-- Dropping an element. -/
  | remove
  /-- Asking for an element. -/
  | hasKey
  /-- Listing the keys. -/
  | keys
  /-- Listing the values. -/
  | values
deriving DecidableEq

/-- What cannot be done with an item of another kind. -/
def CollectionUse.text : CollectionUse → String
  | .unpack => "UNPACK"
  | .pickItem => "PICKITEM from"
  | .setItem => "SETITEM on"
  | .append => "APPEND to"
  | .reverse => "REVERSE"
  | .remove => "REMOVE from"
  | .hasKey => "HASKEY on"
  | .keys => "take KEYS of"
  | .values => "take VALUES of"

/-- The operations that need an element at an index. -/
inductive IndexUse where
  /-- Looking up an element. -/
  | pickItem
  /-- Replacing an element. -/
  | setItem
  /-- Dropping an element. -/
  | remove
deriving DecidableEq

/-- The name of the operation. -/
def IndexUse.text : IndexUse → String
  | .pickItem => "PICKITEM"
  | .setItem => "SETITEM"
  | .remove => "REMOVE"

/-- What a multiple signature check takes from the stack. -/
inductive SignatureGroup where
  /-- The keys. -/
  | publicKey
  /-- The signatures. -/
  | signature
deriving DecidableEq

/-- The name of a member of the group. -/
def SignatureGroup.text : SignatureGroup → String
  | .publicKey => "public key"
  | .signature => "signature"

/-- A cause that lies in the machine and its instructions. -/
inductive MachineFault where
  /-- There is nothing to run. -/
  | noScript
  /-- An instruction cannot be read. -/
  | fetch (cause : FetchFault)
  /-- A code has no operation. -/
  | unknownOpcode (code : UInt8)
  /-- The gas limit is exceeded. -/
  | gasLimit (consumed : Int) (limit : GasLimit)
  /-- An asset cannot be renewed for a negative time. -/
  | negativeYears (years : Int)
  /-- There are too many items on the stacks. -/
  | stackLimit
  /-- There are too many frames. -/
  | frameLimit
  /-- A jump leaves the script. -/
  | jumpTarget (target : Int)
  /-- A contract may not choose another one at run time. -/
  | dynamicCallForbidden
  /-- The contract chosen at run time is not named by 20 bytes. -/
  | badDynamicTarget
  /-- There is no contract of this name. -/
  | contractNotFound (scriptHash : Bytes)
  /-- There is no system call of this name. -/
  | unknownSyscall (operand : Bytes)
  /-- A position is negative. -/
  | negativeIndex (index : Int)
  /-- The top cannot be tucked under itself. -/
  | tuckAtZero
  /-- Joined bytes would be too long. -/
  | catTooLong
  /-- There are fewer bytes than are to be kept. -/
  | rightTooLong
  /-- A shift is too far. -/
  | shiftOutOfRange (shift : Int)
  /-- A divisor is zero. -/
  | divisionByZero
  /-- There cannot be this many keys or signatures. -/
  | groupCount (group : SignatureGroup) (count : Int)
  /-- There are no keys. -/
  | noPublicKeys
  /-- There are no signatures, or more than keys. -/
  | signatureCount (signatures keys : Nat)
  /-- There cannot be an array of this many items. -/
  | packCount (count : Int)
  /-- An item is of the wrong kind for an operation. -/
  | wrongKind (use : CollectionUse) (kind : ItemKind)
  /-- A sequence has no element at an index. -/
  | indexOutOfRange (use : IndexUse) (index : Int)
  /-- An index that is asked for is negative. -/
  | negativeKey (index : Int)
  /-- A sequence cannot have this size. -/
  | sequenceSize (size : Int)
  /-- A sequence has as many elements as it may have. -/
  | sequenceFull
  /-- The script failed on purpose. -/
  | thrown
  /-- The script failed because something does not hold. -/
  | thrownIfNot
deriving DecidableEq

/-- The wording of each cause. -/
def MachineFault.message : MachineFault → String
  | .noScript => "no script loaded"
  | .fetch cause => cause.message
  | .unknownOpcode code => s!"unknown opcode {FormatError.byteText code}"
  | .gasLimit consumed limit => s!"gas limit exceeded: {consumed} > {limit.text}"
  | .negativeYears years => s!"cannot renew an asset for {years} years"
  | .stackLimit => "stack size limit exceeded"
  | .frameLimit => "invocation stack overflow"
  | .jumpTarget target => s!"jump target {target} out of range"
  | .dynamicCallForbidden => "dynamic invoke is not allowed for this contract"
  | .badDynamicTarget => "dynamic call target must be a 20-byte script hash"
  | .contractNotFound scriptHash => s!"contract {Hex.display scriptHash} not found"
  | .unknownSyscall operand =>
    s!"unknown syscall {Quoted.bytes operand} (id {SyscallId.text (SyscallId.ofOperand operand)})"
  | .negativeIndex index => s!"negative index {index}"
  | .tuckAtZero => "XTUCK index must be positive"
  | .catTooLong => "CAT result exceeds the item size limit"
  | .rightTooLong => "RIGHT count exceeds data length"
  | .shiftOutOfRange shift => s!"shift {shift} out of range"
  | .divisionByZero => "division by zero"
  | .groupCount group count => s!"invalid {group.text} count {count}"
  | .noPublicKeys => "CHECKMULTISIG needs at least one public key"
  | .signatureCount signatures keys =>
    s!"CHECKMULTISIG signature count {signatures} invalid for {keys} keys"
  | .packCount count => s!"cannot PACK {count} items"
  | .wrongKind use kind => s!"cannot {use.text} {kind.name}"
  | .indexOutOfRange use index => s!"{use.text} index {index} out of range"
  | .negativeKey index => s!"HASKEY index {index} is negative"
  | .sequenceSize size => s!"array size {size} out of range"
  | .sequenceFull => "array size limit exceeded"
  | .thrown => "THROW"
  | .thrownIfNot => "THROWIFNOT"

/-! ## Keys and witnesses -/

/-- A cause for which bytes are not a key or a witness. -/
inductive KeyFault where
  /-- A key does not have the right size. -/
  | badSize (size : Nat)
  /-- A key does not have the form with one coordinate. -/
  | notCompressed
  /-- A key is not a point of the curve. -/
  | notOnCurve
  /-- A witness is neither an account nor a key. -/
  | badWitnessSize (size : Nat)
deriving DecidableEq

/-- The wording of each cause. -/
def KeyFault.message : KeyFault → String
  | .badSize size => s!"expected a 33-byte key, got {size}"
  | .notCompressed => "only compressed public keys are accepted"
  | .notOnCurve => "not a valid secp256r1 public key: <point>"
  | .badWitnessSize size => s!"witness must be a 20-byte hash or 33-byte key, got {size} bytes"

/-! ## System calls -/

/-- An operand whose size is wrong. -/
inductive SizeFault where
  /-- A hash has another size. -/
  | hash (expected actual : Nat)
  /-- A block is named by neither an index nor a hash. -/
  | blockElement (actual : Nat)
  /-- A storage key is too long. -/
  | storageKey (actual limit : Nat)
  /-- A storage value is too long. -/
  | storageValue (actual : Nat)
  /-- A field of a contract is too long. -/
  | contractField (what : String) (actual limit : Nat)
deriving DecidableEq

/-- The wording of each cause. -/
def SizeFault.message : SizeFault → String
  | .hash expected actual => s!"expected a {expected}-byte hash, got {actual} bytes"
  | .blockElement actual => s!"block element must be an index or a 32-byte hash, got {actual} bytes"
  | .storageKey actual limit => s!"storage key of {actual} bytes exceeds {limit}"
  | .storageValue actual => s!"storage value of {actual} bytes is too large"
  | .contractField what actual limit => s!"{what} of {actual} bytes exceeds {limit}"

/-- A cause that lies in a system call. -/
inductive SyscallFault where
  /-- An operand is not the object that is expected. -/
  | wrongType (expected actual : String)
  /-- An operand has the wrong size. -/
  | size (cause : SizeFault)
  /-- An operand is not a key or a witness. -/
  | key (cause : KeyFault)
  /-- There is no block of this index. -/
  | blockIndex (index : Int)
  /-- A block has no transaction of this index. -/
  | transactionIndex (index : Int)
  /-- A transaction has no output of this index. -/
  | outputIndex (index : Nat)
  /-- There are more items than an array may have. -/
  | tooManyItems (count : Nat)
  /-- There are more inputs than an array may have. -/
  | tooManyInputs (count : Nat)
  /-- A storage context does not allow writing. -/
  | readOnly
  /-- The call cannot be answered in a dry run. -/
  | unsupported (name reason : String)
  /-- An input refers to a transaction that does not exist. -/
  | missingReference (transactionHash : Bytes)
  /-- An asset cannot be renewed for this time. -/
  | renewalYears (years : Int)
  /-- Only who deployed a contract in this run may use its storage. -/
  | notCreator
  /-- A type of result is not a byte. -/
  | returnType (value : Int)
  /-- The rights of a contract are not a byte. -/
  | contractProperties (value : Int)
  /-- The node does not know the header of the run's own height. -/
  | noHeader (height : Nat)
deriving DecidableEq

/-- The wording of each cause. -/
def SyscallFault.message : SyscallFault → String
  | .wrongType expected actual => s!"expected {expected}, got {actual}"
  | .size cause => cause.message
  | .key cause => cause.message
  | .blockIndex index => s!"block index {index} out of range"
  | .transactionIndex index => s!"transaction index {index} out of range"
  | .outputIndex index => s!"output index {index} out of range"
  | .tooManyItems count => s!"{count} items exceed the array limit of {maxCollectionSize}"
  | .tooManyInputs count => s!"{count} inputs exceed the array limit"
  | .readOnly => "storage context is read only"
  | .unsupported name reason => s!"{name} is not supported in a dry run: {reason}"
  | .missingReference hash => s!"referenced transaction {Hex.display hash} not found"
  | .renewalYears years => s!"cannot renew an asset for {years} years"
  | .notCreator => "storage context is only available to the contract's creator"
  | .returnType value => s!"invalid return type {value}"
  | .contractProperties value => s!"invalid contract properties {value}"
  | .noHeader height => s!"node has no header at the pinned height {height}"

/-! ## All faults -/

/-- A cause that ends a run. -/
inductive Fault where
  /-- An item has no value of the kind that is needed. -/
  | item (cause : ItemFault)
  /-- A stack is too short. -/
  | stack (cause : StackFault)
  /-- The machine refuses an instruction. -/
  | machine (cause : MachineFault)
  /-- A system call refuses its operands. -/
  | syscall (cause : SyscallFault)
  /-- The node does not answer. -/
  | node (cause : NodeError)

/-- The wording of each fault. -/
def Fault.message : Fault → RawText
  | .item cause => .ofString cause.message
  | .stack cause => cause.message
  | .machine cause => .ofString cause.message
  | .syscall cause => .ofString cause.message
  | .node cause => cause.message

end DryRun
