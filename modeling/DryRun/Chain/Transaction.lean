import DryRun.Chain.Header

/-!
# Transactions

A transaction has a type with fields of its own, then attributes, inputs, outputs and witnesses.
It keeps the bytes it was read from, all of them and those before the witnesses, and its hash
covers the latter.
-/

set_option autoImplicit false

namespace DryRun

/-- The most elements a list inside a transaction may have. -/
def maxTransactionList : Nat := 0xFFFF

/-! ## Attributes -/

/-- A remark or a reference attached to a transaction. -/
structure Attribute where
  /-- What the data is for. -/
  usage : UInt8
  /-- The data. -/
  data : Bytes
deriving DecidableEq

namespace Attribute

/-- Read an attribute; its usage decides how much data follows. -/
def read : Reader Attribute := do
  let usage ← Reader.u8
  let data ←
    if usage = 0x02 ∨ usage = 0x03 then do pure (usage :: (← Reader.take 32))
    else if usage = 0x00 ∨ usage = 0x30 ∨ (0xA1 ≤ usage ∧ usage ≤ 0xAF) then Reader.take 32
    else if usage = 0x20 then Reader.take 20
    else if usage = 0x81 then do Reader.take (← Reader.u8).toNat
    else if usage = 0x90 ∨ 0xF0 ≤ usage then Reader.varBytes 0xFFFF
    else throw (.unknownAttributeUsage usage)
  return ⟨usage, data⟩

end Attribute

/-! ## Inputs and outputs -/

/-- A reference to an output of an earlier transaction. -/
structure Input where
  /-- The hash of that transaction. -/
  prevHash : Bytes
  /-- Which of its outputs. -/
  prevIndex : UInt16
deriving DecidableEq

/-- Read an input. -/
def Input.read : Reader Input := do
  let prevHash ← Reader.hash256
  let prevIndex ← Reader.u16
  return ⟨prevHash, prevIndex⟩

/-- An amount of an asset given to an account. -/
structure Output where
  /-- The asset. -/
  assetId : Bytes
  /-- The amount in hundred-millionths. -/
  amount : Int64
  /-- The account. -/
  scriptHash : Bytes
deriving DecidableEq

/-- Read an output. -/
def Output.read : Reader Output := do
  let assetId ← Reader.hash256
  let amount ← Reader.i64
  let scriptHash ← Reader.hash160
  return ⟨assetId, amount, scriptHash⟩

/-! ## The fields of each type -/

/-- A change of an account or validator entry. -/
structure Descriptor where
  /-- What kind of entry. -/
  kind : UInt8
  /-- The entry. -/
  key : Bytes
  /-- Which field of it. -/
  field : String
  /-- The new value. -/
  value : Bytes
deriving DecidableEq

/-- Read a descriptor. -/
def Descriptor.read : Reader Descriptor := do
  let kind ← Reader.u8
  let key ← Reader.varBytes 100
  let field ← Reader.varString 32
  let value ← Reader.varBytes 0xFFFF
  return { kind, key, field, value }

/-- An asset as a transaction announces it. -/
structure Registration where
  /-- What kind of asset. -/
  assetType : UInt8
  /-- Its name. -/
  name : String
  /-- The total amount. -/
  amount : Int64
  /-- How many decimals amounts have. -/
  precision : UInt8
  /-- The owner's key. -/
  owner : Bytes
  /-- The administrator's account. -/
  admin : Bytes
deriving DecidableEq

/-- Read a registration. -/
def Registration.read : Reader Registration := do
  let assetType ← Reader.u8
  let name ← Reader.varString 1024
  let amount ← Reader.i64
  let precision ← Reader.u8
  let owner ← Reader.curvePoint
  let admin ← Reader.hash160
  return { assetType, name, amount, precision, owner, admin }

/-- A contract as a transaction announces it. -/
structure Publication where
  /-- The script. -/
  script : Bytes
  /-- The types of the parameters. -/
  paramList : Bytes
  /-- The type of the result. -/
  returnType : UInt8
  /-- Does the contract use storage? -/
  needStorage : Bool
  /-- Its name. -/
  name : String
  /-- Its version. -/
  codeVersion : String
  /-- Who wrote it. -/
  author : String
  /-- How to reach the author. -/
  email : String
  /-- What it does. -/
  description : String
deriving DecidableEq

/-- Read a publication; the first version of the format has no storage flag. -/
def Publication.read (version : UInt8) : Reader Publication := do
  let script ← Reader.varBytes Reader.maxFieldSize
  let paramList ← Reader.varBytes Reader.maxFieldSize
  let returnType ← Reader.u8
  let needStorage ← if version ≥ 1 then Reader.bool else pure false
  let name ← Reader.varString 0xFFFF
  let codeVersion ← Reader.varString 0xFFFF
  let author ← Reader.varString 0xFFFF
  let email ← Reader.varString 0xFFFF
  let description ← Reader.varString 0xFFFF
  return { script, paramList, returnType, needStorage, name, codeVersion, author, email,
           description }

/-- The fields that only transactions of one type have. -/
inductive Payload where
  /-- The reward of a block. -/
  | miner (nonce : UInt32)
  /-- New units of an asset. -/
  | issue
  /-- Claimed rewards. -/
  | claim (claims : List Input)
  /-- A candidate validator. -/
  | enrollment (publicKey : Bytes)
  /-- A new asset. -/
  | register (registration : Registration)
  /-- A plain transfer. -/
  | contract
  /-- Votes and validator entries. -/
  | state (descriptors : List Descriptor)
  /-- A new contract. -/
  | publish (publication : Publication)
  /-- A script to run, and the gas paid for it. -/
  | invocation (script : Bytes) (gas : Int64)
deriving DecidableEq

namespace Payload

/-- The byte that announces the type. -/
def typeByte : Payload → UInt8
  | .miner .. => 0x00
  | .issue => 0x01
  | .claim .. => 0x02
  | .enrollment .. => 0x20
  | .register .. => 0x40
  | .contract => 0x80
  | .state .. => 0x90
  | .publish .. => 0xD0
  | .invocation .. => 0xD1

/-- Read the fields of a type. -/
def read (typeByte version : UInt8) : Reader Payload :=
  match typeByte with
  | 0x00 => .miner <$> Reader.u32
  | 0x01 => pure .issue
  | 0x02 => .claim <$> Reader.array Input.read maxTransactionList
  | 0x20 => .enrollment <$> Reader.curvePoint
  | 0x40 => .register <$> Registration.read
  | 0x80 => pure .contract
  | 0x90 => .state <$> Reader.array Descriptor.read 16
  | 0xD0 => .publish <$> Publication.read version
  | 0xD1 => do
    let script ← Reader.varBytes 65536
    let gas ← if version ≥ 1 then Reader.i64 else pure 0
    return .invocation script gas
  | unknown => throw (.unknownTransactionType unknown)

end Payload

/-! ## Transactions -/

/-- A transaction, with the bytes it was read from. -/
structure Transaction where
  /-- The version of the format. -/
  version : UInt8
  /-- The type and the fields of its own. -/
  payload : Payload
  /-- The attributes. -/
  attributes : List Attribute
  /-- The outputs that are spent. -/
  inputs : List Input
  /-- The outputs that are made. -/
  outputs : List Output
  /-- The signatures. -/
  witnesses : List Witness
  /-- The bytes before the witnesses. -/
  unsigned : Bytes
  /-- All bytes. -/
  raw : Bytes
deriving DecidableEq

namespace Transaction

/-- Everything before the witnesses. -/
def readUnsigned : Reader (UInt8 × Payload × List Attribute × List Input × List Output) := do
  let typeByte ← Reader.u8
  let version ← Reader.u8
  let payload ← Payload.read typeByte version
  let attributes ← Reader.array Attribute.read maxTransactionList
  let inputs ← Reader.array Input.read maxTransactionList
  let outputs ← Reader.array Output.read maxTransactionList
  return (version, payload, attributes, inputs, outputs)

/-- Read a transaction. -/
def read : Reader Transaction := do
  let (((version, payload, attributes, inputs, outputs), unsigned, witnesses), raw) ←
    Reader.withSpan do
      let (fields, unsigned) ← Reader.withSpan readUnsigned
      let witnesses ← Reader.array Witness.read maxTransactionList
      return (fields, unsigned, witnesses)
  return { version, payload, attributes, inputs, outputs, witnesses, unsigned, raw }

/-- The hash of a transaction, which its witnesses do not enter. -/
def hash (t : Transaction) : Bytes :=
  hash256 t.unsigned

/-- The script of a transaction that runs one. -/
def script? (t : Transaction) : Option Bytes :=
  match t.payload with
  | .invocation script _ => some script
  | _ => none

end Transaction

end DryRun
