import DryRun.Digest
import DryRun.Json
import DryRun.Wire.Reader
import DryRun.Wire.Writer

/-!
# Block headers

A header carries the two scripts of the witness that signed it.  Its hash covers the fields before
the witness only.
-/

set_option autoImplicit false

namespace DryRun

/-! ## Witnesses -/

/-- The two scripts that justify a block or a transaction. -/
structure Witness where
  /-- The script that supplies the arguments. -/
  invocation : Bytes
  /-- The script that checks them. -/
  verification : Bytes
deriving DecidableEq

namespace Witness

/-- The most bytes each script of a witness may have. -/
def maxScriptSize : Nat := 1024

/-- Read a witness. -/
def read : Reader Witness := do
  let invocation ← Reader.varBytes maxScriptSize
  let verification ← Reader.varBytes maxScriptSize
  return ⟨invocation, verification⟩

/-- The bytes of a witness. -/
def write (w : Witness) : Bytes :=
  Wire.varBytes w.invocation ++ Wire.varBytes w.verification

/-- The account a witness speaks for. -/
def scriptHash (w : Witness) : Bytes :=
  hash160 w.verification

end Witness

/-! ## Headers -/

/-- A block header. -/
structure Header where
  /-- The version of the format. -/
  version : UInt32
  /-- The hash of the block before. -/
  prevHash : Bytes
  /-- The root of the tree of transaction hashes. -/
  merkleRoot : Bytes
  /-- The time of the block in seconds. -/
  timestamp : UInt32
  /-- The height of the block. -/
  index : UInt32
  /-- The random number of the consensus. -/
  consensusData : UInt64
  /-- The account of the next validators. -/
  nextConsensus : Bytes
  /-- The signature of the validators. -/
  witness : Witness
deriving DecidableEq

namespace Header

/-- Read the fields of a header and its witness. -/
def readBase : Reader Header := do
  let version ← Reader.u32
  let prevHash ← Reader.hash256
  let merkleRoot ← Reader.hash256
  let timestamp ← Reader.u32
  let index ← Reader.u32
  let consensusData ← Reader.u64
  let nextConsensus ← Reader.hash160
  let marker ← Reader.u8
  if marker ≠ 1 then throw (.badWitnessMarker marker)
  let witness ← Witness.read
  return { version, prevHash, merkleRoot, timestamp, index, consensusData, nextConsensus, witness }

/-- Read a header that stands alone: a zero ends it in place of the transactions. -/
def read : Reader Header := do
  let header ← readBase
  let padding ← Reader.u8
  if padding ≠ 0 then throw (.badHeaderPadding padding)
  return header

/-- The bytes that the hash covers. -/
def writeUnsigned (h : Header) : Bytes :=
  Wire.u32 h.version ++ h.prevHash ++ h.merkleRoot ++ Wire.u32 h.timestamp ++ Wire.u32 h.index ++
    Wire.u64 h.consensusData ++ h.nextConsensus

/-- The bytes of the fields and the witness. -/
def writeBase (h : Header) : Bytes :=
  h.writeUnsigned ++ Wire.u8 1 ++ h.witness.write

/-- The bytes of a header that stands alone. -/
def write (h : Header) : Bytes :=
  h.writeBase ++ Wire.u8 0

/-- The hash of a header, which is also the hash of its block. -/
def hash (h : Header) : Bytes :=
  hash256 h.writeUnsigned

/-- The fields of a header as a document; identifiers are displayed. -/
def toJson (h : Header) : Json :=
  .ofFields
    [("hash", .ofString (Hex.display h.hash)),
     ("version", .int h.version.toNat),
     ("previousblockhash", .ofString (Hex.display h.prevHash)),
     ("merkleroot", .ofString (Hex.display h.merkleRoot)),
     ("time", .int h.timestamp.toNat),
     ("index", .int h.index.toNat),
     ("nonce", .ofString (Hex.encode (Bytes.ofNatBE 8 h.consensusData.toNat))),
     ("nextconsensus", .ofString (Hex.display h.nextConsensus))]

end Header

end DryRun
