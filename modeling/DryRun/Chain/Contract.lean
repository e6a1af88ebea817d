import DryRun.Digest
import DryRun.Wire.Reader
import DryRun.Wire.Writer

/-!
# Contracts

A contract is known by the hash of its script; the rest describes it.
-/

set_option autoImplicit false

namespace DryRun

/-- A deployed contract. -/
structure Contract where
  /-- The script. -/
  script : Bytes
  /-- The types of the parameters. -/
  paramList : Bytes
  /-- The type of the result. -/
  returnType : UInt8
  /-- What the contract may do, a bit for each right. -/
  properties : UInt8
  /-- Its name. -/
  name : String
  /-- Its version. -/
  codeVersion : String
  /-- Who wrote it. -/
  author : String
  /-- How to reach the author. -/
  email : String
  /-- What it does. -/
  description : String
deriving DecidableEq

namespace Contract

/-- The hash that names a contract. -/
def scriptHash (c : Contract) : Bytes :=
  hash160 c.script

/-- May the contract keep storage? -/
def hasStorage (c : Contract) : Bool :=
  c.properties &&& 1 != 0

/-- May the contract call contracts chosen at run time? -/
def hasDynamicInvoke (c : Contract) : Bool :=
  c.properties &&& 2 != 0

/-- May the contract be paid? -/
def isPayable (c : Contract) : Bool :=
  c.properties &&& 4 != 0

/-- Read a contract. -/
def read : Reader Contract := do
  let script ← Reader.varBytes Reader.maxFieldSize
  let paramList ← Reader.varBytes Reader.maxFieldSize
  let returnType ← Reader.u8
  let properties ← Reader.u8
  let name ← Reader.varString Reader.maxFieldSize
  let codeVersion ← Reader.varString Reader.maxFieldSize
  let author ← Reader.varString Reader.maxFieldSize
  let email ← Reader.varString Reader.maxFieldSize
  let description ← Reader.varString Reader.maxFieldSize
  return { script, paramList, returnType, properties, name, codeVersion, author, email,
           description }

/-- The bytes of a contract. -/
def write (c : Contract) : Bytes :=
  Wire.varBytes c.script ++ Wire.varBytes c.paramList ++ Wire.u8 c.returnType ++
    Wire.u8 c.properties ++ Wire.varString c.name ++ Wire.varString c.codeVersion ++
    Wire.varString c.author ++ Wire.varString c.email ++ Wire.varString c.description

end Contract

end DryRun
