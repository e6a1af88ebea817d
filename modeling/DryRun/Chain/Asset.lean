import DryRun.Wire.Reader
import DryRun.Wire.Writer

/-!
# Assets

What the chain knows of a registered asset, and how long the registration lasts.
-/

set_option autoImplicit false

namespace DryRun

/-- A registered asset. -/
structure Asset where
  /-- The hash of the transaction that registered it. -/
  id : Bytes
  /-- What kind of asset. -/
  assetType : UInt8
  /-- Its name. -/
  name : String
  /-- The total amount. -/
  amount : Int64
  /-- The amount issued so far. -/
  available : Int64
  /-- How many decimals amounts have. -/
  precision : UInt8
  /-- How fees are charged. -/
  feeMode : UInt8
  /-- Where fees go. -/
  feeAddress : Bytes
  /-- The owner's key. -/
  owner : Bytes
  /-- The administrator's account. -/
  admin : Bytes
  /-- The issuer's account. -/
  issuer : Bytes
  /-- The height at which the registration ends. -/
  expiration : UInt32
  /-- May it not be used? -/
  isFrozen : Bool
deriving DecidableEq

namespace Asset

/-- Read an asset. -/
def read : Reader Asset := do
  let id ← Reader.hash256
  let assetType ← Reader.u8
  let name ← Reader.varString 1024
  let amount ← Reader.i64
  let available ← Reader.i64
  let precision ← Reader.u8
  let feeMode ← Reader.u8
  let feeAddress ← Reader.hash160
  let owner ← Reader.curvePoint
  let admin ← Reader.hash160
  let issuer ← Reader.hash160
  let expiration ← Reader.u32
  let isFrozen ← Reader.bool
  return { id, assetType, name, amount, available, precision, feeMode, feeAddress, owner, admin,
           issuer, expiration, isFrozen }

/-- The bytes of an asset. -/
def write (a : Asset) : Bytes :=
  a.id ++ Wire.u8 a.assetType ++ Wire.varString a.name ++ Wire.i64 a.amount ++
    Wire.i64 a.available ++ Wire.u8 a.precision ++ Wire.u8 a.feeMode ++ a.feeAddress ++
    a.owner ++ a.admin ++ a.issuer ++ Wire.u32 a.expiration ++ Wire.bool a.isFrozen

/-! ## Renewal -/

/-- How many blocks a year has. -/
def blocksPerYear : Nat := 2000000

/-- The greatest height. -/
def maxHeight : Nat := 0xFFFFFFFF

/-- The end of a registration renewed by some years while the chain is at `height`: it counts from
the next block at least, and never passes the greatest height. -/
def renewedExpiration (expiration height years : Nat) : Nat :=
  min (max expiration (height + 1) + years * blocksPerYear) maxHeight

/-- The asset with its registration renewed. -/
def renew (a : Asset) (height years : Nat) : Asset :=
  { a with expiration := .ofNat (renewedExpiration a.expiration.toNat height years) }

end Asset

end DryRun
