import DryRun.Table
import DryRun.Wire.Reader
import DryRun.Wire.Writer

/-!
# Accounts

What the chain knows of an account: its votes and its balances, one for each asset.
-/

set_option autoImplicit false

namespace DryRun

/-- The state of an account. -/
structure Account where
  /-- The version of the format. -/
  version : UInt8
  /-- The account. -/
  scriptHash : Bytes
  /-- May it not be used? -/
  isFrozen : Bool
  /-- The keys it votes for. -/
  votes : List Bytes
  /-- What it owns of each asset. -/
  balances : Table (Prod.fst : Bytes × Int64 → Bytes)

namespace Account

/-- An account that the chain has not seen. -/
def fresh (scriptHash : Bytes) : Account :=
  ⟨0, scriptHash, false, [], .empty⟩

/-- What an account owns of an asset. -/
def balance (a : Account) (assetId : Bytes) : Int64 :=
  match a.balances.find? assetId with
  | some (_, amount) => amount
  | none => 0

/-- Read one balance. -/
def readBalance : Reader (Bytes × Int64) := do
  let assetId ← Reader.hash256
  let amount ← Reader.i64
  return (assetId, amount)

/-- Read an account; of balances in the same asset the last one counts. -/
def read : Reader Account := do
  let version ← Reader.u8
  let scriptHash ← Reader.hash160
  let isFrozen ← Reader.bool
  let votes ← Reader.array Reader.curvePoint 1024
  let balances ← Reader.array readBalance 0xFFFF
  return { version, scriptHash, isFrozen, votes, balances := .ofList balances }

/-- The bytes of an account. -/
def write (a : Account) : Bytes :=
  Wire.u8 a.version ++ a.scriptHash ++ Wire.bool a.isFrozen ++
    Wire.varUint a.votes.length ++ a.votes.flatten ++
    Wire.varUint a.balances.size ++
    a.balances.rows.flatMap fun (assetId, amount) => assetId ++ Wire.i64 amount

end Account

end DryRun
