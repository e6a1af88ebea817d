import DryRun.Curve.P256
import DryRun.Machine.Fault
import DryRun.Script.Standard
import DryRun.Table
import DryRun.Wire.Reader

/-!
# Witnesses of a run

The accounts that count as having signed a run.  A script asks for an account by its hash or by
the key it belongs to.
-/

set_option autoImplicit false

namespace DryRun

/-- The account of a key: the hash of the script that checks one signature of it. -/
def accountOfKey (key : Bytes) : Except KeyFault Bytes :=
  match key with
  | mark :: _ =>
    if key.length ≠ Standard.keySize then .error (.badSize key.length)
    else if mark ≠ 0x02 ∧ mark ≠ 0x03 then .error .notCompressed
    else match P256.decode? key with
    | some _ => .ok (hash160 (Standard.signatureScript key))
    | none => .error .notOnCurve
  | [] => .error (.badSize 0)

/-- A set of accounts. -/
abbrev WitnessSet := Table (fun account : Bytes => account)

/-- A cause for which a set of witnesses is refused. -/
inductive WitnessFault where
  /-- An entry of a list is not a displayed account. -/
  | badEntry (text : RawText) (cause : FormatError)
  /-- An account does not have 20 bytes. -/
  | badAccount (account : Bytes)
deriving DecidableEq

/-- The wording of each cause. -/
def WitnessFault.message : WitnessFault → String
  | .badEntry text cause => s!"invalid witness {Quoted.text text}: {cause.message}"
  | .badAccount account => s!"witness {Hex.encode account} is not a 20-byte script hash"

namespace WitnessSet

/-- The set of some accounts. -/
def ofAccounts (accounts : List Bytes) : Except WitnessFault WitnessSet :=
  match accounts.find? fun account => account.length ≠ Reader.hash160Size with
  | some account => .error (.badAccount account)
  | none => .ok (.ofList accounts)

/-- The accounts that a list with colons between the entries displays.  Blank entries do not
count. -/
def ofDisplayList (text : RawText) : Except WitnessFault WitnessSet := do
  let entries := ((text.splitAt ':'.toNat).map RawText.trim).filter (!·.isEmpty)
  let accounts ← entries.mapM fun entry =>
    (Hex.readDisplay entry Reader.hash160Size).mapError (WitnessFault.badEntry entry)
  ofAccounts accounts

/-- Has the account of a hash or key signed? -/
def check (witnesses : WitnessSet) (operand : Bytes) : Except KeyFault Bool :=
  if operand.length = Reader.hash160Size then .ok (witnesses.contains operand)
  else if operand.length = Standard.keySize then do
    return witnesses.contains (← accountOfKey operand)
  else .error (.badWitnessSize operand.length)

end WitnessSet

end DryRun
