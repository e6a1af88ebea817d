import DryRun.Digest
import DryRun.Script.Opcode

/-!
# Standard contracts

Two forms of scripts only check signatures: a key and a check, or a number of required signatures,
keys, their number and a check.  The first form also derives an account from a key.
-/

set_option autoImplicit false

namespace DryRun.Standard

/-- The size of a key with one coordinate. -/
def keySize : Nat := 33

/-- The code that pushes a key. -/
def pushKey : UInt8 := 0x21

/-- The code that checks one signature. -/
def checkSig : UInt8 := 0xAC

/-- The code that checks several signatures. -/
def checkMultisig : UInt8 := 0xAE

/-- The most keys of a script. -/
def maxKeys : Nat := 1024

/-- The script that checks a signature of one key. -/
def signatureScript (key : Bytes) : Bytes :=
  pushKey :: key ++ [checkSig]

/-- The bytes of this script: a push of 33 bytes, the key, and the check. -/
theorem signatureScript_eq (key : Bytes) : signatureScript key = 0x21 :: key ++ [0xAC] := rfl

/-- Does the script check a signature of one key? -/
def isSignature (script : Bytes) : Bool :=
  script.length == 35 && script[0]? == some pushKey && script[34]? == some checkSig

/-- The number that the first instruction pushes, and the script after it: a number up to sixteen
in the code itself, or one or two bytes. -/
def takeNumber : Bytes → Option (Nat × Bytes)
  | [] => none
  | code :: rest =>
    if 0x51 ≤ code ∧ code ≤ 0x60 then some (code.toNat - 0x50, rest)
    else match code, rest with
    | 0x01, a :: rest => some (a.toNat, rest)
    | 0x02, a :: b :: rest => some (Bytes.toNatLE [a, b], rest)
    | _, _ => none

/-- The number of keys that are pushed one after the other, and the script after them. -/
def takeKeys (fuel : Nat) (count : Nat) (script : Bytes) : Nat × Bytes :=
  match fuel, script with
  | fuel + 1, code :: rest =>
    if code = pushKey then takeKeys fuel (count + 1) (rest.drop keySize) else (count, script)
  | _, _ => (count, script)

/-- Does the script check several signatures? -/
def isMultisig (script : Bytes) : Bool :=
  match takeNumber script with
  | none => false
  | some (required, rest) =>
    let (count, rest) := takeKeys script.length 0 rest
    match takeNumber rest with
    | some (declared, [code]) =>
      1 ≤ required && required ≤ count && count ≤ maxKeys && declared == count &&
        code == checkMultisig
    | _ => false

/-- Is the script of one of the two forms? -/
def isStandard (script : Bytes) : Bool :=
  isSignature script || isMultisig script

end DryRun.Standard
