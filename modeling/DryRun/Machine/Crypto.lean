import DryRun.Curve.Signature
import DryRun.Machine.State
import DryRun.Script.Opcode

/-!
# Digest and signature instructions

Signatures are checked against the message of the run, if it has one, or against a message on the
stack.  Several signatures must verify under some of the keys, in the order of the keys.
-/

set_option autoImplicit false

namespace DryRun

/-- Do all signatures verify, each under a later key than the one before?  Every key is tried once
at most. -/
def verifyInOrder {σ κ : Type} (verify : σ → κ → Bool) : List σ → List κ → Bool
  | [], _ => true
  | _ :: _, [] => false
  | s :: signatures, k :: keys =>
    if verify s k then verifyInOrder verify signatures keys
    else verifyInOrder verify (s :: signatures) keys

namespace Exec

variable {σ : Type}

/-- Pop the members of a group: the elements of a sequence, or as many items as a number says. -/
def popGroup (group : SignatureGroup) : Exec σ (List Bytes) := do
  match ← pop with
  | .seq s => ((← get).heap.elements s).mapM fun item => (item.toBytes : Except ItemFault Bytes)
  | item =>
    let count ← item.toInt
    if count < 1 ∨ count > (← get).stack.depth then fail (.groupCount group count)
    (List.replicate count.toNat ()).mapM fun _ => popBytes

/-- Check several signatures of a message against several keys. -/
def checkMultisig (message : Option Bytes) : Exec σ Unit := do
  let keys ← popGroup .publicKey
  if keys.isEmpty then fail .noPublicKeys
  let signatures ← popGroup .signature
  if signatures.isEmpty ∨ signatures.length > keys.length then
    fail (.signatureCount signatures.length keys.length)
  match message with
  | some message => pushBool (verifyInOrder (Signature.verify message) signatures keys)
  | none => pushBool false

/-- Push a digest of the top item. -/
def digest (f : Bytes → Bytes) : Exec σ Unit := do
  pushBytes (f (← popBytes))

/-- Digests and signatures. -/
def crypto (message : Option Bytes) : CryptoOp → Exec σ Unit
  | .sha1 => digest Digest.sha1
  | .sha256 => digest Digest.sha256
  | .hash160 => digest hash160
  | .hash256 => digest hash256
  | .checkSig => do
    let key ← popBytes
    let signature ← popBytes
    pushBool (message.any fun message => Signature.verify message signature key)
  | .verify => do
    let key ← popBytes
    let signature ← popBytes
    let message ← popBytes
    pushBool (Signature.verify message signature key)
  | .checkMultisig => checkMultisig message

end Exec

end DryRun
