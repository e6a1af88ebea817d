import DryRun.Curve.P256
import DryRun.Digest

/-!
# Signatures

A signature over P-256 is two numbers below the order of the group, 32 bytes each.  It is checked
against the SHA-256 digest of the message.
-/

set_option autoImplicit false

namespace DryRun.Signature

/-- The size of a signature. -/
def size : Nat := 64

/-- Do the numbers `r` and `s` sign a message under the key? -/
def holds (key : P256.Point) (message : Bytes) (r s : Nat) : Bool :=
  if 0 < r ∧ r < P256.order ∧ 0 < s ∧ s < P256.order then
    let e := Bytes.toNatBE (Digest.sha256 message)
    let w := P256.inverse P256.order s
    let left := P256.generator.toProjective.times (e * w % P256.order)
    let right := key.toProjective.times (r * w % P256.order)
    match (left.add right).x? with
    | some x => x % P256.order == r
    | none => false
  else false

/-- Is this the signature of a message under an encoded key?  A signature of another size and a key
that is no point of the curve verify nothing. -/
def verify (message signature key : Bytes) : Bool :=
  if signature.length = size then
    match P256.decode? key with
    | some point =>
      holds point message (Bytes.toNatBE (signature.take 32)) (Bytes.toNatBE (signature.drop 32))
    | none => false
  else false

end DryRun.Signature
