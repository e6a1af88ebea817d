import DryRun.Digest

/-!
# How long digests are

Every digest is a fixed number of words, each written in four bytes.
-/

set_option autoImplicit false

namespace DryRun

namespace Digest

@[simp] theorem length_bytesBE (ws : List UInt32) : (bytesBE ws).length = 4 * ws.length := by
  induction ws with
  | nil => rfl
  | cons w ws ih =>
    have word : (Bytes.ofNatBE 4 w.toNat).length = 4 := by
      rw [Bytes.ofNatBE, List.length_reverse, Bytes.length_ofNatLE]
    rw [bytesBE, List.flatMap_cons, List.length_append, word, ← bytesBE, ih, List.length_cons]
    omega

@[simp] theorem length_bytesLE (ws : List UInt32) : (bytesLE ws).length = 4 * ws.length := by
  induction ws with
  | nil => rfl
  | cons w ws ih =>
    rw [bytesLE, List.flatMap_cons, List.length_append, Bytes.length_ofNatLE, ← bytesLE, ih,
      List.length_cons]
    omega

theorem length_sha1 (message : Bytes) : (sha1 message).length = 20 := by
  simp [sha1, Sha1.State.toBytes]

theorem length_sha256 (message : Bytes) : (sha256 message).length = 32 := by
  simp [sha256, Sha256.State.toBytes]

theorem length_ripemd160 (message : Bytes) : (ripemd160 message).length = 20 := by
  simp [ripemd160, Ripemd160.State.toBytes]

end Digest

theorem length_hash160 (data : Bytes) : (hash160 data).length = 20 :=
  Digest.length_ripemd160 _

theorem length_hash256 (data : Bytes) : (hash256 data).length = 32 :=
  Digest.length_sha256 _

end DryRun
