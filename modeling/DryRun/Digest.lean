import DryRun.Digest.Ripemd160
import DryRun.Digest.Sha1
import DryRun.Digest.Sha256

/-!
# The two digests of chain objects

Blocks and transactions are identified by SHA-256 taken twice, scripts by RIPEMD-160 of SHA-256.
-/

set_option autoImplicit false

namespace DryRun

/-- SHA-256 taken twice: the hash of a block or a transaction, 32 bytes. -/
def hash256 (data : Bytes) : Bytes :=
  Digest.sha256 (Digest.sha256 data)

/-- RIPEMD-160 of SHA-256: the hash of a script, 20 bytes. -/
def hash160 (data : Bytes) : Bytes :=
  Digest.ripemd160 (Digest.sha256 data)

end DryRun
