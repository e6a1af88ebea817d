import DryRun.Chain.Transaction

/-!
# Blocks

A header followed by its transactions.
-/

set_option autoImplicit false

namespace DryRun

/-- A block. -/
structure Block where
  /-- The header. -/
  header : Header
  /-- The transactions, in order. -/
  transactions : List Transaction
deriving DecidableEq

namespace Block

/-- The most transactions a block may have. -/
def maxTransactions : Nat := 0xFFFF

/-- Read a block. -/
def read : Reader Block := do
  let header ← Header.readBase
  let transactions ← Reader.array Transaction.read maxTransactions
  return ⟨header, transactions⟩

/-- The bytes of a block; transactions keep the bytes they were read from. -/
def write (b : Block) : Bytes :=
  b.header.writeBase ++ Wire.varUint b.transactions.length ++ b.transactions.flatMap (·.raw)

/-- The hash of a block is that of its header. -/
def hash (b : Block) : Bytes :=
  b.header.hash

end Block

end DryRun
