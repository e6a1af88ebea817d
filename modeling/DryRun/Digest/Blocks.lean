import DryRun.Bytes

/-!
# Iterated compression

The three digests of this library share one frame: the message is padded with a one bit, zeros
and its length in bits up to a multiple of 64 bytes, and a compression function is folded over
the 64-byte blocks.
-/

set_option autoImplicit false

namespace DryRun.Digest

/-- How many zero bytes stand between the mark byte and the eight length bytes. -/
def zeroPadding (length : Nat) : Nat :=
  (119 - length % 64) % 64

/-- The message, the mark byte, zeros, and the message's length in bits as written by
`writeLength`. -/
def pad (writeLength : Nat → Bytes) (message : Bytes) : Bytes :=
  message ++ 0x80 :: List.replicate (zeroPadding message.length) 0 ++
    writeLength (8 * message.length)

/-- Fold a compression function over the first `count` blocks of 64 bytes. -/
def foldBlocks {σ : Type} (compress : σ → Bytes → σ) : (count : Nat) → Bytes → σ → σ
  | 0, _, state => state
  | count + 1, bytes, state =>
    foldBlocks compress count (bytes.drop 64) (compress state (bytes.take 64))

/-- Pad the message and fold the compression function over it. -/
def digest {σ : Type} (writeLength : Nat → Bytes) (compress : σ → Bytes → σ) (start : σ)
    (message : Bytes) : σ :=
  let padded := pad writeLength message
  foldBlocks compress (padded.length / 64) padded start

/-- The four-byte words of a block, each read by `read`. -/
def words (read : Bytes → Nat) : (count : Nat) → Bytes → List UInt32
  | 0, _ => []
  | count + 1, bytes => UInt32.ofNat (read (bytes.take 4)) :: words read count (bytes.drop 4)

/-- Rotate a word to the left by a number of bits from 1 to 31. -/
def rotateLeft (x amount : UInt32) : UInt32 :=
  (x <<< amount) ||| (x >>> (32 - amount))

/-- Rotate a word to the right by a number of bits from 1 to 31. -/
def rotateRight (x amount : UInt32) : UInt32 :=
  (x >>> amount) ||| (x <<< (32 - amount))

/-- Words written with the most significant byte first. -/
def bytesBE (ws : List UInt32) : Bytes :=
  ws.flatMap fun w => Bytes.ofNatBE 4 w.toNat

/-- Words written with the least significant byte first. -/
def bytesLE (ws : List UInt32) : Bytes :=
  ws.flatMap fun w => Bytes.ofNatLE 4 w.toNat

end DryRun.Digest
