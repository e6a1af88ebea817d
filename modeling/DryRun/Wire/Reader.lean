import DryRun.Text.Utf8
import DryRun.Wire.Error

/-!
# Reading binary data

A reader walks over a byte string from front to back.  Its state says how far it has come and
what is left, and the state survives a failure, so that one can tell where a reading stopped.
Numbers are stored with the least significant byte first.
-/

set_option autoImplicit false

namespace DryRun

/-- A place in a byte string: how many bytes lie before it, and the bytes after it. -/
structure Cursor where
  /-- How many bytes have been read. -/
  offset : Nat
  /-- The bytes still to be read. -/
  rest : Bytes

/-- A computation that reads bytes and may refuse them. -/
abbrev Reader := EStateM FormatError Cursor

namespace Reader

variable {α ε : Type}

/-! ## Bytes -/

/-- Read exactly `n` bytes. -/
def take (n : Nat) : Reader Bytes := fun cursor =>
  let (front, back) := cursor.rest.splitAt n
  if front.length = n then .ok front ⟨cursor.offset + n, back⟩
  else .error (.unexpectedEnd n cursor.offset cursor.rest.length) cursor

/-- Read an unsigned number of `width` bytes. -/
def unsigned (width : Nat) : Reader Nat :=
  Bytes.toNatLE <$> take width

/-- Read a byte. -/
def u8 : Reader UInt8 := UInt8.ofNat <$> unsigned 1

/-- Read a number of two bytes. -/
def u16 : Reader UInt16 := UInt16.ofNat <$> unsigned 2

/-- Read a number of four bytes. -/
def u32 : Reader UInt32 := UInt32.ofNat <$> unsigned 4

/-- Read a number of eight bytes. -/
def u64 : Reader UInt64 := UInt64.ofNat <$> unsigned 8

/-- Read a signed number of eight bytes. -/
def i64 : Reader Int64 := Int64.ofNat <$> unsigned 8

/-- Read a truth value: every byte but zero is true. -/
def bool : Reader Bool := (· != 0) <$> u8

/-! ## Variable lengths -/

/-- The largest number of eight bytes. -/
def maxU64 : Nat := 0xFFFFFFFFFFFFFFFF

/-- The most bytes that a field with a length in front may have. -/
def maxFieldSize : Nat := 0x1000000

/-- Read a number of one, three, five or nine bytes; small numbers stand for themselves, the
three largest bytes announce two, four or eight bytes.  A limit below zero refuses them all. -/
def varUint (limit : Int) : Reader Nat := do
  let mark ← u8
  let value ←
    if mark = 0xFD then unsigned 2
    else if mark = 0xFE then unsigned 4
    else if mark = 0xFF then unsigned 8
    else pure mark.toNat
  if limit < value then throw (.numberAboveLimit value limit)
  return value

/-- Read bytes with their number in front. -/
def varBytes (limit : Int) : Reader Bytes := do
  take (← varUint limit)

/-- Read UTF-8 text with its number of bytes in front. -/
def varString (limit : Int) : Reader String := do
  match Utf8.decodeString? (← varBytes limit) with
  | some text => return text
  | none => throw .invalidUtf8

/-! ## Composite values -/

/-- The size of a script hash or an account. -/
def hash160Size : Nat := 20

/-- The size of a block, transaction or asset hash. -/
def hash256Size : Nat := 32

/-- Read a hash of 20 bytes. -/
def hash160 : Reader Bytes := take hash160Size

/-- Read a hash of 32 bytes. -/
def hash256 : Reader Bytes := take hash256Size

/-- Read an encoded curve point: a zero alone, or a mark and one or two coordinates. -/
def curvePoint : Reader Bytes := do
  let mark ← u8
  if mark = 0x00 then return [0x00]
  else if mark = 0x02 ∨ mark = 0x03 then return mark :: (← take 32)
  else if mark = 0x04 then return mark :: (← take 64)
  else throw (.unknownPointMark mark)

/-- Read a value a number of times, whatever the errors are. -/
def times (read : EStateM ε Cursor α) : Nat → EStateM ε Cursor (List α)
  | 0 => pure []
  | n + 1 => do
    let x ← read
    let xs ← times read n
    return x :: xs

/-- Read values with their number in front. -/
def array (read : Reader α) (limit : Int) : Reader (List α) := do
  times read (← varUint limit)

/-- Refuse to stop before the data ends. -/
def expectEnd : Reader Unit := do
  let left := (← get).rest.length
  if left ≠ 0 then throw (.trailingBytes left)

/-- Read a value and the bytes it was read from. -/
def withSpan (read : Reader α) : Reader (α × Bytes) := do
  let start ← get
  let value ← read
  let stop ← get
  return (value, start.rest.take (stop.offset - start.offset))

/-- Read a value as the database keeps it, with a byte in front. -/
def record (read : Reader α) : Reader α := do
  let _ ← u8
  read

/-- Read a whole byte string as one value. -/
def readAll (read : Reader α) (data : Bytes) : Except FormatError α :=
  match (do let value ← read; expectEnd; pure value : Reader α).run ⟨0, data⟩ with
  | .ok value _ => .ok value
  | .error e _ => .error e

end Reader

end DryRun
