import DryRun.Bytes
import DryRun.Text.Quoted

/-!
# Hexadecimal

Bytes as pairs of hexadecimal digits.  Written text is lower case; read text may mix cases and may
have ASCII blanks before, between and after the pairs.  Identifiers are *displayed* with their
bytes reversed and may carry the mark `0x`.
-/

set_option autoImplicit false

namespace DryRun.Hex

/-! ## Writing -/

/-- The digits of a byte string, two for each byte. -/
def digits (bytes : Bytes) : List Char :=
  bytes.flatMap fun b => [Quoted.hexDigit (b.toNat / 16), Quoted.hexDigit (b.toNat % 16)]

/-- A byte string in lower-case hexadecimal. -/
def encode (bytes : Bytes) : String :=
  String.ofList (digits bytes)

/-- An identifier as it is displayed: its bytes in reverse order. -/
def display (wire : Bytes) : String :=
  encode wire.reverse

/-! ## Reading -/

/-- The value of a hexadecimal digit of either case. -/
def digitValue? (c : Nat) : Option Nat :=
  if 0x30 ≤ c ∧ c ≤ 0x39 then some (c - 0x30)
  else if 0x61 ≤ c ∧ c ≤ 0x66 then some (c - 0x57)
  else if 0x41 ≤ c ∧ c ≤ 0x46 then some (c - 0x37)
  else none

/-- The blanks that may stand between two pairs. -/
def isBlank (c : Nat) : Bool :=
  c == 0x20 || (0x09 ≤ c && c ≤ 0x0D)

/-- Read pairs until the text ends; the bytes read so far are kept in reverse. -/
def readPairs : RawText → Bytes → Option Bytes
  | [], done => some done.reverse
  | [c], done => if isBlank c then some done.reverse else none
  | c :: d :: rest, done =>
    if isBlank c then readPairs (d :: rest) done
    else match digitValue? c, digitValue? d with
      | some high, some low => readPairs rest (UInt8.ofNat (16 * high + low) :: done)
      | _, _ => none

/-- The bytes a hexadecimal text spells. -/
def decode? (text : RawText) : Option Bytes :=
  readPairs text []

/-- The text without the mark `0x` or `0X` in front, if it has one. -/
def dropMark : RawText → RawText
  | 0x30 :: 0x78 :: rest => rest
  | 0x30 :: 0x58 :: rest => rest
  | text => text

end DryRun.Hex
