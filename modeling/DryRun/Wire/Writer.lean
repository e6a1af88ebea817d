import DryRun.Bytes
import DryRun.Text.Utf8

/-!
# Writing binary data

The counterparts of the readers.  A number of a fixed-width type is written by a function, since
there is nothing to check; an integer of unknown size is written by a `Writer`, which refuses what
does not fit.
-/

set_option autoImplicit false

namespace DryRun.Wire

/-! ## Numbers -/

/-- A byte. -/
def u8 (v : UInt8) : Bytes := [v]

/-- Two bytes. -/
def u16 (v : UInt16) : Bytes := Bytes.ofNatLE 2 v.toNat

/-- Four bytes. -/
def u32 (v : UInt32) : Bytes := Bytes.ofNatLE 4 v.toNat

/-- Eight bytes. -/
def u64 (v : UInt64) : Bytes := Bytes.ofNatLE 8 v.toNat

/-- Eight bytes of a signed number. -/
def i64 (v : Int64) : Bytes := Bytes.ofNatLE 8 v.toUInt64.toNat

/-- A truth value. -/
def bool (v : Bool) : Bytes := [if v then 1 else 0]

/-- A number in one, three, five or nine bytes, as few as it fits in. -/
def varUint (v : Nat) : Bytes :=
  if v < 0xFD then [UInt8.ofNat v]
  else if v ≤ 0xFFFF then 0xFD :: Bytes.ofNatLE 2 v
  else if v ≤ 0xFFFFFFFF then 0xFE :: Bytes.ofNatLE 4 v
  else 0xFF :: Bytes.ofNatLE 8 v

/-! ## Bytes and text -/

/-- Bytes with their number in front. -/
def varBytes (bytes : Bytes) : Bytes :=
  varUint bytes.length ++ bytes

/-- Text as UTF-8 with its number of bytes in front. -/
def varString (text : String) : Bytes :=
  varBytes (Utf8.encode text)

/-! ## Numbers that may not fit -/

/-- A number is outside the range of its field. -/
structure OutOfRange where
  /-- The number. -/
  value : Int
deriving DecidableEq

end Wire

/-- A computation that appends to a buffer and may meet a number that does not fit.  What was
appended before the failure stays. -/
abbrev Writer := EStateM Wire.OutOfRange Bytes

namespace Writer

/-- Append bytes. -/
def append (bytes : Bytes) : Writer Unit :=
  modify (· ++ bytes)

/-- Append an integer of `width` bytes, unsigned or in two's complement. -/
def fixed (width : Nat) (signed : Bool) (v : Int) : Writer Unit := do
  let span : Int := Nat.pow 256 width
  let low := if signed then -(span / 2) else 0
  if low ≤ v ∧ v < low + span then append (Bytes.ofNatLE width (v % span).toNat)
  else throw ⟨v⟩

/-- Append an integer as a variable-length number. -/
def varUint (v : Int) : Writer Unit := do
  if v < 0xFD then fixed 1 false v
  else if v ≤ 0xFFFF then
    fixed 1 false 0xFD
    fixed 2 false v
  else if v ≤ 0xFFFFFFFF then
    fixed 1 false 0xFE
    fixed 4 false v
  else
    fixed 1 false 0xFF
    fixed 8 false v

end Writer

end DryRun
