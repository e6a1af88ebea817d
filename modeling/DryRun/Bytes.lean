/-!
# Byte strings

A byte string is a list of bytes, so that everything known about lists applies to it.  This file
reads and writes numbers in the two byte orders, and cuts spans out of a string.  The main
statement is `Bytes.toNatLE_ofNatLE`: a number written in `w` bytes, least significant first,
reads back modulo `256 ^ w`.
-/

set_option autoImplicit false

namespace DryRun

/-- A string of bytes. -/
abbrev Bytes := List UInt8

namespace Bytes

/-! ## Numbers in bytes -/

/-- The number a byte string spells with its least significant byte first. -/
def toNatLE : Bytes → Nat
  | [] => 0
  | b :: rest => b.toNat + 256 * toNatLE rest

/-- The number a byte string spells with its most significant byte first. -/
def toNatBE (bytes : Bytes) : Nat :=
  bytes.foldl (fun n b => 256 * n + b.toNat) 0

/-- The `width` low bytes of a number, least significant first. -/
def ofNatLE : (width : Nat) → Nat → Bytes
  | 0, _ => []
  | width + 1, n => UInt8.ofNat n :: ofNatLE width (n / 256)

/-- The `width` low bytes of a number, most significant first. -/
def ofNatBE (width n : Nat) : Bytes :=
  (ofNatLE width n).reverse

@[simp] theorem length_ofNatLE (width n : Nat) : (ofNatLE width n).length = width := by
  induction width generalizing n with
  | zero => rfl
  | succ width ih => simp [ofNatLE, ih]

/-- Writing keeps exactly the low bytes. -/
theorem toNatLE_ofNatLE (width n : Nat) : toNatLE (ofNatLE width n) = n % Nat.pow 256 width := by
  induction width generalizing n with
  | zero => simp [ofNatLE, toNatLE, Nat.mod_one]
  | succ width ih =>
    have byte : (UInt8.ofNat n).toNat = n % 256 := rfl
    have power : Nat.pow 256 (width + 1) = 256 * Nat.pow 256 width := Nat.pow_succ'
    rw [ofNatLE, toNatLE, ih, byte, power, Nat.mod_mul]

/-! ## Spans -/

/-- The bytes from position `start` up to position `stop`, as far as the string reaches. -/
def slice (bytes : Bytes) (start stop : Nat) : Bytes :=
  (bytes.take stop).drop start

/-- Is some byte other than zero? -/
def anyNonzero (bytes : Bytes) : Bool :=
  bytes.any (· != 0)

end Bytes

end DryRun
