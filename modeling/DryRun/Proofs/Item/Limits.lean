import DryRun.Item.Primitive
import DryRun.Proofs.Number.TwosComplement

/-!
# The limits on plain values

An integer has at most `maxIntegerSize` bytes, which means that it lies between `-2 ^ 255` and
`2 ^ 255 - 1` (`inIntegerRange_iff`).  A byte string has at most `maxItemSize` bytes.
`Primitive.Limited` says both.
-/

set_option autoImplicit false

namespace DryRun

/-! ## Integers -/

/-- The first integer that is too large. -/
def integerBound : Int := (Nat.pow 2 255 : Nat)

/-- An integer lies between the least and the greatest that there may be. -/
def InIntegerRange (v : Int) : Prop := -integerBound ≤ v ∧ v < integerBound

instance (v : Int) : Decidable (InIntegerRange v) := inferInstanceAs (Decidable (_ ∧ _))

theorem inIntegerRange_iff_fits (v : Int) :
    InIntegerRange v ↔ TwosComplement.Fits maxIntegerSize v := by
  have span : TwosComplement.span maxIntegerSize = 2 * integerBound := rfl
  rw [InIntegerRange, TwosComplement.Fits, span]
  omega

/-- The limit on the bytes of an integer is a limit on its value. -/
theorem inIntegerRange_iff (v : Int) :
    InIntegerRange v ↔ (TwosComplement.encode v).length ≤ maxIntegerSize := by
  rw [inIntegerRange_iff_fits, TwosComplement.length_encode_le_iff]

/-- What is not negative need only be below the bound. -/
theorem inIntegerRange_ofNat {n : Nat} (h : n < Nat.pow 2 255) : InIntegerRange n := by
  have bound : integerBound = (Nat.pow 2 255 : Nat) := rfl
  rw [InIntegerRange, bound]
  omega

/-- What is no further from zero than there may be bytes in an item is in range. -/
theorem inIntegerRange_of_small {v : Int} (h : -maxItemSize ≤ v ∧ v ≤ maxItemSize) :
    InIntegerRange v := by
  have bound : (maxItemSize : Int) < integerBound := Int.ofNat_lt.2 (by decide)
  rw [InIntegerRange]
  omega

/-- A result that passes the check is in range. -/
theorem inIntegerRange_of_checkInteger {v w : Int} (h : checkInteger v = .ok w) :
    InIntegerRange w := by
  rw [checkInteger] at h
  split at h
  · cases h
  · next short =>
    cases h
    exact (inIntegerRange_iff v).2 (Nat.le_of_not_lt short)

/-! ## Plain values -/

namespace Primitive

/-- A plain value that is not an integer out of range. -/
def InRange : Primitive → Prop
  | .int v => InIntegerRange v
  | .bytes _ => True
  | .bool _ => True

/-- A plain value that is neither an integer out of range nor a byte string that is too long. -/
def Limited : Primitive → Prop
  | .int v => InIntegerRange v
  | .bytes b => b.length ≤ maxItemSize
  | .bool _ => True

instance : (p : Primitive) → Decidable p.InRange
  | .int v => inferInstanceAs (Decidable (InIntegerRange v))
  | .bytes _ => inferInstanceAs (Decidable True)
  | .bool _ => inferInstanceAs (Decidable True)

instance : (p : Primitive) → Decidable p.Limited
  | .int v => inferInstanceAs (Decidable (InIntegerRange v))
  | .bytes b => inferInstanceAs (Decidable (b.length ≤ maxItemSize))
  | .bool _ => inferInstanceAs (Decidable True)

theorem Limited.inRange {p : Primitive} (h : p.Limited) : p.InRange := by
  cases p with
  | int v => exact h
  | bytes b => exact trivial
  | bool b => exact trivial

/-- The bytes of a plain value within the limits are within the limit on bytes. -/
theorem Limited.length_toBytes_le {p : Primitive} (h : p.Limited) :
    p.toBytes.length ≤ maxItemSize := by
  have small : maxIntegerSize ≤ maxItemSize := by decide
  have one : 1 ≤ maxItemSize := by decide
  cases p with
  | bytes b => exact h
  | int v => exact Nat.le_trans ((inIntegerRange_iff v).1 h) small
  | bool b =>
    cases b with
    | false => exact Nat.zero_le _
    | true => exact one

end Primitive

end DryRun
