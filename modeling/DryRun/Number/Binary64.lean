import DryRun.Number.Decimal

/-!
# Binary floating point

Numbers with 53 significant bits and exponents from -1074 to 971, as documents carry them.  Both
directions are exact integer arithmetic: `ofDecimal` takes the nearest number, a tie going to the
even significand, and `shortest` finds the fewest decimal digits that read back as the same
number, the nearest such digits if there are several.
-/

set_option autoImplicit false

namespace DryRun

/-- A binary floating-point number other than a NaN. -/
inductive Binary64 where
  /-- The number `significand * 2 ^ exponent`, with a sign. -/
  | finite (negative : Bool) (significand : Nat) (exponent : Int)
  /-- An infinity. -/
  | infinite (negative : Bool)
deriving DecidableEq

namespace Binary64

/-! ## Reading -/

/-- The least exponent. -/
def minExponent : Int := -1074

/-- The greatest exponent. -/
def maxExponent : Int := 971

/-- The leading bit of a significand of 53 bits. -/
def leadingBit : Nat := 0x10000000000000

/-- The nearest significand of `numerator / denominator` at an exponent. -/
def significandAt (numerator denominator : Nat) (exponent : Int) : Nat :=
  Decimal.divideHalfEven (numerator * Nat.pow 2 (-exponent).toNat)
    (denominator * Nat.pow 2 exponent.toNat)

/-- The exponent at which `numerator / denominator` has 53 significant bits, or the least one. -/
def exponentFor (numerator denominator : Nat) : Int :=
  let guess : Int := (numerator.log2 : Int) - denominator.log2 - 53
  let quotient := numerator * Nat.pow 2 (-guess).toNat / (denominator * Nat.pow 2 guess.toNat)
  let small := quotient < 2 * leadingBit
  max minExponent (if small then guess else guess + 1)

/-- The number nearest to a positive fraction. -/
def ofFraction (negative : Bool) (numerator denominator : Nat) : Binary64 :=
  let exponent := exponentFor numerator denominator
  let significand := significandAt numerator denominator exponent
  let (significand, exponent) :=
    if significand = 2 * leadingBit then (leadingBit, exponent + 1) else (significand, exponent)
  if exponent > maxExponent then .infinite negative else .finite negative significand exponent

/-- The number nearest to `coefficient * 10 ^ power`.  Powers far outside the range are decided
by the count of digits alone. -/
def ofDecimal (negative : Bool) (coefficient : Nat) (power : Int) : Binary64 :=
  let magnitude := power + Decimal.length coefficient
  if coefficient = 0 ∨ magnitude < -400 then .finite negative 0 minExponent
  else if magnitude > 400 then .infinite negative
  else ofFraction negative (coefficient * Nat.pow 10 power.toNat) (Nat.pow 10 (-power).toNat)

/-- The number nearest to an integer. -/
def ofInt (v : Int) : Binary64 :=
  ofDecimal (v < 0) v.natAbs 0

/-! ## Questions -/

/-- Is the number below zero? -/
def isNegative : Binary64 → Bool
  | .finite negative significand _ => negative && significand != 0
  | .infinite negative => negative

/-- Is the number zero? -/
def isZero : Binary64 → Bool
  | .finite _ significand _ => significand == 0
  | .infinite _ => false

/-- The integer that a number is, if it is one. -/
def toInt? : Binary64 → Option Int
  | .finite negative significand exponent =>
    let scaled := significand * Nat.pow 2 exponent.toNat
    let divisor := Nat.pow 2 (-exponent).toNat
    if scaled % divisor = 0 then
      some (if negative then -(scaled / divisor : Nat) else (scaled / divisor : Nat))
    else none
  | .infinite _ => none

/-! ## The shortest digits -/

/-- Does `d * 10 ^ power` read back as `significand * 2 ^ exponent`?  It does between the
midpoints to the two neighbours, and at a midpoint when the significand is even. -/
def readsBack (significand : Nat) (exponent : Int) (d : Nat) (power : Int) : Bool :=
  let unit := Nat.pow 2 (exponent - 2).toNat * Nat.pow 10 (-power).toNat
  let value := d * Nat.pow 10 power.toNat * Nat.pow 2 (2 - exponent).toNat
  let below := if significand = leadingBit ∧ exponent > minExponent then 1 else 2
  let low := (4 * significand - below) * unit
  let high := (4 * significand + 2) * unit
  if significand % 2 = 0 then low ≤ value && value ≤ high else low < value && value < high

/-- The multiple of `10 ^ power` nearest to the number, among those that read back as it. -/
def candidate? (significand : Nat) (exponent power : Int) : Option Nat :=
  let numerator := significand * Nat.pow 2 exponent.toNat * Nat.pow 10 (-power).toNat
  let denominator := Nat.pow 2 (-exponent).toNat * Nat.pow 10 power.toNat
  let lower := numerator / denominator
  let ok := fun d => d != 0 && readsBack significand exponent d power
  let nearest := Decimal.divideHalfEven numerator denominator
  if ok nearest then some nearest
  else if ok lower then some lower
  else if ok (lower + 1) then some (lower + 1)
  else none

/-- Try powers of ten downwards from `power`. -/
def search (significand : Nat) (exponent : Int) : (fuel : Nat) → Int → Nat × Int
  | 0, power => (0, power)
  | fuel + 1, power =>
    match candidate? significand exponent power with
    | some d => (d, power)
    | none => search significand exponent fuel (power - 1)

/-- The fewest digits that read back as a positive number, and the power of ten they are to be
multiplied by.  At most seventeen digits are needed, and the search starts at most two powers
above the first. -/
def shortest (significand : Nat) (exponent : Int) : Nat × Int :=
  let numerator := significand * Nat.pow 2 exponent.toNat
  let denominator := Nat.pow 2 (-exponent).toNat
  search significand exponent 24 ((Decimal.length numerator : Int) - Decimal.length denominator + 1)

/-! ## Text -/

/-- The decimal exponents that are written positionally: from `10 ^ -4` up to, and not including,
`10 ^ 16`. -/
def isPositional (leading : Int) : Bool :=
  -4 ≤ leading && leading < 16

/-- A point is always written: `1.0`, `0.25`, `120.0`. -/
def withPoint (text : List Char) : List Char :=
  if '.' ∈ text then text else text ++ ['.', '0']

/-- A decimal exponent has a sign and at least two digits. -/
def exponentText (leading : Int) : List Char :=
  (if leading < 0 then '-' else '+') :: Decimal.padLeft 2 (Decimal.digits leading.natAbs)

/-- The text of a positive number from its shortest digits. -/
def positiveText (significand : Nat) (exponent : Int) : List Char :=
  let (d, power) := shortest significand exponent
  let leading := power + Decimal.length d - 1
  if isPositional leading then
    withPoint (Decimal.positional (d * Nat.pow 10 power.toNat) (-power).toNat)
  else
    let places := Decimal.length d - 1
    Decimal.positional d places ++ 'e' :: exponentText leading

/-- The text of a number, the shortest that reads back as it. -/
def text : Binary64 → String
  | .finite negative significand exponent =>
    let magnitude := if significand = 0 then ['0', '.', '0'] else positiveText significand exponent
    String.ofList (if negative then '-' :: magnitude else magnitude)
  | .infinite negative => if negative then "-inf" else "inf"

end Binary64

end DryRun
