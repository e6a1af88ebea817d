/-!
# Decimal numerals

A numeral is a coefficient and a power of ten.  This file writes it in positional notation without
superfluous zeros, counts digits, and rounds a coefficient to a number of significant digits, a
half going to the even neighbour.
-/

set_option autoImplicit false

namespace DryRun.Decimal

/-- The decimal digits of a natural number; zero has one. -/
def digits (n : Nat) : List Char :=
  Nat.toDigits 10 n

/-- How many decimal digits a natural number has. -/
def length (n : Nat) : Nat :=
  (digits n).length

/-- The quotient nearest to `n / d`; of two equally near ones the even one. -/
def divideHalfEven (n d : Nat) : Nat :=
  let q := n / d
  let twice := 2 * (n % d)
  if twice > d ∨ (twice = d ∧ q % 2 = 1) then q + 1 else q

/-- A coefficient with at most `significant` digits and the power of ten it is to be multiplied
by, as near as such a numeral can be to `n`. -/
def roundTo (significant n : Nat) : Nat × Nat :=
  let dropped := length n - significant
  (divideHalfEven n (Nat.pow 10 dropped), dropped)

/-- Zeros in front, up to a width. -/
def padLeft (width : Nat) (ds : List Char) : List Char :=
  List.replicate (width - ds.length) '0' ++ ds

/-- Digits without the zeros at their end. -/
def dropTrailingZeros (ds : List Char) : List Char :=
  (ds.reverse.dropWhile (· == '0')).reverse

/-- The positional text of `coefficient / 10 ^ places`, without superfluous zeros after the
point and without the point where nothing follows it. -/
def positional (coefficient places : Nat) : List Char :=
  let whole := digits (coefficient / Nat.pow 10 places)
  match dropTrailingZeros (padLeft places (digits (coefficient % Nat.pow 10 places))) with
  | [] => whole
  | fraction => whole ++ '.' :: fraction

end DryRun.Decimal
