import DryRun.Number.Decimal

/-!
# Amounts

An amount of gas is an integer number of hundred-millionths.  Its text is the decimal value
without superfluous zeros.  The value is first rounded to 28 significant digits, a half going to
the even neighbour, which leaves every amount below `10 ^ 28` units exact.

The arithmetic of decimals has a greatest exponent, 999999, and an amount from about `10 ^ 1000008`
units on is too large for it and has no text.  This is left out here, since no run comes near it:
the integers of a script have 32 bytes, and those of a node no more than 4300 digits.
-/

set_option autoImplicit false

namespace DryRun.Fixed8

/-- How many decimals an amount has. -/
def places : Nat := 8

/-- How many significant digits of an amount are written. -/
def precision : Nat := 28

/-- The text of an amount given in hundred-millionths. -/
def format (amount : Int) : String :=
  let (coefficient, dropped) := Decimal.roundTo precision amount.natAbs
  let text := Decimal.positional (coefficient * Nat.pow 10 (dropped - places)) (places - dropped)
  String.ofList (if amount < 0 then '-' :: text else text)

end DryRun.Fixed8
