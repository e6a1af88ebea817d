/-!
# Gas limits

A gas limit is an amount, or a truth value in the place of one.  The truth values count as zero
and one but are shown as the words they are, so a limit remembers how it was given.
-/

set_option autoImplicit false

namespace DryRun

/-- The most gas that a run may consume. -/
inductive GasLimit where
  /-- An amount. -/
  | units (amount : Int)
  /-- A truth value. -/
  | flag (given : Bool)
deriving DecidableEq

namespace GasLimit

/-- A limit that allows any amount. -/
def unlimited : GasLimit := .units 0

/-- The amount; zero allows any amount. -/
def amount : GasLimit → Int
  | .units amount => amount
  | .flag given => if given then 1 else 0

/-- The limit as messages show it. -/
def text : GasLimit → String
  | .units amount => toString amount
  | .flag true => "True"
  | .flag false => "False"

/-- Does an amount of gas exceed the limit? -/
def isExceededBy (limit : GasLimit) (gas : Int) : Bool :=
  limit.amount ≠ 0 && limit.amount < gas

@[simp] theorem isExceededBy_unlimited (gas : Int) : unlimited.isExceededBy gas = false := rfl

theorem isExceededBy_iff {limit : GasLimit} (h : limit.amount ≠ 0) (gas : Int) :
    limit.isExceededBy gas = true ↔ limit.amount < gas := by
  simp [isExceededBy, h]

end GasLimit

end DryRun
