import DryRun.Heap.Struct
import DryRun.Machine.State
import DryRun.Number.Bitwise
import DryRun.Script.Opcode

/-!
# Arithmetic instructions

Integers are exact; a result that needs more bytes than an integer may have is refused.  What each
operation computes is a function on integers, apart from the stack.
-/

set_option autoImplicit false

namespace DryRun

/-! ## The functions -/

/-- The value of a function of one integer. -/
def UnaryOp.eval : UnaryOp → Int → Int
  | .invert, x => -x - 1
  | .inc, x => x + 1
  | .dec, x => x - 1
  | .sign, x => x.sign
  | .negate, x => -x
  | .abs, x => x.natAbs

/-- The value of a function of two integers.  Division rounds toward zero, and a remainder has the
sign of the dividend. -/
def BinaryOp.eval : BinaryOp → Int → Int → Except MachineFault Int
  | .and, a, b => .ok (Bitwise.and a b)
  | .or, a, b => .ok (Bitwise.or a b)
  | .xor, a, b => .ok (Bitwise.xor a b)
  | .add, a, b => .ok (a + b)
  | .sub, a, b => .ok (a - b)
  | .mul, a, b => .ok (a * b)
  | .div, a, b => if b = 0 then .error .divisionByZero else .ok (a.tdiv b)
  | .mod, a, b => if b = 0 then .error .divisionByZero else .ok (a.tmod b)
  | .min, a, b => .ok (if a ≤ b then a else b)
  | .max, a, b => .ok (if a ≤ b then b else a)

/-- The value of a comparison. -/
def CompareOp.eval : CompareOp → Int → Int → Bool
  | .numEqual, a, b => a == b
  | .numNotEqual, a, b => a != b
  | .lt, a, b => a < b
  | .gt, a, b => a > b
  | .lte, a, b => a ≤ b
  | .gte, a, b => a ≥ b

/-- The value of a shift by `n` places. -/
def ShiftOp.eval : ShiftOp → Int → Nat → Int
  | .left, x, n => x * Nat.pow 2 n
  | .right, x, n => x / Nat.pow 2 n

/-! ## The instructions -/

namespace Exec

variable {σ : Type}

/-- Push an integer result. -/
def pushResult (v : Int) : Exec σ Unit := do
  pushInt (← checkInteger v)

/-- Pop two integers, the right one first. -/
def popPair : Exec σ (Int × Int) := do
  let right ← popInt
  let left ← popInt
  return (left, right)

/-- A function of one integer. -/
def unary (op : UnaryOp) : Exec σ Unit := do
  pushResult (op.eval (← popInt))

/-- A function of two integers. -/
def binary (op : BinaryOp) : Exec σ Unit := do
  let (left, right) ← popPair
  pushResult (← op.eval left right)

/-- A comparison. -/
def compare (op : CompareOp) : Exec σ Unit := do
  let (left, right) ← popPair
  pushBool (op.eval left right)

/-- A shift.  The distance is checked before the integer is taken. -/
def shift (op : ShiftOp) : Exec σ Unit := do
  let n ← popInt
  if n < 0 ∨ n > Machine.maxShift then fail (.shiftOutOfRange n)
  let x ← popInt
  pushResult (op.eval x n.toNat)

/-- A truth value. -/
def logic : LogicOp → Exec σ Unit
  | .equal => do
    let right ← pop
    let left ← pop
    pushBool ((← get).heap.equal left right)
  | .not => do pushBool !(← popBool)
  | .nonzero => do pushBool ((← popInt) != 0)
  | .and => do
    let right ← popBool
    let left ← popBool
    pushBool (left && right)
  | .or => do
    let right ← popBool
    let left ← popBool
    pushBool (left || right)
  | .within => do
    let upper ← popInt
    let lower ← popInt
    let x ← popInt
    pushBool (lower ≤ x && x < upper)

end Exec

end DryRun
