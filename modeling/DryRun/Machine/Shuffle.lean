import DryRun.Machine.State
import DryRun.Script.Opcode

/-!
# Stack and byte string instructions

The instructions that move, copy and drop items, and those that join and cut byte strings.
-/

set_option autoImplicit false

namespace DryRun.Exec

variable {σ : Type}

/-- Exchange the top with the item at position `n`. -/
def swapWithTop (n : Nat) : Exec σ Unit := do
  if n > 0 then
    let top ← peek 0
    let other ← peek n
    replace 0 other
    replace n top

/-- Copy the top to position `n`. -/
def tuckTop (n : Nat) : Exec σ Unit := do
  insert n (← peek 0)

/-- Move the item at position `n` to the top. -/
def rollUp (n : Nat) : Exec σ Unit := do
  push (← remove n)

/-- Move the top to the alternative stack. -/
def moveToAlt : Exec σ Unit := do
  let item ← pop
  modify fun m => { m with alt := m.alt.push item }

/-- Move the top of the alternative stack back. -/
def moveFromAlt : Exec σ Unit := do
  let (item, alt) ← (← get).alt.pop
  modify fun m => { m with alt }
  push item

/-- Rearrange the stacks. -/
def shuffle : StackOp → Exec σ Unit
  | .dupFromAlt => do push (← (← get).alt.peek 0)
  | .toAlt => moveToAlt
  | .fromAlt => moveFromAlt
  | .dropAt => do
    let _ ← remove (← popIndex)
  | .swapAt => do swapWithTop (← popIndex)
  | .tuckAt => do
    let n ← popIndex
    if n = 0 then fail .tuckAtZero
    tuckTop n
  | .depth => do pushInt (← get).stack.depth
  | .drop => do
    let _ ← pop
  | .dup => do push (← peek 0)
  | .nip => do
    let _ ← remove 1
  | .over => do push (← peek 1)
  | .pick => do push (← peek (← popIndex))
  | .roll => do
    let n ← popIndex
    if n > 0 then rollUp n
  | .rot => rollUp 2
  | .swap => rollUp 1
  | .tuck => tuckTop 2

/-- Work on byte strings. -/
def splice : SpliceOp → Exec σ Unit
  | .cat => do
    let right ← popBytes
    let left ← popBytes
    if left.length + right.length > maxItemSize then fail .catTooLong
    pushBytes (left ++ right)
  | .substr => do
    let count ← popIndex
    let start ← popIndex
    let data ← popBytes
    pushBytes (data.slice start (start + count))
  | .left => do
    let count ← popIndex
    let data ← popBytes
    pushBytes (data.take count)
  | .right => do
    let count ← popIndex
    let data ← popBytes
    if count > data.length then fail .rightTooLong
    pushBytes (data.drop (data.length - count))
  | .size => do
    let data ← popBytes
    pushInt data.length

end DryRun.Exec
