import DryRun.Digest
import DryRun.Heap
import DryRun.Machine.Fault

/-!
# The state of the machine

A machine runs frames over one evaluation stack and one alternative stack.  Everything outside of
it that system calls can change is a value of a type `σ`, which the instructions themselves never
touch.  A computation that fails keeps what it did before the failure.
-/

set_option autoImplicit false

namespace DryRun

/-- A script that is being run. -/
structure Frame where
  /-- The script. -/
  script : Script
  /-- Where the next instruction starts. -/
  position : Nat
  /-- May the script call contracts chosen at run time? -/
  dynamicInvoke : Bool
deriving DecidableEq

/-- The hash that names the script of a frame. -/
def Frame.scriptHash (frame : Frame) : Bytes := frame.script.hash

/-- How far a run has come. -/
inductive Status where
  /-- There is more to do. -/
  | running
  /-- The last frame has returned. -/
  | halted
  /-- The run has failed. -/
  | faulted (fault : Fault)

/-- Is there more to do? -/
def Status.isRunning : Status → Bool
  | .running => true
  | _ => false

/-- The name of a status. -/
def Status.name : Status → String
  | .running => "NONE"
  | .halted => "HALT"
  | .faulted _ => "FAULT"

/-- A machine together with the world around it. -/
structure Machine (σ : Type) where
  /-- The frames, the running one first. -/
  frames : List Frame
  /-- The evaluation stack. -/
  stack : Stack
  /-- The alternative stack. -/
  alt : Stack
  /-- The collections and objects. -/
  heap : Heap
  /-- The gas consumed so far. -/
  gas : Int
  /-- How far the run has come. -/
  status : Status
  /-- The world around the machine. -/
  world : σ

/-- A computation on the machine. -/
abbrev Exec (σ : Type) := EStateM Fault (Machine σ)

variable {σ α : Type}

instance : MonadLift (Except ItemFault) (Exec σ) where
  monadLift
    | .ok a => pure a
    | .error cause => throw (.item cause)

instance : MonadLift (Except StackFault) (Exec σ) where
  monadLift
    | .ok a => pure a
    | .error cause => throw (.stack cause)

instance : MonadLift (Except MachineFault) (Exec σ) where
  monadLift
    | .ok a => pure a
    | .error cause => throw (.machine cause)

namespace Machine

/-- The most frames there may be. -/
def maxFrames : Nat := 1024

/-- The most items there may be on both stacks together. -/
def maxStackItems : Nat := 2 * 1024

/-- The greatest distance of a shift. -/
def maxShift : Int := 256

/-- A machine with nothing to run. -/
def idle (world : σ) : Machine σ :=
  { frames := [], stack := .empty (.ofString "evaluation stack")
    alt := .empty (.ofString "alt stack"), heap := .empty
    gas := 0, status := .running, world }

/-- The frame that is running. -/
def current? (m : Machine σ) : Option Frame := m.frames.head?

/-- The frame that called the running one. -/
def calling? (m : Machine σ) : Option Frame := m.frames[1]?

/-- The frame that was loaded first. -/
def outermost? (m : Machine σ) : Option Frame := m.frames.getLast?

end Machine

namespace Exec

/-- Fail for a cause in the machine. -/
def fail (cause : MachineFault) : Exec σ α :=
  throw (.machine cause)

/-! ## The evaluation stack -/

/-- Push an item. -/
def push (item : Item) : Exec σ Unit :=
  modify fun m => { m with stack := m.stack.push item }

/-- Push a byte string. -/
def pushBytes (b : Bytes) : Exec σ Unit := push (.ofBytes b)

/-- Push an integer. -/
def pushInt (v : Int) : Exec σ Unit := push (.ofInt v)

/-- Push a truth value. -/
def pushBool (b : Bool) : Exec σ Unit := push (.ofBool b)

/-- Pop an item. -/
def pop : Exec σ Item := do
  let (item, stack) ← (← get).stack.pop
  modify fun m => { m with stack }
  return item

/-- Pop an item and take its byte form. -/
def popBytes : Exec σ Bytes := do
  (← pop).toBytes

/-- Pop an item and take its integer form. -/
def popInt : Exec σ Int := do
  (← pop).toInt

/-- Pop an item and take its truth form. -/
def popBool : Exec σ Bool := do
  return (← pop).toBool

/-- Pop a position. -/
def popIndex : Exec σ Nat := do
  let n ← popInt
  if n < 0 then fail (.negativeIndex n)
  return n.toNat

/-- The item at a position. -/
def peek (n : Nat) : Exec σ Item := do
  (← get).stack.peek n

/-- Take the item at a position. -/
def remove (n : Nat) : Exec σ Item := do
  let (item, stack) ← (← get).stack.remove n
  modify fun m => { m with stack }
  return item

/-- Put an item at a position. -/
def insert (n : Nat) (item : Item) : Exec σ Unit := do
  let stack ← (← get).stack.insert n item
  modify fun m => { m with stack }

/-- Replace the item at a position. -/
def replace (n : Nat) (item : Item) : Exec σ Unit := do
  let stack ← (← get).stack.set n item
  modify fun m => { m with stack }

/-! ## The heap -/

/-- Change the heap and have an answer.  The machine lets go of its heap meanwhile, so that the
heap can be changed in place. -/
def onHeap (f : Heap → Heap × α) : Exec σ α :=
  modifyGet fun m =>
    let heap := m.heap
    let m := { m with heap := .empty }
    let (heap, answer) := f heap
    (answer, { m with heap })

/-- Change the heap. -/
def modifyHeap (f : Heap → Heap) : Exec σ Unit :=
  onHeap fun heap => (f heap, ())

/-- Push a new sequence. -/
def pushSequence (kind : SequenceKind) (items : List Item) : Exec σ Unit := do
  push (.seq (← onHeap (·.makeSequence kind items)))

/-- Push a new map. -/
def pushMap (entries : Entries) : Exec σ Unit := do
  push (.map (← onHeap (·.makeMap entries)))

/-- Push a handle to a new object. -/
def pushObject (object : Object) : Exec σ Unit := do
  push (.handle (← onHeap (·.makeObject object)))

/-! ## Frames -/

/-- Run a script from a position. -/
def enter (frame : Frame) : Exec σ Unit := do
  if (← get).frames.length ≥ Machine.maxFrames then fail .frameLimit
  modify fun m => { m with frames := frame :: m.frames }

/-- Drop the running frame. -/
def leave : Exec σ Unit :=
  modify fun m => { m with frames := m.frames.tail }

/-- Go on at a position of the running script. -/
def goTo (position : Nat) : Exec σ Unit :=
  modify fun m =>
    match m.frames with
    | frame :: rest => { m with frames := { frame with position } :: rest }
    | [] => m

end Exec

end DryRun
