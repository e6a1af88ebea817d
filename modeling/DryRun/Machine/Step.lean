import DryRun.Machine.Arithmetic
import DryRun.Machine.Collections
import DryRun.Machine.Crypto
import DryRun.Machine.Shuffle

/-!
# Running

A machine runs against a host, which resolves contracts and system calls and prices instructions.
A step reads an instruction, charges for it, does what it says and then looks at the size of the
stacks.  A fault at any point ends the run and leaves everything as it was at that point.
-/

set_option autoImplicit false

namespace DryRun

variable {σ : Type}

/-- A script that a contract stands for. -/
structure Callee where
  /-- The script. -/
  script : Bytes
  /-- May the script call contracts chosen at run time? -/
  dynamicInvoke : Bool
deriving DecidableEq

/-- What a machine needs from outside. -/
structure Host (σ : Type) where
  /-- The contract of a name. -/
  contract : Bytes → Exec σ (Option Callee)
  /-- The price of an instruction, if instructions have prices. -/
  price : Option (Instruction → Machine σ → Except Fault Int)
  /-- The system call of a number. -/
  syscall : Nat → Option (Exec σ Unit)
  /-- The most gas that may be consumed. -/
  gasLimit : GasLimit
  /-- The message of the run, which signatures are checked against. -/
  message : Option Bytes

/-- A host without contracts, prices and system calls. -/
def Host.bare : Host σ :=
  { contract := fun _ => pure none, price := none, syscall := fun _ => none
    gasLimit := .unlimited, message := none }

namespace Exec

variable (host : Host σ)

/-! ## Reading and charging -/

/-- Read the next instruction of the running frame. -/
def fetch (frame : Frame) : Exec σ Instruction := do
  match Instruction.fetch frame.script frame.position with
  | .ok instruction position =>
    goTo position
    return instruction
  | .error cause position =>
    goTo position
    fail (.fetch cause)

/-- Charge for an instruction.  The return behind the end of a script is free. -/
def charge (frame : Frame) (instruction : Instruction) : Exec σ Unit := do
  match host.price with
  | none => return
  | some price =>
    if frame.position < frame.script.size then
      match price instruction (← get) with
      | .error fault => throw fault
      | .ok amount =>
        modify fun m => { m with gas := m.gas + amount }
        let gas := (← get).gas
        if host.gasLimit.isExceededBy gas then fail (.gasLimit gas host.gasLimit)

/-! ## Order of execution -/

/-- Where a jump from the start of an instruction leads. -/
def jumpTarget (frame : Frame) (operand : Bytes) : Exec σ Nat := do
  let target := (frame.position : Int) + TwosComplement.decode operand
  if target < 0 ∨ target > frame.script.size then fail (.jumpTarget target)
  return target.toNat

/-- Drop the running frame; the last one ends the run. -/
def ret : Exec σ Unit := do
  leave
  if (← get).frames.isEmpty then modify fun m => { m with status := .halted }

/-- The contract that a call means: the one in the operand, or one chosen at run time. -/
def callTarget (frame : Frame) (operand : Bytes) : Exec σ Bytes := do
  if Bytes.anyNonzero operand then return operand
  if !frame.dynamicInvoke then fail .dynamicCallForbidden
  let target ← popBytes
  if target.length ≠ Instruction.contractSize then fail .badDynamicTarget
  return target

/-- Run another contract, before or in place of the rest of the running frame. -/
def callContract (frame : Frame) (tail : Bool) (operand : Bytes) : Exec σ Unit := do
  let target ← callTarget frame operand
  let some callee ← host.contract target | fail (.contractNotFound target)
  if tail then leave
  enter ⟨.ofBytes callee.script, 0, callee.dynamicInvoke⟩

/-- Change the order of execution. -/
def flow (frame : Frame) (operand : Bytes) : FlowOp → Exec σ Unit
  | .nop => pure ()
  | .jump => do goTo (← jumpTarget frame operand)
  | .jumpIf => do
    let target ← jumpTarget frame operand
    if (← popBool) then goTo target
  | .jumpIfNot => do
    let target ← jumpTarget frame operand
    if !(← popBool) then goTo target
  | .call => do
    let target ← jumpTarget frame operand
    enter { frame with position := target }
  | .ret => ret
  | .appCall => callContract host frame false operand
  | .tailCall => callContract host frame true operand
  | .sysCall =>
    match host.syscall (SyscallId.ofOperand operand) with
    | some call => call
    | none => fail (.unknownSyscall operand)
  | .throw => fail .thrown
  | .throwIfNot => do
    if !(← popBool) then fail .thrownIfNot

/-! ## Steps -/

/-- Do what an instruction says, which started where `frame` stood. -/
def execute (frame : Frame) (instruction : Instruction) : Exec σ Unit :=
  match instruction.opcode with
  | .pushBytes _ => pushBytes instruction.operand
  | .pushData _ => pushBytes instruction.operand
  | .pushInt v => pushInt v
  | .flow op => flow host frame instruction.operand op
  | .stack op => shuffle op
  | .splice op => splice op
  | .unary op => unary op
  | .binary op => binary op
  | .compare op => compare op
  | .shift op => shift op
  | .logic op => logic op
  | .crypto op => crypto host.message op
  | .collection op => collection op
  | .reserved => do
    let _ ← popPair
    fail (.unknownOpcode instruction.code)
  | .unknown => fail (.unknownOpcode instruction.code)

/-- Read, charge for and do one instruction. -/
def instruction (frame : Frame) : Exec σ Unit := do
  let instruction ← fetch frame
  charge host frame instruction
  execute host frame instruction
  let m ← get
  if m.stack.depth + m.alt.depth > Machine.maxStackItems then fail .stackLimit

end Exec

namespace Machine

/-- A machine that has failed. -/
def stop (m : Machine σ) (fault : Fault) : Machine σ :=
  { m with status := .faulted fault }

/-- One step.  A machine that has stopped stays as it is. -/
def step (host : Host σ) (m : Machine σ) : Machine σ :=
  match m.status, m.frames with
  | .running, frame :: _ =>
    match Exec.instruction host frame m with
    | .ok _ m => m
    | .error fault m => m.stop fault
  | .running, [] => m.stop (.machine .noScript)
  | _, _ => m

/-- At most `fuel` steps. -/
def runFor (host : Host σ) : (fuel : Nat) → Machine σ → Machine σ
  | 0, m => m
  | fuel + 1, m => if m.status.isRunning then runFor host fuel (m.step host) else m

/-- A machine that is to run a script. -/
def load (script : Bytes) (dynamicInvoke : Bool) (world : σ) : Machine σ :=
  { idle world with frames := [⟨.ofBytes script, 0, dynamicInvoke⟩] }

end Machine

end DryRun
