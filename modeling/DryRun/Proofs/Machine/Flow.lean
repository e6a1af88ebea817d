import DryRun.Proofs.Machine.Step

/-!
# What instructions do to the order of execution

Most instructions leave the frames alone: `keeps_execute_of_not_transfer` reduces every relation
that does not look at items to the system call the instruction makes, if it makes one.  Those that
jump, call or return change nothing but the frames and whether the run has ended, which
`keeps_execute` says for every relation that does not look at these either.  A relation that looks
at the collections that are there is kept as well, by all instructions that do not change one of
them (`keeps_execute_of_collection`).

`Exec.Turn` lists what an instruction that succeeds can do to the frames: leave them, move the
running one, drop it, or put another one on top of it or in its place.  It supposes a host that is
`Host.Calm`, one whose answers and system calls do not reach into the order of execution.
-/

set_option autoImplicit false

namespace DryRun

variable {σ : Type}

namespace Machine

/-- Nothing has changed but items and the order of execution. -/
structure SameOutside (m m' : Machine σ) : Prop where
  /-- The gas is the same. -/
  gas : m'.gas = m.gas
  /-- The world is the same. -/
  world : m'.world = m.world
  /-- The objects are the same. -/
  objects : m'.heap.objects = m.heap.objects

/-- A relation that looks neither at items nor at the order of execution. -/
class FlowBlind (R : Machine σ → Machine σ → Prop) : Prop extends ItemBlind R where
  /-- The order of execution is no change. -/
  of_sameOutside : ∀ {a b}, SameOutside a b → R a b

/-- Nothing has changed but the stacks and the order of execution. -/
structure SameHeap (m m' : Machine σ) : Prop where
  /-- The gas is the same. -/
  gas : m'.gas = m.gas
  /-- The world is the same. -/
  world : m'.world = m.world
  /-- The heap is the same. -/
  heap : m'.heap = m.heap

/-- A relation that looks neither at the stacks, nor at collections that are made, nor at the order
of execution. -/
class OrderBlind (R : Machine σ → Machine σ → Prop) : Prop extends GrowthBlind R where
  /-- The order of execution is no change. -/
  of_sameHeap : ∀ {a b}, SameHeap a b → R a b

instance {R : Machine σ → Machine σ → Prop} [FlowBlind R] : OrderBlind R where
  of_sameHeap h := FlowBlind.of_sameOutside ⟨h.gas, h.world, by rw [h.heap]⟩

/-- A relation that looks at nothing but the world and the objects. -/
class Outward (R : Machine σ → Machine σ → Prop) : Prop where
  /-- One change after another is a change. -/
  trans : ∀ {a b c}, R a b → R b c → R a c
  /-- What is not looked at is no change. -/
  of_same : ∀ {a b}, b.world = a.world → b.heap.objects = a.heap.objects → R a b

instance {R : Machine σ → Machine σ → Prop} [Outward R] : FlowBlind R where
  trans := Outward.trans
  of_onlyItems h := Outward.of_same h.world h.objects
  of_sameOutside h := Outward.of_same h.world h.objects

/-- The order of execution, the gas and the status are the same. -/
structure SameControl (m m' : Machine σ) : Prop where
  /-- The frames are the same. -/
  frames : m'.frames = m.frames
  /-- The gas is the same. -/
  gas : m'.gas = m.gas
  /-- The status is the same. -/
  status : m'.status = m.status

instance : ItemBlind (SameControl (σ := σ)) where
  trans h k := ⟨k.frames.trans h.frames, k.gas.trans h.gas, k.status.trans h.status⟩
  of_onlyItems h := ⟨h.frames, h.gas, h.status⟩

/-- The gas is the same. -/
def SameGas (m m' : Machine σ) : Prop := m'.gas = m.gas

instance : FlowBlind (SameGas (σ := σ)) where
  trans h k := Eq.trans k h
  of_onlyItems h := h.gas
  of_sameOutside h := h.gas

end Machine

open Machine (ItemBlind FlowBlind GrowthBlind OrderBlind SameControl)

namespace Exec

variable {R : Machine σ → Machine σ → Prop} {host : Host σ} {frame : Frame} {i : Instruction}

/-! ## Instructions that go on behind themselves -/

section

variable {Q : Unit → Machine σ → Prop} {E : Machine σ → Prop} {m : Machine σ}

/-- A system call is the one that the host knows under its number. -/
theorem wp_sysCall {operand : Bytes}
    (known : ∀ call, host.syscall (SyscallId.ofOperand operand) = some call → wp call Q E m)
    (unknown : host.syscall (SyscallId.ofOperand operand) = none → E m) :
    wp (flow host frame operand .sysCall) Q E m := by
  rw [flow]
  split
  · next call found => exact known call found
  · next missing => exact unknown missing

theorem wp_execute_sysCall (code : i.opcode = .flow .sysCall)
    (known : ∀ call, host.syscall (SyscallId.ofOperand i.operand) = some call → wp call Q E m)
    (unknown : host.syscall (SyscallId.ofOperand i.operand) = none → E m) :
    wp (execute host frame i) Q E m := by
  rw [execute, code]
  exact wp_sysCall known unknown

end

theorem keeps_sysCall [GrowthBlind R] (operand : Bytes)
    (hs : ∀ call, host.syscall (SyscallId.ofOperand operand) = some call → Keeps R call) :
    Keeps R (flow host frame operand .sysCall) := fun m =>
  wp_sysCall (fun call known => hs call known m) fun _ => GrowthBlind.refl R m

/-- An instruction that is no transfer at most makes collections, apart from what an instruction on
collections and its system call change. -/
theorem keeps_execute_inside [GrowthBlind R] (h : i.opcode.isTransfer = false)
    (hw : ∀ op, i.opcode = .collection op → Keeps R (collection op : Exec σ Unit))
    (hs : i.opcode = .flow .sysCall →
      ∀ call, host.syscall (SyscallId.ofOperand i.operand) = some call → Keeps R call) :
    Keeps R (execute host frame i) := by
  rw [execute]
  cases code : i.opcode with
  | pushBytes n => exact keeps_pushBytes _
  | pushData width => exact keeps_pushBytes _
  | pushInt v => exact keeps_pushInt _
  | stack op => exact keeps_shuffle op
  | splice op => exact keeps_splice op
  | unary op => exact keeps_unary op
  | binary op => exact keeps_binary op
  | compare op => exact keeps_compare op
  | shift op => exact keeps_shift op
  | logic op => exact keeps_logic op
  | crypto op => exact keeps_crypto _ op
  | collection op => exact hw op code
  | reserved => exact keeps_popPair.bind fun _ => keeps_fail _
  | unknown => exact keeps_fail _
  | flow op =>
    rw [code] at h
    cases op with
    | nop => exact keeps_pure _
    | throw => exact keeps_fail _
    | throwIfNot =>
      exact keeps_popBool.bind fun _ => (keeps_fail _).ite (keeps_pure _)
    | sysCall => exact keeps_sysCall _ (hs code)
    | jump | jumpIf | jumpIfNot | call | ret | appCall | tailCall => cases h

/-- **An instruction that is no transfer** changes only items, and what its system call changes. -/
theorem keeps_execute_of_not_transfer [ItemBlind R] (h : i.opcode.isTransfer = false)
    (hs : i.opcode = .flow .sysCall →
      ∀ call, host.syscall (SyscallId.ofOperand i.operand) = some call → Keeps R call) :
    Keeps R (execute host frame i) :=
  keeps_execute_inside h (fun op _ => keeps_collection op) hs

/-! ## Transfers -/

theorem keeps_jumpTarget [GrowthBlind R] (operand : Bytes) :
    Keeps R (jumpTarget frame operand : Exec σ Nat) :=
  (keeps_fail _).guarded fun _ => keeps_pure _

theorem keeps_callTarget [GrowthBlind R] (operand : Bytes) :
    Keeps R (callTarget frame operand : Exec σ Bytes) := by
  rw [callTarget]
  refine Keeps.ite (keeps_pure _) ?_
  exact (keeps_fail _).guarded fun _ => keeps_popBytes.bind fun _ =>
    (keeps_fail _).guarded fun _ => keeps_pure _

section

variable [OrderBlind R]

theorem keeps_goTo (position : Nat) : Keeps R (goTo position : Exec σ Unit) := by
  refine keeps_modify fun m => OrderBlind.of_sameHeap ?_
  split
  · exact ⟨rfl, rfl, rfl⟩
  · exact ⟨rfl, rfl, rfl⟩

theorem keeps_leave : Keeps R (leave : Exec σ Unit) :=
  keeps_modify fun _ => OrderBlind.of_sameHeap ⟨rfl, rfl, rfl⟩

theorem keeps_enter (frame : Frame) : Keeps R (enter frame : Exec σ Unit) :=
  keeps_get.bind fun _ => (keeps_fail _).guarded fun _ =>
    keeps_modify fun _ => OrderBlind.of_sameHeap ⟨rfl, rfl, rfl⟩

theorem keeps_ret : Keeps R (ret : Exec σ Unit) := by
  refine keeps_leave.bind fun _ => keeps_get.bind fun _ => Keeps.ite ?_ (keeps_pure _)
  exact keeps_modify fun _ => OrderBlind.of_sameHeap ⟨rfl, rfl, rfl⟩

theorem keeps_callContract (hc : ∀ name, Keeps R (host.contract name)) (tail : Bool)
    (operand : Bytes) : Keeps R (callContract host frame tail operand) := by
  rw [callContract]
  refine (keeps_callTarget operand).bind fun target => (hc target).bind fun found => ?_
  split
  · exact keeps_leave.guarded fun _ => keeps_enter _
  · exact keeps_fail _

/-- A transfer changes only items, the order of execution, and what the host changes. -/
theorem keeps_flow_of_transfer {op : FlowOp} (h : op.isTransfer = true)
    (hc : ∀ name, Keeps R (host.contract name)) (operand : Bytes) :
    Keeps R (flow host frame operand op) := by
  cases op with
  | jump => exact (keeps_jumpTarget _).bind fun _ => keeps_goTo _
  | jumpIf =>
    exact (keeps_jumpTarget _).bind fun _ => keeps_popBool.bind fun _ =>
      (keeps_goTo _).ite (keeps_pure _)
  | jumpIfNot =>
    exact (keeps_jumpTarget _).bind fun _ => keeps_popBool.bind fun _ =>
      (keeps_goTo _).ite (keeps_pure _)
  | call => exact (keeps_jumpTarget _).bind fun _ => keeps_enter _
  | ret => exact keeps_ret
  | appCall => exact keeps_callContract hc _ _
  | tailCall => exact keeps_callContract hc _ _
  | nop | sysCall | throw | throwIfNot => cases h

/-- An instruction at most makes collections and changes the order of execution, apart from what an
instruction on collections and the host change. -/
theorem keeps_execute_of_collection
    (hw : ∀ op, i.opcode = .collection op → Keeps R (collection op : Exec σ Unit))
    (hc : ∀ name, Keeps R (host.contract name))
    (hs : i.opcode = .flow .sysCall →
      ∀ call, host.syscall (SyscallId.ofOperand i.operand) = some call → Keeps R call) :
    Keeps R (execute host frame i) := by
  cases transfer : i.opcode.isTransfer with
  | false => exact keeps_execute_inside transfer hw hs
  | true =>
    rw [execute]
    cases code : i.opcode with
    | flow op =>
      rw [code] at transfer
      exact keeps_flow_of_transfer transfer hc _
    | _ => rw [code] at transfer; cases transfer

end

/-- **An instruction** changes only items, the order of execution, and what the host changes. -/
theorem keeps_execute [FlowBlind R] (hc : ∀ name, Keeps R (host.contract name))
    (hs : i.opcode = .flow .sysCall →
      ∀ call, host.syscall (SyscallId.ofOperand i.operand) = some call → Keeps R call) :
    Keeps R (execute host frame i) :=
  keeps_execute_of_collection (fun op _ => keeps_collection op) hc hs

end Exec

/-! ## What becomes of the frames -/

/-- The host's answers and system calls do not reach into the order of execution. -/
structure Host.Calm (host : Host σ) : Prop where
  /-- Finding a contract does not. -/
  contract : ∀ name, Exec.Keeps SameControl (host.contract name)
  /-- No system call does. -/
  syscall : ∀ id call, host.syscall id = some call → Exec.Keeps SameControl call

/-- Asked in the world of `m`, the host finds a contract under a name. -/
def Host.Finds (host : Host σ) (m : Machine σ) (name : Bytes) (callee : Callee) : Prop :=
  ∃ m₁ m₂, m₁.world = m.world ∧ host.contract name m₁ = .ok (some callee) m₂

namespace Exec

/-- What an instruction of `frame` that succeeds can do to the frames and the status. -/
inductive Turn (host : Host σ) (frame : Frame) (m m' : Machine σ) : Prop where
  /-- The run goes on behind the instruction. -/
  | stay (frames : m'.frames = m.frames) (status : m'.status = m.status)
  /-- The run goes on elsewhere in the script. -/
  | jump {target : Nat} (inside : target ≤ frame.script.size)
    (frames : m'.frames = (m.moveTo target).frames) (status : m'.status = m.status)
  /-- The same script runs from elsewhere first. -/
  | call {target : Nat} (inside : target ≤ frame.script.size)
    (room : m.frames.length < Machine.maxFrames)
    (frames : m'.frames = { frame with position := target } :: m.frames)
    (status : m'.status = m.status)
  /-- The frame is left; if it was the last one the run has ended.  The stacks are as before. -/
  | ret (frames : m'.frames = m.frames.tail)
    (status : m'.status = if m.frames.tail.isEmpty then .halted else m.status)
    (stack : m'.stack = m.stack) (alt : m'.alt = m.alt)
  /-- Another contract runs first. -/
  | enter {name : Bytes} {callee : Callee} (found : host.Finds m name callee)
    (room : m.frames.length < Machine.maxFrames)
    (frames : m'.frames = ⟨.ofBytes callee.script, 0, callee.dynamicInvoke⟩ :: m.frames)
    (status : m'.status = m.status)
  /-- Another contract runs in place of the rest of the frame. -/
  | replace {name : Bytes} {callee : Callee} (found : host.Finds m name callee)
    (room : m.frames.tail.length < Machine.maxFrames)
    (frames : m'.frames = ⟨.ofBytes callee.script, 0, callee.dynamicInvoke⟩ :: m.frames.tail)
    (status : m'.status = m.status)

variable {host : Host σ} {frame : Frame} {i : Instruction} {m : Machine σ}

theorem Turn.of_control {m' : Machine σ} (h : SameControl m m') : Turn host frame m m' :=
  .stay h.frames h.status

theorem wp_jumpTarget (operand : Bytes) :
    wp (jumpTarget frame operand) (fun target m' => target ≤ frame.script.size ∧ m' = m)
      (fun _ => True) m := by
  rw [jumpTarget]
  dsimp only
  split
  · exact trivial
  · next inside =>
    rw [not_or, Int.not_lt, Int.not_lt] at inside
    exact ⟨Int.toNat_le.2 inside.2, rfl⟩

theorem enter_eq (new : Frame) : enter new m =
    if m.frames.length ≥ Machine.maxFrames then .error (.machine .frameLimit) m
    else .ok () { m with frames := new :: m.frames } := by
  rw [enter, get_bind]
  split <;> rfl

/-- A new frame needs room. -/
theorem wp_enter {Q : Unit → Machine σ → Prop} {E : Machine σ → Prop} (new : Frame)
    (h : m.frames.length < Machine.maxFrames → Q () { m with frames := new :: m.frames })
    (full : Machine.maxFrames ≤ m.frames.length → E m) :
    wp (enter new) Q E m := by
  rw [wp, enter_eq]
  by_cases room : m.frames.length ≥ Machine.maxFrames
  · rw [if_pos room]
    exact full room
  · rw [if_neg room]
    exact h (Nat.lt_of_not_le room)

/-- A return never fails.  It drops the running frame and ends the run if that was the last. -/
theorem wp_ret :
    wp ret (fun _ m' => m'.frames = m.frames.tail ∧
      (m'.status = if m.frames.tail.isEmpty then .halted else m.status) ∧
      m'.stack = m.stack ∧ m'.alt = m.alt) (fun _ => False) m := by
  rw [ret]
  refine wp_bind.2 (wp_bind.2 ?_)
  show wp (if m.frames.tail.isEmpty then _ else _) _ _ { m with frames := m.frames.tail }
  split
  · exact ⟨rfl, rfl, rfl, rfl⟩
  · exact ⟨rfl, rfl, rfl, rfl⟩

/-- The return from the only frame ends the run. -/
theorem ret_eq (only : m.frames = [frame]) :
    ret m = .ok () { m with frames := [], status := .halted } := by
  have last : m.frames.tail = [] := by rw [only, List.tail_cons]
  have left : leave m = .ok () { m with frames := [] } := by rw [← last]; rfl
  rw [ret, bind_eq, left]
  rfl

theorem execute_impliedReturn : execute host frame .impliedReturn = ret := rfl

theorem turn_callContract (calm : host.Calm) (tail : Bool) (operand : Bytes) :
    wp (callContract host frame tail operand) (fun _ => Turn host frame m) (fun _ => True) m := by
  rw [callContract]
  have target : Keeps Machine.OnlyItems (callTarget frame operand : Exec σ Bytes) :=
    keeps_callTarget operand
  refine wp_bind.2 ((target m).mono ?_ fun _ _ => trivial)
  intro name m₁ items
  refine wp_bind.2 ?_
  cases answer : host.contract name m₁ with
  | error fault m₂ => rw [wp, answer]; exact trivial
  | ok found m₂ =>
    have control : SameControl m m₂ :=
      ItemBlind.trans (ItemBlind.of_onlyItems items) ((calm.contract name).ok answer)
    rw [wp, answer]
    cases found with
    | none => exact trivial
    | some callee =>
      have found : host.Finds m name callee := ⟨m₁, m₂, items.world, answer⟩
      cases tail with
      | false =>
        refine wp_enter _ (fun room => .enter found ?_ ?_ control.status) fun _ => trivial
        · rwa [← control.frames]
        · show _ :: m₂.frames = _
          rw [control.frames]
      | true =>
        refine wp_bind.2 (wp_enter _ (fun room => .replace found ?_ ?_ control.status)
          fun _ => trivial)
        · rwa [← control.frames]
        · show _ :: m₂.frames.tail = _
          rw [control.frames]

theorem turn_flow (calm : host.Calm) {op : FlowOp} (transfer : op.isTransfer = true)
    (operand : Bytes) :
    wp (flow host frame operand op) (fun _ => Turn host frame m) (fun _ => True) m := by
  cases op with
  | jump =>
    refine wp_bind.2 ((wp_jumpTarget operand).mono ?_ fun _ _ => trivial)
    rintro target _ ⟨inside, rfl⟩
    exact .jump inside rfl (Machine.status_moveTo _ _)
  | jumpIf | jumpIfNot =>
    refine wp_bind.2 ((wp_jumpTarget operand).mono ?_ fun _ _ => trivial)
    rintro target _ ⟨inside, rfl⟩
    refine wp_bind.2 ((keeps_popBool (R := SameControl) _).mono ?_ fun _ _ => trivial)
    intro taken m₁ control
    split
    · refine .jump inside ?_ ((Machine.status_moveTo m₁ target).trans control.status)
      exact Machine.frames_moveTo_congr _ control.frames
    · exact .of_control control
  | call =>
    refine wp_bind.2 ((wp_jumpTarget operand).mono ?_ fun _ _ => trivial)
    rintro target _ ⟨inside, rfl⟩
    exact wp_enter _ (fun room => .call inside room rfl rfl) fun _ => trivial
  | ret =>
    exact wp_ret.mono (fun _ _ ⟨frames, status, stack, alt⟩ => .ret frames status stack alt)
      fun _ _ => trivial
  | appCall => exact turn_callContract calm false operand
  | tailCall => exact turn_callContract calm true operand
  | nop | sysCall | throw | throwIfNot => cases transfer

/-- **What an instruction that succeeds can do to the frames.** -/
theorem turn_execute (calm : host.Calm) :
    wp (execute host frame i) (fun _ => Turn host frame m) (fun _ => True) m := by
  cases transfer : i.opcode.isTransfer with
  | false =>
    refine (keeps_execute_of_not_transfer transfer (fun _ => calm.syscall _) m).mono ?_
      fun _ _ => trivial
    exact fun _ _ control => .of_control control
  | true =>
    rw [execute]
    cases code : i.opcode with
    | flow op =>
      rw [code] at transfer
      exact turn_flow calm transfer _
    | _ => rw [code] at transfer; cases transfer

end Exec

end DryRun
