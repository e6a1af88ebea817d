import DryRun.Proofs.Machine.Safe
import DryRun.Proofs.Machine.Step

/-!
# Runs of sound machines

A host is safe if finding contracts and all its system calls are.  On a safe host every instruction
takes a sound machine to a sound one (`Exec.wp_execute`), so every step does
(`Machine.Step.steady`), and every state of a run is sound if the first one is
(`Machine.steady_runFor`).

The depth of the evaluation stack can be pushed, so besides being sound a machine that is running
must not have more on its stacks than it may have.  The two together are `Machine.Steady`.
-/

set_option autoImplicit false

namespace DryRun

variable {σ : Type}

open Machine (Standard)

/-- Finding contracts and all system calls take sound machines to sound ones. -/
structure Host.Safe (std : Standard σ) (host : Host σ) : Prop where
  /-- Finding a contract. -/
  contract : ∀ name old, Exec.Safe std old (host.contract name)
  /-- The system calls. -/
  syscall : ∀ id call, host.syscall id = some call → ∀ old, Exec.Safe std old call

namespace Exec

variable {std : Standard σ} {old : Heap} {host : Host σ} {frame : Frame}

/-! ## Instructions -/

theorem safe_jumpTarget (operand : Bytes) :
    Safe std old (jumpTarget frame operand : Exec σ Nat) := by
  rw [jumpTarget]
  exact .guarded fun _ => safe_pure _

theorem safe_callTarget (operand : Bytes) :
    Safe std old (callTarget frame operand : Exec σ Bytes) := by
  rw [callTarget]
  refine .ite (fun _ => safe_pure _) fun _ => .guarded fun _ => ?_
  exact yields_popBytes.bind fun _ _ _ _ => .guarded fun _ => safe_pure _

theorem safe_ret : Safe std old (ret : Exec σ Unit) := by
  refine safe_leave.bind fun _ _ _ _ => yields_get_bind fun _ _ _ => ?_
  exact .ite (fun _ => safe_modify_of_items fun _ => ⟨rfl, rfl, rfl, rfl⟩) fun _ => safe_pure ()

theorem safe_callContract (safe : host.Safe std) (tail : Bool) (operand : Bytes) :
    Safe std old (callContract host frame tail operand) := by
  rw [callContract]
  refine (safe_callTarget operand).bind fun name heap _ _ => ?_
  refine (safe.contract name heap).bind fun found _ _ _ => ?_
  cases found with
  | none => exact yields_fail _
  | some callee =>
    refine .ite (fun _ => ?_) fun _ => safe_enter _
    exact safe_leave.bind fun _ _ _ _ => safe_enter _

theorem safe_flow (safe : host.Safe std) (operand : Bytes) (op : FlowOp) :
    Safe std old (flow host frame operand op) := by
  cases op with
  | nop => exact safe_pure ()
  | jump => exact (safe_jumpTarget operand).bind fun _ _ _ _ => safe_goTo _
  | jumpIf =>
    exact (safe_jumpTarget operand).bind fun _ _ _ _ => safe_popBool.bind fun _ _ _ _ =>
      .ite (fun _ => safe_goTo _) fun _ => safe_pure ()
  | jumpIfNot =>
    exact (safe_jumpTarget operand).bind fun _ _ _ _ => safe_popBool.bind fun _ _ _ _ =>
      .ite (fun _ => safe_goTo _) fun _ => safe_pure ()
  | call => exact (safe_jumpTarget operand).bind fun _ _ _ _ => safe_enter _
  | ret => exact safe_ret
  | appCall => exact safe_callContract safe false operand
  | tailCall => exact safe_callContract safe true operand
  | sysCall =>
    rw [flow]
    split
    · next call known => exact safe.syscall _ call known old
    · exact yields_fail _
  | throw => exact yields_fail _
  | throwIfNot =>
    exact safe_popBool.bind fun _ _ _ _ => .ite (fun _ => yields_fail _) fun _ => safe_pure ()

/-- An instruction that does not push the depth of the stack. -/
theorem safe_execute (safe : host.Safe std) {i : Instruction} (modest : i.Modest)
    (h : i.opcode ≠ .stack .depth) : Safe std old (execute host frame i) := by
  have hopcode := modest.opcode
  rw [execute]
  cases code : i.opcode with
  | pushBytes n => exact safe_pushShort modest.operand
  | pushData width => exact safe_pushShort modest.operand
  | pushInt v =>
    rw [code] at hopcode
    have limited : (Primitive.int v).Limited := inIntegerRange_of_small hopcode
    exact safe_pushInt (std.values.of_limited limited)
  | flow op => exact safe_flow safe _ op
  | stack op => exact safe_shuffle fun same => h (by rw [code, same])
  | splice op => exact safe_splice op
  | unary op => exact safe_unary op
  | binary op => exact safe_binary op
  | compare op => exact safe_compare op
  | shift op => exact safe_shift op
  | logic op => exact safe_logic op
  | crypto op => exact safe_crypto _ op
  | collection op => exact safe_collection op
  | reserved => exact safe_popPair.bind fun _ _ _ _ => yields_fail _
  | unknown => exact yields_fail _

variable {m : Machine σ}

/-- **Every instruction** takes a sound machine whose stack is not deep to a sound one. -/
theorem wp_execute (safe : host.Safe std) {i : Instruction} (modest : i.Modest)
    (sound : m.Sound std) (depth : m.stack.depth ≤ maxItemSize) :
    wp (execute host frame i) (fun _ m' => m'.Sound std) (Machine.Sound std) m := by
  -- the depth is the one number that is pushed without having been checked
  by_cases h : i.opcode = .stack .depth
  · rw [execute, h]
    exact wp_get_bind.2 ((safe_pushCount depth).wp sound)
  · exact (safe_execute safe modest h).wp sound

end Exec

namespace Machine

variable {std : Standard σ} {host : Host σ} {m m' : Machine σ}

/-! ## Steps -/

/-- The machine is sound, and while it is running there is not too much on its stacks. -/
structure Steady (std : Standard σ) (m : Machine σ) : Prop where
  /-- It is sound. -/
  sound : m.Sound std
  /-- There is not too much on its stacks. -/
  depth : m.status = .running → m.stack.depth + m.alt.depth ≤ maxStackItems

theorem Sound.steady_stop (h : m.Sound std) (fault : Fault) : (m.stop fault).Steady std :=
  ⟨h.stop fault, fun running => by cases running⟩

theorem Sound.moveTo (h : m.Sound std) (next : Nat) : (m.moveTo next).Sound std :=
  h.of_items (m.stack_moveTo next) (m.alt_moveTo next) (m.heap_moveTo next) (m.world_moveTo next)

theorem Sound.ready (h : m.Sound std) (next : Nat) (due : Option Int) :
    (m.ready next due).Sound std :=
  h.of_items (m.stack_ready next due) (m.alt_ready next due) (m.heap_ready next due)
    (m.world_ready next due)

/-- **Every step** takes a steady machine to a steady one. -/
theorem Step.steady (safe : host.Safe std) (step : Step host m m') (h : m.Steady std) :
    m'.Steady std := by
  have does {frame : Frame} {i : Instruction} {next : Nat} {due : Option Int}
      (pays : Pays host m frame i next due) :
      Exec.wp (Exec.execute host frame i) (fun _ m' => m'.Sound std) (Sound std)
        (m.ready next due) := by
    refine Exec.wp_execute safe (Instruction.modest_fetch pays.fetched) (h.sound.ready next due) ?_
    have depth := h.depth pays.running
    have few : maxStackItems ≤ maxItemSize := by decide
    rw [stack_ready]
    omega
  cases step with
  | still => exact h
  | empty => exact h.sound.steady_stop _
  | unread => exact (h.sound.moveTo _).steady_stop _
  | unpriced => exact (h.sound.moveTo _).steady_stop _
  | overdrawn => exact (h.sound.ready _ _).steady_stop _
  | failed pays failed => exact ((does pays).error failed).steady_stop _
  | overfull pays done => exact ((does pays).ok done).steady_stop _
  | done pays done depth => exact ⟨(does pays).ok done, fun _ => depth⟩

/-! ## Runs -/

/-- **Every state of a run** is steady if the first one is. -/
theorem steady_runFor (safe : host.Safe std) (h : m.Steady std) (n : Nat) :
    (m.runFor host n).Steady std :=
  runFor_invariant host (fun m => (step_spec host m).steady safe) h n

/-- A machine is steady at the start. -/
theorem steady_load {world : σ} (rule : std.world .empty world) (script : Bytes)
    (dynamicInvoke : Bool) : (load script dynamicInvoke world).Steady std where
  sound := ⟨Heap.sound_empty, fun _ mem => absurd mem List.not_mem_nil,
    fun _ mem => absurd mem List.not_mem_nil, rule⟩
  depth _ := Nat.zero_le _

end Machine

end DryRun
