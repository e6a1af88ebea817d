import DryRun.Proofs.Machine.Operands
import DryRun.Proofs.Run.Order
import DryRun.Proofs.Syscall.Calls
import DryRun.Proofs.Syscall.Charge

/-!
# Dynamic invocation is handed down

A script may call contracts that it chooses at run time if the frame it runs in says so.  The script
that is loaded at the start is told by whoever loads it, a contract by its properties, and a frame
that `CALL` makes by the frame that makes it.  There is no other way to come by this right.

* `Machine.flow?` — the instruction of a step, if it is one that changes the order of execution;
* `Machine.beside` — what such an instruction does to a list that is kept beside the frames;
* `Machine.origins` — such a list, which says where the frames of a run come from;
* `Step.rights_eq` — what the frames may do is another one, so a frame may do what is said where it
  comes from (`ComesFrom`);
* `dynamic_invocation_is_handed_down` — in every state of a run.  A contract that is chosen at run
  time is therefore called by a frame that has the right to from where it comes from.
-/

set_option autoImplicit false

namespace DryRun

open Exec (FoundContract)
open Machine (Pays Reads SameControl Step)

variable {setting : Setting} {limit : GasLimit} {m m' : Machine World} {frame : Frame}
  {i : Instruction} {next : Nat} {due : Option Int} {operands rest : List Item} {name : Bytes}
  {found : FoundContract}

/-! ## Rights and where they come from -/

/-- What a frame runs, and whether it may call contracts chosen at run time. -/
def Frame.right (frame : Frame) : Script × Bool := (frame.script, frame.dynamicInvoke)

/-- The frame that a contract which was found begins to run in. -/
def Exec.FoundContract.firstFrame (found : FoundContract) : Frame :=
  ⟨.ofBytes found.contract.script, 0, found.contract.hasDynamicInvoke⟩

/-- How a frame gives the name of a contract that it calls: in the operand of the call, or if that
is nothing but zeros as an item on the stack. -/
inductive Frame.Names (frame : Frame) (operand : Bytes) : List Item → Bytes → Prop where
  /-- The operand is the name. -/
  | fixed (nonzero : Bytes.anyNonzero operand = true) : Names frame operand [] operand
  /-- The name is an item. -/
  | chosen {item : Item} {name : Bytes} (zero : Bytes.anyNonzero operand = false)
    (may : frame.dynamicInvoke = true) (read : item.toBytes = .ok name)
    (size : name.length = Instruction.contractSize) : Names frame operand [item] name

/-- An instruction that makes a frame or drops one. -/
def FlowOp.restacks : FlowOp → Bool
  | .call | .ret | .appCall | .tailCall => true
  | _ => false

namespace Machine

/-- The running frame calls a contract and finds it. -/
structure Calls (setting : Setting) (m : Machine World) (frame : Frame) (i : Instruction)
    (next : Nat) (operands rest : List Item) (name : Bytes) (found : FoundContract) : Prop
    extends Reads m frame i next where
  /-- The instruction is a call of a contract. -/
  code : i.opcode = .flow .appCall ∨ i.opcode = .flow .tailCall
  /-- The operands lie on top of the stack. -/
  items : m.stack.items = operands ++ rest
  /-- They give the name together with the operand of the instruction. -/
  names : frame.Names i.operand operands name
  /-- The contract is found under this name in the world as it is. -/
  finds : ∃ m₁ m₂, m₁.world = m.world ∧ Exec.findContract setting name m₁ = .ok (some found) m₂

/-- What the frames run, and whether they may call contracts chosen at run time. -/
def rights (m : Machine World) : List (Script × Bool) := m.frames.map Frame.right

/-- The instruction that the next step does without a fault, if it is one that changes the order of
execution. -/
def flow? (host : Host World) (m : Machine World) : Option FlowOp :=
  match m.status, m.frames with
  | .running, frame :: _ =>
    match Exec.fetch frame m with
    | .error _ _ => none
    | .ok i m₁ =>
      match Exec.charge host frame i m₁ with
      | .error _ _ => none
      | .ok _ m₂ =>
        match Exec.execute host frame i m₂ with
        | .error _ _ => none
        | .ok _ _ =>
          match i.opcode with
          | .flow op => some op
          | _ => none
  | _, _ => none

/-- What an instruction makes of a list beside the frames, the running one first: `CALL` doubles
the entry of the running frame, and a call of a contract comes with a new one. -/
def beside {α : Type} (op : Option FlowOp) (new : α) (entries : List α) : List α :=
  match op with
  | some .call => entries.head?.toList ++ entries
  | some .ret => entries.tail
  | some .appCall => new :: entries
  | some .tailCall => new :: entries.tail
  | _ => entries

theorem beside_of_not_restacks {α : Type} {op : Option FlowOp}
    (h : ∀ o, op = some o → o.restacks = false) (new : α) (entries : List α) :
    beside op new entries = entries := by
  cases op with
  | none => rfl
  | some op =>
    have := h op rfl
    cases op with
    | call | ret | appCall | tailCall => cases this
    | _ => rfl

/-- Where the frames of a state come from, the running one first: from the call of a contract in
the step with a number, or with no number from the start of the run.  A frame that `CALL` makes
comes from where the frame comes from in which it was done. -/
def origins (host : Host World) (m : Machine World) : Nat → List (Option Nat)
  | 0 => m.frames.map fun _ => none
  | n + 1 => beside ((m.runFor host n).flow? host) (some n) (m.origins host n)

end Machine

/-! ## One instruction -/

namespace Exec

theorem takes_callTarget {heap : Heap} (frame : Frame) (operand : Bytes) :
    Takes heap (frame.Names operand) (callTarget frame operand : Exec World Bytes) := by
  rw [callTarget]
  split
  · next nonzero => exact takes_pure (.fixed nonzero)
  · next zero =>
    refine (takes_fail _).guarded fun may => takes_popBytes.bind fun name operands taken => ?_
    refine (takes_fail _).guarded fun size => takes_pure ?_
    obtain ⟨item, rfl, read⟩ := taken
    exact .chosen (Bool.eq_false_iff.2 zero) (by simpa using may) read (Decidable.of_not_not size)

theorem eq_of_enter {new : Frame} (done : enter new m = .ok () m') :
    m' = { m with frames := new :: m.frames } := by
  rw [enter_eq] at done
  split at done
  · cases done
  · cases done
    rfl

/-- **A call of a contract that is done** runs the contract that was found under the name that the
frame gave, on top of the frame or in its place. -/
theorem called_of_ok {tail : Bool} {operand : Bytes}
    (done : callContract (setting.host limit) frame tail operand m = .ok () m') :
    ∃ operands rest name found, m.stack.items = operands ++ rest ∧
      frame.Names operand operands name ∧
      (∃ m₁ m₂, m₁.world = m.world ∧ findContract setting name m₁ = .ok (some found) m₂) ∧
      m'.frames = found.firstFrame :: (if tail then m.frames.tail else m.frames) ∧
      m'.stack.items = rest ∧ m'.status = m.status := by
  obtain ⟨name, operands, rest, items, names, done⟩ := (takes_callTarget frame operand).of_bind done
  obtain ⟨callee, m₁, answer, done⟩ := bind_eq_ok done
  rw [setting.contract_host] at answer
  obtain ⟨found, m₂, resolved, answer⟩ := bind_eq_ok answer
  cases answer
  have control : SameControl (m.withItems rest) m₁ := (keeps_findContract name).ok resolved
  have stack : m₁.stack = (m.withItems rest).stack := (sameStack_findContract name).ok resolved
  have frames : m₁.frames = m.frames := control.frames
  cases found with
  | none => cases done
  | some found =>
    refine ⟨operands, rest, name, found, items, names, ⟨m.withItems rest, m₁, rfl, resolved⟩, ?_⟩
    cases tail with
    | false =>
      cases eq_of_enter done
      exact ⟨congrArg _ frames, congrArg Stack.items stack, control.status⟩
    | true =>
      obtain ⟨_, m₂, left, done⟩ := bind_eq_ok done
      cases left
      cases eq_of_enter done
      exact ⟨congrArg (found.firstFrame :: List.tail ·) frames, congrArg Stack.items stack,
        control.status⟩

end Exec

namespace Machine

/-! ## One step -/

@[simp] theorem rights_moveTo (m : Machine World) (next : Nat) :
    (m.moveTo next).rights = m.rights := by
  cases frames : m.frames with
  | nil => rw [moveTo, frames]
  | cons frame rest => rw [rights, rights, m.frames_moveTo next frames, frames]; rfl

theorem rights_ready : (m.ready next due).rights = m.rights := m.rights_moveTo next

theorem rights_stop (m : Machine World) (fault : Fault) : (m.stop fault).rights = m.rights := rfl

theorem SameControl.rights (h : SameControl m m') : m'.rights = m.rights := by
  rw [Machine.rights, Machine.rights, h.frames]

/-- A step that pays does the instruction that it reads. -/
theorem Pays.flow?_eq {host : Host World} (pays : Pays host m frame i next due) :
    m.flow? host =
      match Exec.execute host frame i (m.ready next due) with
      | .error _ _ => none
      | .ok _ _ =>
        match i.opcode with
        | .flow op => some op
        | _ => none := by
  rw [flow?, pays.running, pays.frames]
  dsimp only
  rw [Exec.fetch_eq, pays.fetched]
  dsimp only
  rw [pays.charge_eq]

theorem exists_pays_of_flow? {host : Host World} {op : FlowOp} (h : m.flow? host = some op) :
    ∃ frame i next due, Pays host m frame i next due := by
  rw [flow?] at h
  split at h
  · next frame rest running frames =>
    split at h
    · cases h
    · next fetched =>
      split at h
      · cases h
      · next charged => exact ⟨frame, _, exists_pays_of_charge running frames fetched charged⟩
  · cases h

/-- A step that does not fail does the instruction that is read. -/
theorem Step.done_of_reads {host : Host World} (step : Step host m m')
    (reads : Reads m frame i next) (fine : ∀ fault, m'.status ≠ .faulted fault) :
    ∃ due, Pays host m frame i next due ∧
      Exec.execute host frame i (m.ready next due) = .ok () m' := by
  cases step with
  | still stopped => rw [reads.running] at stopped; cases stopped
  | empty | unread | unpriced | overdrawn | failed | overfull => exact absurd rfl (fine _)
  | done pays does =>
    obtain ⟨rfl, rfl, rfl⟩ := reads.unique pays.toReads
    exact ⟨_, pays, does⟩

/-- What a step does that pays for nothing. -/
theorem Step.rights_of_not_pays {host : Host World} (step : Step host m m')
    (h : ∀ frame i next due, ¬ Pays host m frame i next due) : m'.rights = m.rights := by
  cases step with
  | still | empty => rfl
  | unread | unpriced => rw [rights_stop, rights_moveTo]
  | overdrawn => rw [rights_stop, rights_ready]
  | failed pays | overfull pays | done pays => exact absurd pays (h _ _ _ _)

/-- An instruction that is neither a call nor a return leaves the rights alone. -/
theorem rights_of_execute {host : Host World} (calm : host.Calm)
    (code : ∀ op, i.opcode = .flow op → op.restacks = false) :
    Exec.wp (Exec.execute host frame i) (fun _ m' => m'.rights = m.rights) (fun _ => True) m := by
  have goTo (target : Nat) {m₁ : Machine World} (same : SameControl m m₁) :
      (m₁.moveTo target).rights = m.rights := by rw [rights_moveTo, same.rights]
  cases transfer : i.opcode.isTransfer with
  | false =>
    refine (Exec.keeps_execute_of_not_transfer transfer (fun _ => calm.syscall _) m).mono ?_
      fun _ _ => trivial
    exact fun _ _ (same : SameControl _ _) => same.rights
  | true =>
    rw [Exec.execute]
    cases opcode : i.opcode with
    | flow op =>
      have other := code op opcode
      rw [opcode] at transfer
      cases op with
      | jump =>
        refine Exec.wp_bind.2 ((Exec.wp_jumpTarget _).mono ?_ fun _ _ => trivial)
        rintro target _ ⟨-, rfl⟩
        exact rights_moveTo _ target
      | jumpIf | jumpIfNot =>
        refine Exec.wp_bind.2 ((Exec.wp_jumpTarget _).mono ?_ fun _ _ => trivial)
        rintro target _ ⟨-, rfl⟩
        refine Exec.wp_bind.2 ((Exec.keeps_popBool (R := SameControl) _).mono ?_ fun _ _ => trivial)
        intro taken m₁ same
        split
        · exact goTo target same
        · exact same.rights
      | call | ret | appCall | tailCall => cases other
      | nop | sysCall | throw | throwIfNot => cases transfer
    | _ => rw [opcode] at transfer; cases transfer

/-- A call of a contract that is done: the contract runs on top of the calling frame, or in its
place. -/
theorem Pays.calls_of_execute (pays : Pays (setting.host limit) m frame i next due)
    (code : i.opcode = .flow .appCall ∨ i.opcode = .flow .tailCall)
    (done : Exec.execute (setting.host limit) frame i (m.ready next due) = .ok () m') :
    ∃ operands rest name found, m.Calls setting frame i next operands rest name found ∧
      m'.frames = found.firstFrame :: (if i.opcode = .flow .tailCall then m.frames.tail
        else { frame with position := next } :: m.frames.tail) ∧
      m'.stack.items = rest := by
  have called (tail : Bool) (done : Exec.callContract (setting.host limit) frame tail i.operand
        (m.ready next due) = .ok () m') :
      ∃ operands rest name found, m.Calls setting frame i next operands rest name found ∧
        m'.frames = found.firstFrame :: (if tail then m.frames.tail
          else { frame with position := next } :: m.frames.tail) ∧
        m'.stack.items = rest := by
    obtain ⟨operands, rest, name, found, items, names, finds, frames, left, -⟩ :=
      Exec.called_of_ok done
    rw [stack_ready] at items
    rw [world_ready] at finds
    rw [frames_ready, pays.frames_moveTo, List.tail_cons] at frames
    exact ⟨operands, rest, name, found, ⟨pays.toReads, code, items, names, finds⟩, frames, left⟩
  rw [Exec.execute] at done
  rcases code with code | code
  · rw [code] at done ⊢
    exact called false done
  · rw [code] at done ⊢
    exact called true done

/-- **What the frames may do is handed down** as an instruction hands down entries beside them, and
what is new is what the contract may do that is called. -/
theorem Pays.rights_eq (pays : Pays (setting.host limit) m frame i next due)
    (done : Exec.execute (setting.host limit) frame i (m.ready next due) = .ok () m') :
    ∃ right, m'.rights = beside (m.flow? (setting.host limit)) right m.rights ∧
      (m.flow? (setting.host limit) = some .appCall ∨
        m.flow? (setting.host limit) = some .tailCall →
        ∃ operands rest name found, m.Calls setting frame i next operands rest name found ∧
          right = found.firstFrame.right) := by
  have calm := setting.host_calm limit
  have ready : (m.ready next due).frames = { frame with position := next } :: m.frames.tail :=
    pays.frames_moveTo
  have before : m.rights = frame.right :: m.frames.tail.map Frame.right :=
    congrArg (List.map Frame.right) pays.frames
  rw [pays.flow?_eq, done]
  dsimp only
  by_cases restacks : ∃ op, i.opcode = .flow op ∧ op.restacks = true
  · obtain ⟨op, code, restacks⟩ := restacks
    rw [code]
    cases op with
    | call =>
      rw [Exec.execute, code] at done
      obtain ⟨target, m₁, inside, done⟩ := Exec.bind_eq_ok done
      obtain ⟨-, rfl⟩ := (Exec.wp_jumpTarget _).ok inside
      cases Exec.eq_of_enter done
      refine ⟨frame.right, ?_, by simp⟩
      rw [rights, ready, before]
      rfl
    | ret =>
      rw [Exec.execute, code] at done
      have after := (Exec.wp_ret.ok done).1
      refine ⟨frame.right, ?_, by simp⟩
      rw [rights, after, ready, List.tail_cons, before]
      rfl
    | appCall =>
      obtain ⟨operands, rest, name, found, calls, frames, -⟩ :=
        pays.calls_of_execute (.inl code) done
      refine ⟨_, ?_, fun _ => ⟨operands, rest, name, found, calls, rfl⟩⟩
      rw [rights, frames, code, before]
      rfl
    | tailCall =>
      obtain ⟨operands, rest, name, found, calls, frames, -⟩ :=
        pays.calls_of_execute (.inr code) done
      refine ⟨_, ?_, fun _ => ⟨operands, rest, name, found, calls, rfl⟩⟩
      rw [rights, frames, code, before]
      rfl
    | _ => cases restacks
  · have others : ∀ op, i.opcode = .flow op → op.restacks = false := fun op code =>
      Bool.eq_false_iff.2 fun restacks' => restacks ⟨op, code, restacks'⟩
    have other : ∀ op, (match i.opcode with | .flow op => some op | _ => none) = some op →
        op.restacks = false := by
      intro op same
      split at same
      · next code => exact others op (code.trans (congrArg _ (Option.some.inj same)))
      · cases same
    refine ⟨frame.right, ?_, ?_⟩
    · rw [beside_of_not_restacks other, (rights_of_execute calm others).ok done, rights_ready]
    · rintro (call | call)
      · cases other _ call
      · cases other _ call

/-- What comes of the frames' rights in a step, whatever becomes of it. -/
theorem Step.rights_eq (step : Step (setting.host limit) m m') (orderly : m.Orderly) :
    ∃ right, m'.rights = beside (m.flow? (setting.host limit)) right m.rights ∧
      (m.flow? (setting.host limit) = some .appCall ∨
        m.flow? (setting.host limit) = some .tailCall →
        ∃ frame i next operands rest name found,
          m.Calls setting frame i next operands rest name found ∧
          right = found.firstFrame.right) := by
  have unchanged (none : m.flow? (setting.host limit) = none) (same : m'.rights = m.rights) :
      ∃ right, m'.rights = beside (m.flow? (setting.host limit)) right m.rights ∧
        (m.flow? (setting.host limit) = some .appCall ∨
          m.flow? (setting.host limit) = some .tailCall →
          ∃ frame i next operands rest name found,
            m.Calls setting frame i next operands rest name found ∧
            right = found.firstFrame.right) := by
    rw [none]
    exact ⟨(.ofBytes [], false), same, by simp⟩
  by_cases pays : ∃ frame i next due, Pays (setting.host limit) m frame i next due
  · obtain ⟨frame, i, next, due, pays⟩ := pays
    cases done : Exec.execute (setting.host limit) frame i (m.ready next due) with
    | error fault m₁ =>
      have room : (m.ready next due).frames.length ≤ maxFrames := by
        rw [frames_ready, length_frames_moveTo]
        exact orderly.room
      have same : SameControl _ m₁ :=
        (Exec.failsInPlace_execute (setting.host_calm limit) room).error done
      refine unchanged (by rw [pays.flow?_eq, done]) ?_
      rw [← step.eq, pays.step_eq, done]
      exact same.rights.trans rights_ready
    | ok u m₁ =>
      obtain ⟨right, rights, calls⟩ := pays.rights_eq done
      refine ⟨right, ?_, fun call => ⟨frame, i, next, calls call⟩⟩
      rw [← rights, ← step.eq, pays.step_eq, done]
      dsimp only
      split
      · rfl
      · rfl
  · have none : m.flow? (setting.host limit) = none := by
      cases flow : m.flow? (setting.host limit) with
      | none => rfl
      | some op => exact absurd (exists_pays_of_flow? flow) pays
    exact unchanged none (step.rights_of_not_pays fun frame i next due h =>
      pays ⟨frame, i, next, due, h⟩)

end Machine

/-! ## Whole runs -/

/-- After `n` steps, something that a frame may do is what is said where the frame comes from. -/
inductive ComesFrom (setting : Setting) (limit : GasLimit) (start : Machine World) (n : Nat) :
    Script × Bool → Option Nat → Prop where
  /-- It is what a frame may do that was there at the start. -/
  | start {right : Script × Bool} (loaded : right ∈ start.rights) :
    ComesFrom setting limit start n right none
  /-- It is what a contract may do that was called in a step before, as it was found then. -/
  | call {k next : Nat} {frame : Frame} {i : Instruction} {operands rest : List Item} {name : Bytes}
    {found : FoundContract} (before : k < n)
    (calls : (start.runFor (setting.host limit) k).Calls setting frame i next operands rest name
      found) : ComesFrom setting limit start n found.firstFrame.right (some k)

section

variable {α β : Type} {R : α → β → Prop} {start : Machine World} {n : Nat}

theorem ComesFrom.succ {right : Script × Bool} {origin : Option Nat}
    (h : ComesFrom setting limit start n right origin) :
    ComesFrom setting limit start (n + 1) right origin := by
  cases h with
  | start loaded => exact .start loaded
  | call before calls => exact .call (Nat.lt_succ_of_lt before) calls

open Machine (beside) in
/-- Two lists beside the frames stay beside each other. -/
theorem forall₂_beside {op : Option FlowOp} {a : α} {b : β} {as : List α} {bs : List β}
    (h : List.Forall₂ R as bs) (new : op = some .appCall ∨ op = some .tailCall → R a b) :
    List.Forall₂ R (beside op a as) (beside op b bs) := by
  have tails : List.Forall₂ R as.tail bs.tail := by
    cases h with
    | nil => exact .nil
    | cons _ rest => exact rest
  cases op with
  | none => exact h
  | some op =>
    cases op with
    | call =>
      cases h with
      | nil => exact .nil
      | cons first rest => exact .cons first (.cons first rest)
    | ret => exact tails
    | appCall => exact .cons (new (.inl rfl)) h
    | tailCall => exact .cons (new (.inr rfl)) tails
    | _ => exact h

/-- **All frames of a run do what is said where they come from.** -/
theorem comesFrom_runFor (setting : Setting) (limit : GasLimit) (orderly : start.Orderly)
    (n : Nat) :
    List.Forall₂ (ComesFrom setting limit start n) (start.runFor (setting.host limit) n).rights
      (start.origins (setting.host limit) n) := by
  induction n with
  | zero =>
    have loaded : ∀ frames : List Frame, (∀ frame ∈ frames, frame ∈ start.frames) →
        List.Forall₂ (ComesFrom setting limit start 0) (frames.map Frame.right)
          (frames.map fun _ => none) := by
      intro frames
      induction frames with
      | nil => exact fun _ => .nil
      | cons frame frames ih =>
        intro mem
        rw [List.forall_mem_cons] at mem
        exact .cons (.start (List.mem_map_of_mem mem.1)) (ih mem.2)
    exact loaded start.frames fun _ mem => mem
  | succ n ih =>
    have state := Machine.orderly_runFor (setting.host_calm limit) orderly n
    obtain ⟨right, rights, calls⟩ :=
      (Machine.step_runFor (setting.host limit) start n).rights_eq state
    rw [rights, Machine.origins]
    refine forall₂_beside (ih.imp fun _ _ => ComesFrom.succ) fun call => ?_
    obtain ⟨frame, i, next, operands, rest, name, found, called, rfl⟩ := calls call
    exact .call (Nat.lt_succ_self n) called

end

/-- **A contract that is chosen at run time** is called in the step behind `n` others. -/
structure Chooses (setting : Setting) (limit : GasLimit) (start : Machine World) (n : Nat)
    (frame : Frame) (i : Instruction) (next : Nat) : Prop where
  /-- The frame has the right to. -/
  may : frame.dynamicInvoke = true
  /-- It has it from where it comes from. -/
  origin : ∃ origin, (start.origins (setting.host limit) n).head? = some origin ∧
    ComesFrom setting limit start n frame.right origin
  /-- It calls the contract that is named by an item of twenty bytes on top of the stack, and this
  is what runs then, on top of the frame or in its place. -/
  calls : ∃ item rest name found,
    (start.runFor (setting.host limit) n).Calls setting frame i next [item] rest name found ∧
    item.toBytes = .ok name ∧ name.length = 20 ∧
    (start.runFor (setting.host limit) (n + 1)).frames = found.firstFrame ::
      (if i.opcode = .flow .tailCall then (start.runFor (setting.host limit) n).frames.tail
        else { frame with position := next } :: (start.runFor (setting.host limit) n).frames.tail) ∧
    (start.runFor (setting.host limit) (n + 1)).stack.items = rest

/-- A call of a contract that does not fail, and gives no name, chooses one. -/
theorem chooses {start : Machine World} (orderly : start.Orderly) {n : Nat}
    (reads : Reads (start.runFor (setting.host limit) n) frame i next)
    (code : i.opcode = .flow .appCall ∨ i.opcode = .flow .tailCall)
    (zero : Bytes.anyNonzero i.operand = false)
    (done : ∀ fault, (start.runFor (setting.host limit) (n + 1)).status ≠ .faulted fault) :
    Chooses setting limit start n frame i next := by
  have origin : ∃ origin, (start.origins (setting.host limit) n).head? = some origin ∧
      ComesFrom setting limit start n frame.right origin := by
    have origins := comesFrom_runFor setting limit orderly n
    rw [Machine.rights, reads.frames] at origins
    cases same : start.origins (setting.host limit) n with
    | nil => rw [same] at origins; cases origins
    | cons origin others =>
      rw [same] at origins
      cases origins with
      | cons first _ => exact ⟨origin, rfl, first⟩
  obtain ⟨due, pays, does⟩ :=
    (Machine.step_runFor (setting.host limit) start n).done_of_reads reads done
  obtain ⟨operands, rest, name, found, calls, frames, left⟩ := pays.calls_of_execute code does
  cases calls.names with
  | fixed nonzero => rw [zero] at nonzero; cases nonzero
  | chosen _ may read size =>
    exact ⟨may, origin, _, rest, name, found, calls, read, size, frames, left⟩

/-- Dynamic invocation is handed down in the first `n` steps of a run that is loaded with a
script. -/
structure HandsDownInvocation (setting : Setting) (limit : GasLimit) (script : Bytes)
    (dynamicInvoke : Bool) (world : World) (n : Nat) : Prop where
  /-- Every frame runs what it runs, and may do what it may do, because of where it comes from. -/
  frames : List.Forall₂
    (ComesFrom setting limit (.load script dynamicInvoke world) n)
    ((Machine.load script dynamicInvoke world).runFor (setting.host limit) n).rights
    ((Machine.load script dynamicInvoke world).origins (setting.host limit) n)
  /-- A frame that may call contracts chosen at run time runs the script that was loaded so, or one
  of a contract with this property that was found when it was called. -/
  only : ∀ frame ∈ ((Machine.load script dynamicInvoke world).runFor (setting.host limit) n).frames,
    frame.dynamicInvoke = true →
    (frame.script = .ofBytes script ∧ dynamicInvoke = true) ∨
    ∃ k < n, ∃ caller i next operands rest name found,
      ((Machine.load script dynamicInvoke world).runFor (setting.host limit) k).Calls setting caller
        i next operands rest name found ∧
      frame.script = .ofBytes found.contract.script ∧ found.contract.hasDynamicInvoke = true
  /-- A call without a name in it that does not fail chooses one, and is allowed to. -/
  chooses : ∀ frame i next,
    Reads ((Machine.load script dynamicInvoke world).runFor (setting.host limit) n) frame i next →
    i.opcode = .flow .appCall ∨ i.opcode = .flow .tailCall → Bytes.anyNonzero i.operand = false →
    (∀ fault,
      ((Machine.load script dynamicInvoke world).runFor (setting.host limit) (n + 1)).status ≠
        .faulted fault) →
    Chooses setting limit (.load script dynamicInvoke world) n frame i next

/-- **Dynamic invocation cannot be gained.**  Whatever the script, the contracts and the node are,
whoever may call contracts chosen at run time was loaded so or has this property as a contract, at
the time of the call that made the frame, or runs in a frame that `CALL` has made in such a one. -/
theorem dynamic_invocation_is_handed_down (setting : Setting) (limit : GasLimit) (script : Bytes)
    (dynamicInvoke : Bool) (world : World) (n : Nat) :
    HandsDownInvocation setting limit script dynamicInvoke world n := by
  have orderly := Machine.orderly_load script dynamicInvoke world
  have frames := comesFrom_runFor setting limit orderly n
  refine ⟨frames, fun frame mem may => ?_, fun frame i next => chooses orderly⟩
  have sources := ((List.forall₂_and_left (p := fun right => ∃ origin, ComesFrom setting limit
    (.load script dynamicInvoke world) n right origin) _ _).1
    (frames.imp fun right origin comes => ⟨⟨origin, comes⟩, comes⟩)).1
  obtain ⟨origin, comes⟩ := sources frame.right (List.mem_map_of_mem mem)
  generalize same : frame.right = right at comes
  cases comes with
  | start loaded =>
    rw [List.mem_singleton.1 loaded] at same
    obtain ⟨runs, loaded⟩ := Prod.mk.inj same
    exact .inl ⟨runs, loaded.symm.trans may⟩
  | call before calls =>
    obtain ⟨runs, found⟩ := Prod.mk.inj same
    exact .inr ⟨_, before, _, _, _, _, _, _, _, calls, runs, found.symm.trans may⟩

end DryRun
