import DryRun.Machine.Step
import DryRun.Proofs.Machine.Items
import DryRun.Proofs.Script.Instruction

/-!
# What a step can do

`Machine.Step` lists the ways a step can go: the machine has stopped already, there is nothing to
run, an instruction cannot be read, has no price or cannot be paid for, or it is paid for and then
done, which may fail, leave too many items behind, or succeed.  `step_spec` says that every step is
one of these and `Step.eq` that they determine the step, so later files argue about `Machine.Step`
and never open the step itself.

A run is followed in the same way.  `Machine.runFor` is stated from its front; `runFor_succ` turns
it into "one step more", which is the form for inductions over the states of a run.
-/

set_option autoImplicit false

namespace DryRun

variable {σ : Type}

namespace Machine

/-! ## Reading and paying -/

/-- The machine with its running frame at a position. -/
def moveTo (m : Machine σ) (position : Nat) : Machine σ :=
  match m.frames with
  | frame :: rest => { m with frames := { frame with position } :: rest }
  | [] => m

/-- The machine after a payment. -/
def pay (m : Machine σ) (amount : Int) : Machine σ := { m with gas := m.gas + amount }

/-- The machine that is about to do an instruction, which was paid for if it has a price. -/
def ready (m : Machine σ) (next : Nat) (due : Option Int) : Machine σ :=
  (m.moveTo next).pay (due.getD 0)

section

variable (m : Machine σ) (next : Nat) (due : Option Int)

theorem frames_moveTo {frame : Frame} {rest : List Frame} (h : m.frames = frame :: rest) :
    (m.moveTo next).frames = { frame with position := next } :: rest := by
  rw [moveTo, h]

theorem frames_moveTo_congr {m m' : Machine σ} (h : m'.frames = m.frames) :
    (m'.moveTo next).frames = (m.moveTo next).frames := by
  cases frames : m.frames with
  | nil => rw [moveTo, moveTo, h, frames]; exact h
  | cons frame rest => rw [frames_moveTo m next frames, frames_moveTo m' next (h.trans frames)]

@[simp] theorem gas_moveTo : (m.moveTo next).gas = m.gas := by rw [moveTo]; split <;> rfl

@[simp] theorem status_moveTo : (m.moveTo next).status = m.status := by rw [moveTo]; split <;> rfl

@[simp] theorem world_moveTo : (m.moveTo next).world = m.world := by rw [moveTo]; split <;> rfl

@[simp] theorem heap_moveTo : (m.moveTo next).heap = m.heap := by rw [moveTo]; split <;> rfl

@[simp] theorem stack_moveTo : (m.moveTo next).stack = m.stack := by rw [moveTo]; split <;> rfl

@[simp] theorem alt_moveTo : (m.moveTo next).alt = m.alt := by rw [moveTo]; split <;> rfl

@[simp] theorem gas_ready : (m.ready next due).gas = m.gas + due.getD 0 := by simp [ready, pay]

@[simp] theorem status_ready : (m.ready next due).status = m.status := by simp [ready, pay]

@[simp] theorem world_ready : (m.ready next due).world = m.world := by simp [ready, pay]

@[simp] theorem heap_ready : (m.ready next due).heap = m.heap := by simp [ready, pay]

@[simp] theorem stack_ready : (m.ready next due).stack = m.stack := by simp [ready, pay]

@[simp] theorem alt_ready : (m.ready next due).alt = m.alt := by simp [ready, pay]

@[simp] theorem frames_ready : (m.ready next due).frames = (m.moveTo next).frames := rfl

end

end Machine

/-- What an instruction costs, if it has a price.  The return behind the end of a script has
none. -/
def Host.due (host : Host σ) (frame : Frame) (i : Instruction) (m : Machine σ) :
    Except Fault (Option Int) :=
  match host.price with
  | none => .ok none
  | some price => if frame.position < frame.script.size then some <$> price i m else .ok none

namespace Machine

/-- The machine is running and reads `i`, behind which the next instruction stands at `next`. -/
structure Reads (m : Machine σ) (frame : Frame) (i : Instruction) (next : Nat) : Prop where
  /-- It is running. -/
  running : m.status = .running
  /-- The running frame. -/
  frames : m.frames = frame :: m.frames.tail
  /-- The instruction. -/
  fetched : Instruction.fetch frame.script frame.position = .ok i next

/-- The machine reads `i` and can pay for it. -/
structure Pays (host : Host σ) (m : Machine σ) (frame : Frame) (i : Instruction) (next : Nat)
    (due : Option Int) : Prop extends Reads m frame i next where
  /-- The price. -/
  price : host.due frame i (m.moveTo next) = .ok due
  /-- The limit allows it. -/
  within : ∀ amount, due = some amount → host.gasLimit.isExceededBy (m.gas + amount) = false

theorem Reads.frames_moveTo {m : Machine σ} {frame : Frame} {i : Instruction} {next : Nat}
    (h : Reads m frame i next) :
    (m.moveTo next).frames = { frame with position := next } :: m.frames.tail :=
  m.frames_moveTo next h.frames

/-! ## The ways of a step -/

/-- The ways a step can go. -/
inductive Step (host : Host σ) (m : Machine σ) : Machine σ → Prop where
  /-- The machine has stopped before. -/
  | still (stopped : m.status.isRunning = false) : Step host m m
  /-- There is nothing to run. -/
  | empty (running : m.status = .running) (frames : m.frames = []) :
    Step host m (m.stop (.machine .noScript))
  /-- The instruction cannot be read. -/
  | unread {frame : Frame} {cause : FetchFault} {next : Nat} (running : m.status = .running)
    (frames : m.frames = frame :: m.frames.tail)
    (fetched : Instruction.fetch frame.script frame.position = .error cause next) :
    Step host m ((m.moveTo next).stop (.machine (.fetch cause)))
  /-- The instruction has no price. -/
  | unpriced {frame : Frame} {i : Instruction} {next : Nat} {fault : Fault}
    (reads : Reads m frame i next) (price : host.due frame i (m.moveTo next) = .error fault) :
    Step host m ((m.moveTo next).stop fault)
  /-- The limit does not allow the instruction. -/
  | overdrawn {frame : Frame} {i : Instruction} {next : Nat} {amount : Int}
    (reads : Reads m frame i next) (price : host.due frame i (m.moveTo next) = .ok (some amount))
    (exceeded : host.gasLimit.isExceededBy (m.gas + amount) = true) :
    Step host m ((m.ready next (some amount)).stop
      (.machine (.gasLimit (m.gas + amount) host.gasLimit)))
  /-- The instruction fails. -/
  | failed {frame : Frame} {i : Instruction} {next : Nat} {due : Option Int} {fault : Fault}
    {m' : Machine σ} (pays : Pays host m frame i next due)
    (does : Exec.execute host frame i (m.ready next due) = .error fault m') :
    Step host m (m'.stop fault)
  /-- The instruction leaves too many items. -/
  | overfull {frame : Frame} {i : Instruction} {next : Nat} {due : Option Int}
    {m' : Machine σ} (pays : Pays host m frame i next due)
    (does : Exec.execute host frame i (m.ready next due) = .ok () m')
    (depth : maxStackItems < m'.stack.depth + m'.alt.depth) :
    Step host m (m'.stop (.machine .stackLimit))
  /-- The instruction is done. -/
  | done {frame : Frame} {i : Instruction} {next : Nat} {due : Option Int}
    {m' : Machine σ} (pays : Pays host m frame i next due)
    (does : Exec.execute host frame i (m.ready next due) = .ok () m')
    (depth : m'.stack.depth + m'.alt.depth ≤ maxStackItems) :
    Step host m m'

end Machine

namespace Exec

variable (host : Host σ) (frame : Frame) (i : Instruction) (m : Machine σ)

theorem fetch_eq : fetch frame m =
    match Instruction.fetch frame.script frame.position with
    | .ok i next => .ok i (m.moveTo next)
    | .error cause next => .error (.machine (.fetch cause)) (m.moveTo next) := by
  rw [fetch]
  cases Instruction.fetch frame.script frame.position with
  | ok i next => rfl
  | error cause next => rfl

theorem charge_eq : charge host frame i m =
    match host.due frame i m with
    | .error fault => .error fault m
    | .ok none => .ok () m
    | .ok (some amount) =>
      if host.gasLimit.isExceededBy (m.gas + amount) then
        .error (.machine (.gasLimit (m.gas + amount) host.gasLimit)) (m.pay amount)
      else .ok () (m.pay amount) := by
  rw [charge, Host.due]
  cases host.price with
  | none => rfl
  | some price =>
    by_cases inside : frame.position < frame.script.size
    · dsimp only
      rw [if_pos inside, if_pos inside, get_bind]
      cases price i m with
      | error fault => rfl
      | ok amount =>
        show (if host.gasLimit.isExceededBy (m.gas + amount) then
            fail (.gasLimit (m.gas + amount) host.gasLimit)
          else pure () : Exec σ Unit) (m.pay amount) = _
        dsimp only [Functor.map, Except.map]
        split
        · rfl
        · rfl
    · dsimp only
      rw [if_neg inside, if_neg inside]
      rfl

variable {host frame i m}

theorem charge_unpriced {fault : Fault} (h : host.due frame i m = .error fault) :
    charge host frame i m = .error fault m := by
  rw [charge_eq, h]

theorem charge_overdrawn {amount : Int} (h : host.due frame i m = .ok (some amount))
    (exceeded : host.gasLimit.isExceededBy (m.gas + amount) = true) :
    charge host frame i m =
      .error (.machine (.gasLimit (m.gas + amount) host.gasLimit)) (m.pay amount) := by
  rw [charge_eq, h]
  exact if_pos exceeded

theorem charge_paid {due : Option Int} (h : host.due frame i m = .ok due)
    (within : ∀ amount, due = some amount → host.gasLimit.isExceededBy (m.gas + amount) = false) :
    charge host frame i m = .ok () (m.pay (due.getD 0)) := by
  rw [charge_eq, h]
  cases due with
  | none => simp [Machine.pay]
  | some amount => simp [within amount rfl]

variable (host frame m)

/-- The whole of an instruction, part by part. -/
theorem instruction_eq : instruction host frame m =
    match fetch frame m with
    | .error fault m' => .error fault m'
    | .ok i m₁ =>
      match charge host frame i m₁ with
      | .error fault m' => .error fault m'
      | .ok _ m₂ =>
        match execute host frame i m₂ with
        | .error fault m' => .error fault m'
        | .ok _ m' =>
          if m'.stack.depth + m'.alt.depth > Machine.maxStackItems then
            .error (.machine .stackLimit) m'
          else .ok () m' := by
  rw [instruction, bind_eq]
  cases fetch frame m with
  | error fault m' => rfl
  | ok i m₁ =>
    dsimp only
    rw [bind_eq]
    cases charge host frame i m₁ with
    | error fault m' => rfl
    | ok u m₂ =>
      dsimp only
      rw [bind_eq]
      cases execute host frame i m₂ with
      | error fault m' => rfl
      | ok u m' =>
        dsimp only
        rw [get_bind]
        split <;> rfl

end Exec

namespace Machine

variable {host : Host σ} {m m' : Machine σ}

/-! ## Steps are what the list says -/

theorem step_of_running {frame : Frame} (running : m.status = .running)
    (frames : m.frames = frame :: m.frames.tail) :
    m.step host =
      match Exec.instruction host frame m with
      | .ok _ m => m
      | .error fault m => m.stop fault := by
  rewrite [step, running, frames]
  rfl

theorem step_of_not_running (h : m.status.isRunning = false) : m.step host = m := by
  rw [step]
  split
  · next running _ => rw [running] at h; cases h
  · next running _ => rw [running] at h; cases h
  · rfl

/-- A step that reads an instruction. -/
theorem Reads.step_eq {frame : Frame} {i : Instruction} {next : Nat}
    (reads : Reads m frame i next) :
    m.step host =
      match Exec.charge host frame i (m.moveTo next) with
      | .error fault m' => m'.stop fault
      | .ok _ m₂ =>
        match Exec.execute host frame i m₂ with
        | .error fault m' => m'.stop fault
        | .ok _ m' =>
          if m'.stack.depth + m'.alt.depth > maxStackItems then
            m'.stop (.machine .stackLimit)
          else m' := by
  rw [step_of_running reads.running reads.frames, Exec.instruction_eq, Exec.fetch_eq,
    reads.fetched]
  dsimp only
  cases Exec.charge host frame i (m.moveTo next) with
  | error fault m' => rfl
  | ok u m₂ =>
    dsimp only
    cases Exec.execute host frame i m₂ with
    | error fault m' => rfl
    | ok u m' =>
      dsimp only
      by_cases depth : m'.stack.depth + m'.alt.depth > maxStackItems
      · rw [if_pos depth, if_pos depth]
      · rw [if_neg depth, if_neg depth]

theorem Pays.charge_eq {frame : Frame} {i : Instruction} {next : Nat} {due : Option Int}
    (pays : Pays host m frame i next due) :
    Exec.charge host frame i (m.moveTo next) = .ok () (m.ready next due) :=
  Exec.charge_paid pays.price (by simpa using pays.within)

/-- A step that pays does the instruction. -/
theorem Pays.step_eq {frame : Frame} {i : Instruction} {next : Nat} {due : Option Int}
    (pays : Pays host m frame i next due) :
    m.step host =
      match Exec.execute host frame i (m.ready next due) with
      | .error fault m' => m'.stop fault
      | .ok _ m' =>
        if m'.stack.depth + m'.alt.depth > maxStackItems then m'.stop (.machine .stackLimit)
        else m' := by
  rw [pays.toReads.step_eq, pays.charge_eq]

/-- The list determines the step. -/
theorem Step.eq (h : Step host m m') : m.step host = m' := by
  cases h with
  | still stopped => exact step_of_not_running stopped
  | empty running frames => rw [step, running, frames]
  | unread running frames fetched =>
    rw [step_of_running running frames, Exec.instruction_eq, Exec.fetch_eq, fetched]
  | unpriced reads price => rw [reads.step_eq, Exec.charge_unpriced price]
  | overdrawn reads price exceeded =>
    rw [reads.step_eq, Exec.charge_overdrawn price (by simpa using exceeded), gas_moveTo]
    rfl
  | failed pays does => rw [pays.step_eq, does]
  | overfull pays does depth =>
    rw [pays.step_eq, does]
    exact if_pos depth
  | done pays does depth =>
    rw [pays.step_eq, does]
    exact if_neg (Nat.not_lt.2 depth)

/-- An instruction that is read goes one of the ways behind the reading. -/
theorem Reads.exists_step {frame : Frame} {i : Instruction} {next : Nat}
    (reads : Reads m frame i next) : ∃ m', Step host m m' := by
  cases price : host.due frame i (m.moveTo next) with
  | error fault => exact ⟨_, .unpriced reads price⟩
  | ok due =>
    by_cases exceeded : ∃ amount, due = some amount ∧
        host.gasLimit.isExceededBy (m.gas + amount) = true
    · obtain ⟨amount, rfl, exceeded⟩ := exceeded
      exact ⟨_, .overdrawn reads price exceeded⟩
    · have pays : Pays host m frame i next due := ⟨reads, price, fun amount hdue =>
        Bool.eq_false_iff.2 fun h => exceeded ⟨amount, hdue, h⟩⟩
      cases does : Exec.execute host frame i (m.ready next due) with
      | error fault m' => exact ⟨_, .failed pays does⟩
      | ok u m' =>
        by_cases depth : maxStackItems < m'.stack.depth + m'.alt.depth
        · exact ⟨_, .overfull pays does depth⟩
        · exact ⟨_, .done pays does (Nat.le_of_not_lt depth)⟩

theorem exists_step (host : Host σ) (m : Machine σ) : ∃ m', Step host m m' := by
  cases running : m.status with
  | running =>
    cases frames : m.frames with
    | nil => exact ⟨_, .empty running frames⟩
    | cons frame rest =>
      have frames' : m.frames = frame :: m.frames.tail := by rw [frames, List.tail_cons]
      cases fetched : Instruction.fetch frame.script frame.position with
      | error cause next => exact ⟨_, .unread running frames' fetched⟩
      | ok i next => exact Reads.exists_step ⟨running, frames', fetched⟩
  | halted => exact ⟨_, .still (by rw [running]; rfl)⟩
  | faulted fault => exact ⟨_, .still (by rw [running]; rfl)⟩

/-- **Every step goes one of the listed ways.** -/
theorem step_spec (host : Host σ) (m : Machine σ) : Step host m (m.step host) := by
  obtain ⟨m', h⟩ := exists_step host m
  rwa [h.eq]

/-- What is read is determined. -/
theorem Reads.unique {frame frame' : Frame} {i i' : Instruction} {next next' : Nat}
    (reads : Reads m frame i next) (reads' : Reads m frame' i' next') :
    frame = frame' ∧ i = i' ∧ next = next' := by
  have frames := reads.frames.symm.trans reads'.frames
  rw [List.cons.injEq] at frames
  obtain ⟨rfl, -⟩ := frames
  have fetched := reads.fetched.symm.trans reads'.fetched
  cases fetched
  exact ⟨rfl, rfl, rfl⟩

/-- A machine that pays for its instruction does it. -/
theorem Step.of_pays {frame : Frame} {i : Instruction} {next : Nat} {due : Option Int}
    (step : Step host m m') (pays : Pays host m frame i next due) :
    (∃ fault m₁, Exec.execute host frame i (m.ready next due) = .error fault m₁ ∧
      m' = m₁.stop fault) ∨
    ∃ m₁, Exec.execute host frame i (m.ready next due) = .ok () m₁ ∧
      (m' = m₁ ∨ m' = m₁.stop (.machine .stackLimit)) := by
  have outcome := step.eq
  rw [pays.step_eq] at outcome
  cases does : Exec.execute host frame i (m.ready next due) with
  | error fault m₁ =>
    rw [does] at outcome
    exact .inl ⟨fault, m₁, rfl, outcome.symm⟩
  | ok u m₁ =>
    rw [does] at outcome
    dsimp only at outcome
    split at outcome
    · exact .inr ⟨m₁, rfl, .inr outcome.symm⟩
    · exact .inr ⟨m₁, rfl, .inl outcome.symm⟩

/-- A machine that does not pay for an instruction changes neither the world nor the heap. -/
theorem Step.same_of_not_pays (step : Step host m m')
    (h : ∀ frame i next due, ¬ Pays host m frame i next due) :
    m'.world = m.world ∧ m'.heap = m.heap := by
  cases step with
  | still | empty => exact ⟨rfl, rfl⟩
  | unread | unpriced => exact ⟨m.world_moveTo _, m.heap_moveTo _⟩
  | @overdrawn frame i next amount =>
    exact ⟨m.world_ready next (some amount), m.heap_ready next (some amount)⟩
  | failed pays | overfull pays | done pays => exact absurd pays (h _ _ _ _)

/-! ## Runs -/

variable (host)

@[simp] theorem runFor_zero (m : Machine σ) : m.runFor host 0 = m := rfl

theorem runFor_of_not_running (h : m.status.isRunning = false) (n : Nat) :
    m.runFor host n = m := by
  cases n with
  | zero => rfl
  | succ n => rw [runFor, h]; rfl

theorem runFor_step (m : Machine σ) (n : Nat) :
    m.runFor host (n + 1) = (m.step host).runFor host n := by
  cases h : m.status.isRunning with
  | true => rw [runFor, if_pos h]
  | false => rw [runFor_of_not_running host h, step_of_not_running h,
      runFor_of_not_running host h]

/-- A run that goes on for one more step. -/
theorem runFor_succ (m : Machine σ) (n : Nat) :
    m.runFor host (n + 1) = (m.runFor host n).step host := by
  induction n generalizing m with
  | zero => exact runFor_step host m 0
  | succ n ih => rw [runFor_step, ih, ← runFor_step]

theorem step_runFor (m : Machine σ) (n : Nat) :
    Step host (m.runFor host n) (m.runFor host (n + 1)) := by
  rw [runFor_succ]
  exact step_spec host _

theorem runFor_add (m : Machine σ) (n k : Nat) :
    m.runFor host (n + k) = (m.runFor host n).runFor host k := by
  induction k with
  | zero => rfl
  | succ k ih => rw [← Nat.add_assoc, runFor_succ, runFor_succ, ih]

/-- What has stopped stays as it is. -/
theorem runFor_of_stopped {m : Machine σ} {n k : Nat} (hle : n ≤ k)
    (h : (m.runFor host n).status.isRunning = false) : m.runFor host k = m.runFor host n := by
  obtain ⟨d, rfl⟩ := Nat.exists_eq_add_of_le hle
  rw [runFor_add, runFor_of_not_running host h]

/-- What holds at the start and is kept by every step holds in every state of the run. -/
theorem runFor_invariant {P : Machine σ → Prop} (step : ∀ m, P m → P (m.step host)) (start : P m)
    (n : Nat) : P (m.runFor host n) := by
  induction n with
  | zero => exact start
  | succ n ih => rw [runFor_succ]; exact step _ ih

end Machine

end DryRun
