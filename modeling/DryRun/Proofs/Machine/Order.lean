import DryRun.Proofs.Machine.Flow

/-!
# Order of execution

The frames of a machine are a stack of callers.  A step gets at the running frame and at nothing
below it: `Step.restacks` says that all other frames stay, and that the depth changes by one at
most.  `Machine.Orderly` collects what is true of the frames and the stacks between two steps, and
`Step.orderly` says that a step keeps it.

Two things make this work at the moments when something goes wrong.  An instruction that fails
leaves the order of execution as it found it (`Exec.failsInPlace_execute`); a call in place of the
rest of a frame drops the frame first, but by then it can no longer fail.  And a return does not
touch the stacks, so the look at their size that follows cannot fail behind the last one.
-/

set_option autoImplicit false

namespace DryRun

variable {σ α β : Type}

open Machine (SameControl ItemBlind)

namespace Exec

variable {host : Host σ} {frame : Frame} {i : Instruction} {m : Machine σ}

/-! ## Failing -/

/-- If the computation fails, it leaves the order of execution as it found it. -/
def FailsInPlace (c : Exec σ α) (m : Machine σ) : Prop :=
  wp c (fun _ _ => True) (SameControl m) m

theorem Keeps.failsInPlace {c : Exec σ α} (hc : Keeps SameControl c) (m : Machine σ) :
    FailsInPlace c m :=
  (hc m).mono (fun _ _ _ => trivial) fun _ h => h

theorem Keeps.failsInPlace_bind {c : Exec σ α} {f : α → Exec σ β} (hc : Keeps SameControl c)
    (hf : ∀ a m₁, SameControl m m₁ → FailsInPlace (f a) m₁) : FailsInPlace (c >>= f) m :=
  wp_bind.2 <| (hc m).mono
    (fun a m₁ h => (hf a m₁ h).mono (fun _ _ _ => trivial) fun _ h' => ItemBlind.trans h h')
    fun _ h => h

theorem failsInPlace_enter (new : Frame) : FailsInPlace (enter new) m :=
  wp_enter new (fun _ => trivial) fun _ => ItemBlind.refl SameControl m

theorem failsInPlace_callContract (calm : host.Calm) (room : m.frames.length ≤ Machine.maxFrames)
    (tail : Bool) (operand : Bytes) : FailsInPlace (callContract host frame tail operand) m := by
  rw [callContract]
  refine (keeps_callTarget operand).failsInPlace_bind fun name m₁ h₁ => ?_
  refine (calm.contract name).failsInPlace_bind fun found m₂ h₂ => ?_
  cases found with
  | none => exact (keeps_fail _).failsInPlace _
  | some callee =>
    cases tail with
    | false => exact failsInPlace_enter _
    | true =>
      -- The frame that was dropped leaves room for the one that comes in its place.
      have below : ¬ m₂.frames.tail.length ≥ Machine.maxFrames := by
        have pos : 0 < Machine.maxFrames := by decide
        rw [h₂.frames, h₁.frames, List.length_tail]
        omega
      exact wp_bind.2 (wp_enter _ (fun _ => trivial) fun full => absurd full below)

theorem failsInPlace_flow (calm : host.Calm) (room : m.frames.length ≤ Machine.maxFrames)
    {op : FlowOp} (transfer : op.isTransfer = true) (operand : Bytes) :
    FailsInPlace (flow host frame operand op) m := by
  have goTo (position : Nat) (m : Machine σ) : FailsInPlace (goTo position) m := trivial
  cases op with
  | jump => exact (keeps_jumpTarget operand).failsInPlace_bind fun target m₁ _ => goTo target m₁
  | jumpIf | jumpIfNot =>
    refine (keeps_jumpTarget operand).failsInPlace_bind fun target _ _ => ?_
    refine keeps_popBool.failsInPlace_bind fun taken m₂ _ => ?_
    split
    · exact goTo target m₂
    · exact (keeps_pure ()).failsInPlace m₂
  | call => exact (keeps_jumpTarget operand).failsInPlace_bind fun _ _ _ => failsInPlace_enter _
  | ret => exact wp_ret.mono (fun _ _ _ => trivial) fun _ never => never.elim
  | appCall => exact failsInPlace_callContract calm room false operand
  | tailCall => exact failsInPlace_callContract calm room true operand
  | nop | sysCall | throw | throwIfNot => cases transfer

/-- **An instruction that fails** leaves the order of execution as it found it. -/
theorem failsInPlace_execute (calm : host.Calm) (room : m.frames.length ≤ Machine.maxFrames) :
    FailsInPlace (execute host frame i) m := by
  cases transfer : i.opcode.isTransfer with
  | false =>
    exact (keeps_execute_of_not_transfer transfer fun _ => calm.syscall _).failsInPlace m
  | true =>
    rw [execute]
    cases code : i.opcode with
    | flow op =>
      rw [code] at transfer
      exact failsInPlace_flow calm room transfer _
    | _ => rw [code] at transfer; cases transfer

/-! ## Calls -/

/-- **A call** puts a new frame on top of its caller. -/
theorem wp_call (calm : host.Calm)
    (call : i.opcode = .flow .call ∨ i.opcode = .flow .appCall) :
    wp (execute host frame i) (fun _ m' => ∃ callee, m'.frames = callee :: m.frames)
      (fun _ => True) m := by
  have enters (callee : Frame) {m₁ : Machine σ} (h : SameControl m m₁) :
      wp (enter callee) (fun _ m' => ∃ callee, m'.frames = callee :: m.frames) (fun _ => True)
        m₁ :=
    wp_enter callee (fun _ => ⟨callee, congrArg (callee :: ·) h.frames⟩) fun _ => trivial
  rw [execute]
  rcases call with code | code
  · rw [code]
    have target : Keeps SameControl (jumpTarget frame i.operand : Exec σ Nat) :=
      keeps_jumpTarget i.operand
    refine wp_bind.2 ((target m).mono ?_ fun _ _ => trivial)
    exact fun position m₁ h => enters _ h
  · rw [code]
    have target : Keeps SameControl (callTarget frame i.operand : Exec σ Bytes) :=
      keeps_callTarget i.operand
    refine wp_bind.2 ((target m).mono ?_ fun _ _ => trivial)
    intro name m₁ h₁
    refine wp_bind.2 ((calm.contract name m₁).mono ?_ fun _ _ => trivial)
    intro found m₂ h₂
    cases found with
    | none => exact trivial
    | some callee => exact enters _ (ItemBlind.trans h₁ h₂)

end Exec

namespace Machine

variable {host : Host σ} {m m' : Machine σ}

/-! ## Between two steps -/

/-- What is true of the frames and the stacks of a machine between two steps. -/
structure Orderly (m : Machine σ) : Prop where
  /-- There are no more frames than there may be. -/
  room : m.frames.length ≤ maxFrames
  /-- The run has ended when there is no frame left, and only then. -/
  halted : m.status = .halted ↔ m.frames = []
  /-- While it is running, every frame is inside its script or at its end. -/
  positions : m.status = .running → ∀ frame ∈ m.frames, frame.position ≤ frame.script.size
  /-- Unless it has failed, there are no more items on the stacks than there may be. -/
  items : m.status = .running ∨ m.status = .halted → m.stack.depth + m.alt.depth ≤ maxStackItems

/-- The frames below the running one stay, and at most one comes on top. -/
structure Restacks (m m' : Machine σ) : Prop where
  /-- What is below the running frame stays. -/
  suffix : m.frames.tail <:+ m'.frames
  /-- There is at most one frame more. -/
  grows : m'.frames.length ≤ m.frames.length + 1

/-- At most the running frame is dropped. -/
theorem Restacks.shrinks (h : Restacks m m') : m.frames.length ≤ m'.frames.length + 1 := by
  have := h.suffix.length_le
  rw [List.length_tail] at this
  omega

theorem restacks_of_tail (h : m'.frames.tail = m.frames.tail) : Restacks m m' where
  suffix := h ▸ List.tail_suffix m'.frames
  grows := by
    have := congrArg List.length h
    rw [List.length_tail, List.length_tail] at this
    omega

theorem tail_frames_moveTo (m : Machine σ) (next : Nat) :
    (m.moveTo next).frames.tail = m.frames.tail := by
  cases frames : m.frames with
  | nil => rw [moveTo, frames]; simp [frames]
  | cons frame rest => rw [frames_moveTo m next frames]; rfl

theorem length_frames_moveTo (m : Machine σ) (next : Nat) :
    (m.moveTo next).frames.length = m.frames.length := by
  cases frames : m.frames with
  | nil => rw [moveTo, frames]; simp [frames]
  | cons frame rest => rw [frames_moveTo m next frames]; rfl

theorem Restacks.of_ready {next : Nat} {due : Option Int} (h : Restacks (m.ready next due) m') :
    Restacks m m' where
  suffix := by
    have := h.suffix
    rwa [frames_ready, tail_frames_moveTo] at this
  grows := by
    have := h.grows
    rwa [frames_ready, length_frames_moveTo] at this

end Machine

namespace Exec

open Machine (Restacks restacks_of_tail)

variable {host : Host σ} {frame : Frame} {m m' : Machine σ}

theorem Turn.restacks (turn : Turn host frame m m') : Restacks m m' := by
  have push {new : Frame} (frames : m'.frames = new :: m.frames) : Restacks m m' :=
    ⟨frames ▸ (List.tail_suffix _).trans (List.suffix_cons _ _), Nat.le_of_eq (by rw [frames]; rfl)⟩
  cases turn with
  | stay frames => exact restacks_of_tail (congrArg List.tail frames)
  | jump inside frames => exact restacks_of_tail (by rw [frames, m.tail_frames_moveTo])
  | call inside room frames => exact push frames
  | ret frames => exact ⟨frames ▸ List.suffix_rfl, by rw [frames, List.length_tail]; omega⟩
  | enter found room frames => exact push frames
  | replace found room frames => exact restacks_of_tail (by rw [frames]; rfl)

/-- The run goes on while there are frames. -/
theorem Turn.status_eq (turn : Turn host frame m m') (running : m.status = .running)
    (frames : m.frames ≠ []) :
    m'.status = if m'.frames.isEmpty then .halted else .running := by
  cases turn with
  | stay same status => rw [status, same, running, if_neg (by simpa using frames)]
  | @jump target inside same status =>
    have : (m.moveTo target).frames ≠ [] := by
      rw [← List.length_pos_iff, m.length_frames_moveTo]
      exact List.length_pos_iff.2 frames
    rw [status, same, running, if_neg (by simpa using this)]
  | call inside room same status | enter found room same status
  | replace found room same status => rw [status, same, running]; rfl
  | ret same status => rw [status, same, running]

theorem Turn.room (turn : Turn host frame m m') (room : m.frames.length ≤ Machine.maxFrames) :
    m'.frames.length ≤ Machine.maxFrames := by
  cases turn with
  | stay frames => rwa [frames]
  | jump inside frames => rwa [frames, m.length_frames_moveTo]
  | call inside below frames | enter found below frames | replace found below frames =>
    rw [frames]
    exact below
  | ret frames =>
    rw [frames, List.length_tail]
    omega

/-- New frames start inside their scripts, and jumps lead into them. -/
theorem Turn.positions {next : Nat} {rest : List Frame} (turn : Turn host frame m m')
    (frames : m.frames = { frame with position := next } :: rest)
    (inside : ∀ f ∈ m.frames, f.position ≤ f.script.size) :
    ∀ f ∈ m'.frames, f.position ≤ f.script.size := by
  have below : ∀ f ∈ rest, f.position ≤ f.script.size := fun f mem =>
    inside f (frames ▸ List.mem_cons_of_mem _ mem)
  cases turn with
  | stay same => rwa [same]
  | @jump target le same =>
    rw [same, m.frames_moveTo target frames, List.forall_mem_cons]
    exact ⟨le, below⟩
  | call le room same =>
    rw [same, List.forall_mem_cons]
    exact ⟨le, inside⟩
  | ret same =>
    rw [same, frames]
    exact below
  | enter found room same =>
    rw [same, List.forall_mem_cons]
    exact ⟨Nat.zero_le _, inside⟩
  | replace found room same =>
    rw [same, frames, List.forall_mem_cons]
    exact ⟨Nat.zero_le _, below⟩

/-- Where a frame has gone, the stacks are as before. -/
theorem Turn.deep (turn : Turn host frame m m') :
    m.frames.length ≤ m'.frames.length ∨ (m'.stack = m.stack ∧ m'.alt = m.alt) := by
  cases turn with
  | stay frames => exact .inl (Nat.le_of_eq (by rw [frames]))
  | jump inside frames => exact .inl (Nat.le_of_eq (by rw [frames, m.length_frames_moveTo]))
  | call inside room frames | enter found room frames =>
    exact .inl (by rw [frames]; exact Nat.le_succ _)
  | ret frames status stack alt => exact .inr ⟨stack, alt⟩
  | replace found room frames =>
    refine .inl ?_
    rw [frames, List.length_cons, List.length_tail]
    omega

end Exec

namespace Machine

variable {host : Host σ} {m m' : Machine σ}

/-! ## Steps -/

/-- What becomes of the frames in a step. -/
inductive Passes (host : Host σ) (m : Machine σ) : Machine σ → Prop where
  /-- The machine has stopped before. -/
  | still (stopped : m.status.isRunning = false) : Passes host m m
  /-- The step fails.  No frame is gone. -/
  | failed {m' : Machine σ} {fault : Fault} (running : m.status = .running)
    (status : m'.status = .faulted fault) (restacks : Restacks m m')
    (deep : m.frames.length ≤ m'.frames.length) (room : m'.frames.length ≤ maxFrames) :
    Passes host m m'
  /-- The instruction that the machine reads is done. -/
  | done {frame : Frame} {i : Instruction} {next : Nat} {due : Option Int} {m' : Machine σ}
    (reads : Reads m frame i next)
    (does : Exec.execute host frame i (m.ready next due) = .ok () m')
    (turn : Exec.Turn host frame (m.ready next due) m')
    (depth : m'.stack.depth + m'.alt.depth ≤ maxStackItems) : Passes host m m'

theorem Step.passes (calm : host.Calm) (orderly : m.Orderly) (h : Step host m m') :
    Passes host m m' := by
  -- Reading and paying move nothing but the position of the running frame.
  have failed {next : Nat} {m₁ : Machine σ} {fault : Fault} (running : m.status = .running)
      (status : m₁.status = .faulted fault) (frames : m₁.frames = (m.moveTo next).frames) :
      Passes host m m₁ := by
    have length : m₁.frames.length = m.frames.length := by rw [frames, length_frames_moveTo]
    refine .failed running status (restacks_of_tail ?_) (Nat.le_of_eq length.symm) ?_
    · rw [frames, tail_frames_moveTo]
    · rw [length]
      exact orderly.room
  have ready (next : Nat) (due : Option Int) : (m.ready next due).frames.length ≤ maxFrames := by
    rw [frames_ready, length_frames_moveTo]
    exact orderly.room
  cases h with
  | still stopped => exact .still stopped
  | empty running frames =>
    have halted := orderly.halted.2 frames
    rw [running] at halted
    cases halted
  | unread running => exact failed running rfl rfl
  | unpriced reads | overdrawn reads => exact failed reads.running rfl rfl
  | @failed frame i next due fault m₁ pays does =>
    have same : SameControl _ m₁ :=
      (Exec.failsInPlace_execute calm (ready next due)).error does
    exact failed pays.running rfl same.frames
  | @overfull frame i next due m₁ pays does depth =>
    have turn := (Exec.turn_execute calm).ok does
    have restacks : Restacks m m₁ := turn.restacks.of_ready
    refine .failed pays.running rfl ⟨restacks.suffix, restacks.grows⟩ ?_
      (turn.room (ready next due))
    rcases turn.deep with deep | ⟨stack, alt⟩
    · rwa [frames_ready, length_frames_moveTo] at deep
    · -- Nothing has come on the stacks.
      rw [stack, alt, stack_ready, alt_ready] at depth
      exact absurd (orderly.items (.inl pays.running)) (Nat.not_le.2 depth)
  | done pays does depth => exact .done pays.toReads does ((Exec.turn_execute calm).ok does) depth

/-- **A step** leaves the frames below the running one, and at most one comes on top. -/
theorem Passes.restacks (h : Passes host m m') : Restacks m m' := by
  cases h with
  | still => exact restacks_of_tail rfl
  | failed running status restacks => exact restacks
  | done reads does turn => exact turn.restacks.of_ready

theorem Reads.status_of_turn {frame : Frame} {i : Instruction} {next : Nat} {due : Option Int}
    (reads : Reads m frame i next) (turn : Exec.Turn host frame (m.ready next due) m') :
    m'.status = if m'.frames.isEmpty then .halted else .running :=
  turn.status_eq ((status_ready m next due).trans reads.running)
    (by rw [frames_ready, reads.frames_moveTo]; exact List.cons_ne_nil _ _)

/-- A frame is only dropped by an instruction that is done. -/
theorem Passes.status_of_shrinks (h : Passes host m m')
    (less : m'.frames.length < m.frames.length) :
    m'.status = if m'.frames.isEmpty then .halted else .running := by
  cases h with
  | still => exact absurd less (Nat.lt_irrefl _)
  | failed running status restacks deep => exact absurd less (Nat.not_lt.2 deep)
  | done reads does turn => exact reads.status_of_turn turn

/-- **A step** keeps what is true between two steps. -/
theorem Passes.orderly (h : Passes host m m') (orderly : m.Orderly) : m'.Orderly := by
  cases h with
  | still => exact orderly
  | failed running status restacks deep room =>
    have frames : m'.frames ≠ [] := by
      intro none
      rw [none, List.length_nil, Nat.le_zero, List.length_eq_zero_iff] at deep
      have halted := orderly.halted.2 deep
      rw [running] at halted
      cases halted
    refine ⟨room, ?_, ?_, ?_⟩
    · rw [status]
      exact ⟨fun h => (by cases h), fun h => absurd h frames⟩
    · rw [status]
      exact fun h => (by cases h)
    · rw [status]
      exact fun h => (by rcases h with h | h <;> cases h)
  | @done frame i next due m' reads does turn depth =>
    have before : (m.ready next due).frames = { frame with position := next } :: m.frames.tail :=
      reads.frames_moveTo
    refine ⟨turn.room ?_, ?_, fun _ => turn.positions before ?_, fun _ => depth⟩
    · rw [frames_ready, length_frames_moveTo]
      exact orderly.room
    · rw [reads.status_of_turn turn, ← List.isEmpty_iff]
      split
      · next none => exact ⟨fun _ => none, fun _ => rfl⟩
      · next some => exact ⟨fun h => (by cases h), fun h => absurd h some⟩
    · have positions := orderly.positions reads.running
      rw [reads.frames, List.forall_mem_cons] at positions
      rw [before, List.forall_mem_cons]
      refine ⟨?_, positions.2⟩
      rcases Instruction.fetch_ok reads.fetched with ⟨-, -, same⟩ | ⟨-, inside, -⟩
      · exact same ▸ positions.1
      · exact inside

end Machine

end DryRun
