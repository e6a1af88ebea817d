import DryRun.Proofs.Machine.Order
import DryRun.Proofs.Syscall.Control

/-!
# Order of execution in a run

What `Machine.Passes` says of one step carries over to runs.  `Machine.orderly_runFor` is the
invariant.  `Machine.frames_resume` follows a call to its return: as long as the run is deeper than
the caller, no step gets at the caller, so the first state that is no deeper has the caller on top,
and it goes on behind its call.

`Host.RunsInOrder` puts these and the rest of what there is to say about the frames into statements
about the states of a run, and `runs_in_order` proves them for every script and node.
-/

set_option autoImplicit false

namespace DryRun

variable {σ : Type}

namespace Machine

variable {host : Host σ} {m : Machine σ}

/-! ## States -/

theorem passes_step (calm : host.Calm) (orderly : m.Orderly) : Passes host m (m.step host) :=
  (step_spec host m).passes calm orderly

/-- **Every state of a run** is orderly if the first one is. -/
theorem orderly_runFor (calm : host.Calm) (orderly : m.Orderly) (n : Nat) :
    (m.runFor host n).Orderly :=
  runFor_invariant host (P := Orderly) (fun _ h => (passes_step calm h).orderly h) orderly n

theorem passes_runFor (calm : host.Calm) (orderly : m.Orderly) (n : Nat) :
    Passes host (m.runFor host n) (m.runFor host (n + 1)) := by
  rw [runFor_succ]
  exact passes_step calm (orderly_runFor calm orderly n)

theorem orderly_load (script : Bytes) (dynamicInvoke : Bool) (world : σ) :
    (load script dynamicInvoke world).Orderly where
  room := by
    show 1 ≤ maxFrames
    decide
  halted := ⟨fun h => (by cases h), fun h => (by cases h)⟩
  positions _ frame mem := by
    rw [List.mem_singleton.1 mem]
    exact Nat.zero_le _
  items _ := Nat.zero_le _

/-! ## Calls and returns -/

/-- A call that does not fail puts a frame on top of its caller, which stands behind the call. -/
theorem Passes.frames_of_call (calm : host.Calm) {m' : Machine σ} (h : Passes host m m')
    {frame : Frame} {i : Instruction} {next : Nat} (reads : Reads m frame i next)
    (call : i.opcode = .flow .call ∨ i.opcode = .flow .appCall)
    (running : m'.status = .running) :
    ∃ callee, m'.frames = callee :: { frame with position := next } :: m.frames.tail := by
  cases h with
  | still stopped => rw [reads.running] at stopped; cases stopped
  | failed _ status => rw [running] at status; cases status
  | done reads' does =>
    obtain ⟨rfl, rfl, rfl⟩ := reads.unique reads'
    obtain ⟨callee, frames⟩ := (Exec.wp_call calm call).ok does
    exact ⟨callee, frames.trans (congrArg (callee :: ·) reads.frames_moveTo)⟩

/-- **While a run is deeper than a stack of callers**, none of its steps gets at them. -/
theorem suffix_runFor (calm : host.Calm) (orderly : m.Orderly) {callers : List Frame} {n k : Nat}
    (hle : n ≤ k) (start : callers <:+ (m.runFor host n).frames)
    (deeper : ∀ j, n ≤ j → j < k → callers.length < (m.runFor host j).frames.length) :
    callers <:+ (m.runFor host k).frames := by
  obtain ⟨d, rfl⟩ := Nat.exists_eq_add_of_le hle
  clear hle
  induction d with
  | zero => exact start
  | succ d ih =>
    have before := ih fun j hn hk => deeper j hn (Nat.lt_succ_of_lt hk)
    have deep := deeper (n + d) (Nat.le_add_right n d) (Nat.lt_succ_self _)
    refine List.IsSuffix.trans ?_ (passes_runFor calm orderly (n + d)).restacks.suffix
    refine List.suffix_of_suffix_length_le before (List.tail_suffix _) ?_
    rw [List.length_tail]
    omega

/-- **A return resumes the caller behind its call.** -/
theorem frames_resume (calm : host.Calm) (orderly : m.Orderly) {n k : Nat} {frame : Frame}
    {i : Instruction} {next : Nat} (reads : Reads (m.runFor host n) frame i next)
    (call : i.opcode = .flow .call ∨ i.opcode = .flow .appCall)
    (called : (m.runFor host (n + 1)).status = .running) (hlt : n < k)
    (deeper : ∀ j, n < j → j < k →
      (m.runFor host n).frames.length < (m.runFor host j).frames.length)
    (back : (m.runFor host k).frames.length ≤ (m.runFor host n).frames.length) :
    (m.runFor host k).status = .running ∧
      (m.runFor host k).frames =
        { frame with position := next } :: (m.runFor host n).frames.tail := by
  obtain ⟨callee, frames⟩ := (passes_runFor calm orderly n).frames_of_call calm reads call called
  have depth : (m.runFor host n).frames.length =
      ({ frame with position := next } :: (m.runFor host n).frames.tail).length := by
    rw [reads.frames]
    rfl
  rw [depth] at deeper back
  have suffix := suffix_runFor calm orderly hlt (frames ▸ List.suffix_cons callee _) deeper
  have resumed := (suffix.eq_of_length_le back).symm
  refine ⟨?_, resumed⟩
  obtain ⟨j, rfl⟩ := Nat.exists_eq_add_of_lt hlt
  rcases Nat.eq_zero_or_pos j with rfl | pos
  · exact called
  · have last := deeper (n + j) (Nat.lt_add_of_pos_right pos) (Nat.lt_succ_self _)
    have status := (passes_runFor calm orderly (n + j)).status_of_shrinks
      (Nat.lt_of_le_of_lt back last)
    rw [status, resumed]
    rfl

end Machine

/-! ## What there is to say about a run -/

/-- The runs of a host from `start` keep to the order of execution. -/
structure Host.RunsInOrder (host : Host σ) (start : Machine σ) : Prop where
  /-- While a run goes on there is a frame, and there are no more frames and items than there may
  be.  Every frame is inside its script or at its end. -/
  running : ∀ n, (start.runFor host n).status = .running →
    1 ≤ (start.runFor host n).frames.length ∧
    (start.runFor host n).frames.length ≤ Machine.maxFrames ∧
    (∀ frame ∈ (start.runFor host n).frames, frame.position ≤ frame.script.size) ∧
    (start.runFor host n).stack.depth + (start.runFor host n).alt.depth ≤ Machine.maxStackItems
  /-- A run has halted when the last frame has returned, and only then. -/
  halted : ∀ n, (start.runFor host n).status = .halted ↔ (start.runFor host n).frames = []
  /-- There are no more items than there may be when a run has halted. -/
  items : ∀ n, (start.runFor host n).status = .halted →
    (start.runFor host n).stack.depth + (start.runFor host n).alt.depth ≤ Machine.maxStackItems
  /-- A step changes the depth by one at most, and no step gets at the frames below the running
  one. -/
  step : ∀ n,
    (start.runFor host (n + 1)).frames.length ≤ (start.runFor host n).frames.length + 1 ∧
    (start.runFor host n).frames.length ≤ (start.runFor host (n + 1)).frames.length + 1 ∧
    (start.runFor host n).frames.tail <:+ (start.runFor host (n + 1)).frames
  /-- A call that succeeds puts a frame on top of its caller.  The first state that is no deeper
  than the caller was has the caller on top again, behind the operand of its call. -/
  resumes : ∀ n frame i next, Machine.Reads (start.runFor host n) frame i next →
    i.opcode = .flow .call ∨ i.opcode = .flow .appCall →
    (start.runFor host (n + 1)).status = .running →
    next = frame.position + 1 + i.operand.length ∧
    (∃ callee, (start.runFor host (n + 1)).frames =
      callee :: { frame with position := next } :: (start.runFor host n).frames.tail) ∧
    ∀ k, n < k →
      (∀ j, n < j → j < k →
        (start.runFor host n).frames.length < (start.runFor host j).frames.length) →
      (start.runFor host k).frames.length ≤ (start.runFor host n).frames.length →
      (start.runFor host k).status = .running ∧ (start.runFor host k).frames =
        { frame with position := next } :: (start.runFor host n).frames.tail
  /-- What has halted or failed stays as it is. -/
  stays : ∀ n, (start.runFor host n).status ≠ .running →
    (start.runFor host n).step host = start.runFor host n ∧
    ∀ k, n ≤ k → start.runFor host k = start.runFor host n

open Machine in
/-- The runs of a calm host from an orderly machine. -/
theorem Host.Calm.runsInOrder {host : Host σ} (calm : host.Calm) {start : Machine σ}
    (orderly : start.Orderly) : host.RunsInOrder start where
  running n running := by
    have state := orderly_runFor calm orderly n
    refine ⟨List.length_pos_iff.2 fun none => ?_, state.room, state.positions running,
      state.items (.inl running)⟩
    have halted := state.halted.2 none
    rw [running] at halted
    cases halted
  halted n := (orderly_runFor calm orderly n).halted
  items n halted := (orderly_runFor calm orderly n).items (.inr halted)
  step n := by
    have restacks := (passes_runFor calm orderly n).restacks
    exact ⟨restacks.grows, restacks.shrinks, restacks.suffix⟩
  resumes n frame i next reads call running :=
    ⟨Instruction.next_of_call reads.fetched call,
      (passes_runFor calm orderly n).frames_of_call calm reads call running,
      fun k hlt deeper back => frames_resume calm orderly reads call running hlt deeper back⟩
  stays n stopped := by
    have stopped : (start.runFor host n).status.isRunning = false := by
      cases status : (start.runFor host n).status with
      | running => exact absurd status stopped
      | halted | faulted => rfl
    exact ⟨step_of_not_running stopped, fun k hle => runFor_of_stopped host hle stopped⟩

/-- **Runs keep to the order of execution.**  Whatever the script, the node and the gas limit are,
the frames of a run are a stack of callers of bounded depth, no step gets below the running one, a
callee that returns resumes its caller behind the call, and what has stopped stays.  So it is if
contracts are looked up in a fixed collection in place of the run and the chain. -/
theorem runs_in_order (setting : Setting) (limit : GasLimit) (script : Bytes)
    (dynamicInvoke : Bool) (world : World) :
    (setting.host limit).RunsInOrder (.load script dynamicInvoke world) ∧
    ∀ callable : Bytes → Option Callee,
      (setting.hostWith limit fun name => pure (callable name)).RunsInOrder
        (.load script dynamicInvoke world) :=
  ⟨(setting.host_calm limit).runsInOrder (Machine.orderly_load script dynamicInvoke world),
    fun _ => (setting.hostWith_calm limit fun _ => Exec.keeps_pure _).runsInOrder
      (Machine.orderly_load script dynamicInvoke world)⟩

/-- A call to what stands behind it, which so runs twice: the positions of the frames in each
state. -/
example :
    let start : Machine Unit := .load [0x65, 0x03, 0x00, 0x51, 0x66] true ()
    (List.range 6).map (fun n => (start.runFor .bare n).frames.map (·.position)) =
      [[0], [3, 3], [4, 3], [3], [4], []] := by
  decide +kernel

end DryRun
