import DryRun.Proofs.Machine.Flow
import DryRun.Proofs.Machine.Price

/-!
# Why a metered run ends

Many instructions cost nothing, so gas alone does not bound a run.  What a free instruction uses up
is script: `Machine.unread` counts, over all frames, the bytes that are still to be read and one
for the return behind them.  Pushes and free system calls move the running frame forward, and the
implied return drops it.  All that can set the count up again, jumps and calls, costs a base unit
at least.  `Step.progress` says so of a single step, and `exists_stopped` that a run under a limit
therefore ends.

All of this is about a host that is `Host.Metered`: it prices instructions by a registry of system
calls, whichever it is.
-/

set_option autoImplicit false

namespace DryRun

variable {σ η : Type}

/-- A calm host that prices instructions by a registry. -/
structure Host.Metered (host : Host σ) (registry : Registry η) : Prop where
  /-- It does not reach into the order of execution. -/
  calm : host.Calm
  /-- Its prices are those of the registry. -/
  price : host.price = some (Price.amount registry)

/-- How much of a frame is still to be done: the bytes behind its position and the return behind
those. -/
def Frame.unread (frame : Frame) : Nat := frame.script.size - frame.position + 1

/-- What is unread in several frames. -/
def Frame.totalUnread : List Frame → Nat
  | [] => 0
  | frame :: rest => frame.unread + totalUnread rest

/-- How much of all frames is still to be done. -/
def Machine.unread (m : Machine σ) : Nat := Frame.totalUnread m.frames

open Machine (SameControl SameGas Pays Step)

/-! ## What is charged -/

section

variable {host : Host σ} {registry : Registry η} {frame : Frame} {i : Instruction}
  {m m' : Machine σ}

theorem Host.due_eq_none (h : frame.script.size ≤ frame.position) :
    host.due frame i m = .ok none := by
  rw [due]
  cases host.price with
  | none => rfl
  | some price => exact if_neg (Nat.not_lt.2 h)

/-- Inside a script every instruction has a price. -/
theorem Host.due_eq_some (priced : host.price = some (Price.amount registry))
    (inside : frame.position < frame.script.size) {due : Option Int}
    (h : host.due frame i m = .ok due) :
    ∃ u, Price.units registry i m = .ok u ∧ due = some (u * Price.ratio) := by
  rw [Host.due, priced] at h
  dsimp only at h
  rw [if_pos inside] at h
  cases price : Price.amount registry i m with
  | error fault => rw [price] at h; cases h
  | ok amount =>
    rw [price] at h
    cases h
    obtain ⟨u, hu, rfl⟩ := Price.amount_eq_ok price
    exact ⟨u, hu, rfl⟩

/-- No charge is negative. -/
theorem Host.Metered.due_nonneg (metered : host.Metered registry) {due : Option Int}
    (h : host.due frame i m = .ok due) : 0 ≤ due.getD 0 := by
  by_cases inside : frame.position < frame.script.size
  · obtain ⟨u, hu, rfl⟩ := Host.due_eq_some metered.price inside h
    exact Int.mul_nonneg (Price.units_nonneg hu) (Int.le_of_lt Price.ratio_pos)
  · rw [Host.due_eq_none (Nat.le_of_not_lt inside)] at h
    cases h
    exact Int.le_refl 0

/-- Doing an instruction costs nothing beyond its price. -/
theorem Host.Calm.keeps_gas (calm : host.Calm) : Exec.Keeps SameGas (Exec.execute host frame i) :=
  Exec.keeps_execute (fun name => (calm.contract name).mono fun control => control.gas)
    fun _ _ found => (calm.syscall _ _ found).mono fun control => control.gas

/-! ## Less and less is unread -/

theorem Frame.unread_pos (frame : Frame) : 0 < frame.unread := Nat.succ_pos _

theorem Frame.unread_lt {next : Nat} (h : frame.position < next) (le : next ≤ frame.script.size) :
    { frame with position := next }.unread < frame.unread := by
  show frame.script.size - next + 1 < frame.script.size - frame.position + 1
  omega

theorem Machine.unread_cons {rest : List Frame} (h : m.frames = frame :: rest) :
    m.unread = frame.unread + Frame.totalUnread rest := by
  rw [unread, h, Frame.totalUnread]

end

namespace Machine

variable {host : Host σ} {registry : Registry η} {m m' : Machine σ}

/-- **What a step uses up.**  Unless it stops, it either costs a base unit, within the limit, or it
costs nothing and leaves less to be read. -/
theorem Step.progress (metered : host.Metered registry) (limited : 0 < host.gasLimit.amount)
    (h : Step host m m') :
    m'.status.isRunning = false ∨
      (m.gas + Price.ratio ≤ m'.gas ∧ m'.gas ≤ host.gasLimit.amount) ∨
      (m'.gas = m.gas ∧ m'.unread < m.unread) := by
  cases h with
  | still stopped => exact .inl stopped
  | empty | unread | unpriced | overdrawn | failed | overfull => exact .inl rfl
  | @done frame i next due _ pays does depth =>
    have gas : m'.gas = m.gas + due.getD 0 := by
      rw [← gas_ready m next due]
      exact metered.calm.keeps_gas.ok does
    have before := unread_cons pays.frames
    have ready : (m.ready next due).frames = { frame with position := next } :: m.frames.tail :=
      pays.frames_moveTo
    rcases Instruction.fetch_ok pays.fetched with ⟨behind, rfl, rfl⟩ | ⟨forth, inside, -⟩
    · -- The implied return has no price and drops the frame.
      have unpriced := pays.price
      rw [Host.due_eq_none behind] at unpriced
      cases unpriced
      rw [Exec.execute_impliedReturn] at does
      refine .inr (.inr ⟨by simpa using gas, ?_⟩)
      rw [Machine.unread, (Exec.wp_ret.ok does).1, ready, List.tail_cons, before]
      exact Nat.lt_add_of_pos_left frame.unread_pos
    · -- Every other instruction has a price.  If it is nothing the running frame moves forward.
      have start : frame.position < frame.script.size := Nat.lt_of_lt_of_le forth inside
      obtain ⟨u, price, rfl⟩ := Host.due_eq_some metered.price start pays.price
      have within : m.gas + u * Price.ratio ≤ host.gasLimit.amount := by
        have := pays.within _ rfl
        rwa [← Bool.not_eq_true, GasLimit.isExceededBy_iff (by omega), Int.not_lt] at this
      rw [Option.getD_some] at gas
      by_cases costs : 0 < u
      · have : 1 * Price.ratio ≤ u * Price.ratio :=
          Int.mul_le_mul_of_nonneg_right costs (Int.le_of_lt Price.ratio_pos)
        exact .inr (.inl ⟨by omega, by omega⟩)
      · have free : u = 0 := Int.le_antisymm (Int.not_lt.1 costs) (Price.units_nonneg price)
        have control : SameControl (m.ready next (some (u * Price.ratio))) m' := by
          refine (Exec.keeps_execute_of_not_transfer ?_ fun _ => metered.calm.syscall _).ok does
          by_cases code : i.code ≤ 0x61
          · exact Opcode.isTransfer_of_le code
          · by_cases op : i.opcode = .flow .sysCall
            · rw [op]; rfl
            · exact absurd (Price.units_pos (UInt8.not_le.1 code) op price) costs
        refine .inr (.inr ⟨by rw [gas, free]; simp, ?_⟩)
        rw [unread_cons (control.frames.trans ready), before]
        exact Nat.add_lt_add_right (Frame.unread_lt forth inside) _

/-- **A run under a limit ends.** -/
theorem exists_stopped (metered : host.Metered registry) (limited : 0 < host.gasLimit.amount)
    (m : Machine σ) : ∃ n, (m.runFor host n).status.isRunning = false := by
  rcases (step_spec host m).progress metered limited with stopped | progress
  · exact ⟨1, by rw [runFor_step]; exact stopped⟩
  · obtain ⟨n, stopped⟩ := exists_stopped metered limited (m.step host)
    exact ⟨n + 1, by rwa [runFor_step]⟩
termination_by ((host.gasLimit.amount - m.gas).toNat, m.unread)
decreasing_by
  have ratio_pos := Price.ratio_pos
  rcases progress with ⟨costs, within⟩ | ⟨free, less⟩
  · exact Prod.Lex.left _ _ (by omega)
  · rw [free]
    exact Prod.Lex.right _ less

end Machine

end DryRun
