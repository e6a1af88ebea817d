import DryRun.Proofs.Syscall.Control

/-!
# The system call of a step

In a step a machine makes at most one system call.  `Machine.call?` tells which one, and with which
machine the call begins, which is the one that has read and paid for the instruction.  So a step is
what its call does (`Machine.Step.of_call?`), and one that makes no call does little: it keeps every
relation that looks at the world and the objects only (`Machine.Step.keeps_of_call?_eq_none`).
Together they give the rule for relations that all system calls keep, `Machine.Step.keeps`.
-/

set_option autoImplicit false

namespace DryRun

open Machine (Outward Pays Reads SameControl Step)

variable {setting : Setting} {limit : GasLimit} {m m' m₁ : Machine World} {call : Syscall}

/-! ## The running script -/

namespace Machine

/-- The hash of the running script. -/
def executing (m : Machine World) : Bytes := (m.current?.map Frame.scriptHash).getD []

/-- A frame of a contract is running. -/
def Executes (m : Machine World) (scriptHash : Bytes) : Prop :=
  m.status = .running ∧ ∃ frame rest, m.frames = frame :: rest ∧ frame.scriptHash = scriptHash

theorem SameControl.executing (h : SameControl m m') : m'.executing = m.executing := by
  rw [Machine.executing, Machine.executing, current?, current?, h.frames]

section

variable {frame : Frame} {i : Instruction} {next : Nat} {due : Option Int}

theorem Reads.executes (reads : Reads m frame i next) : m.Executes frame.scriptHash :=
  ⟨reads.running, frame, m.frames.tail, reads.frames, rfl⟩

theorem Reads.executing_eq (reads : Reads m frame i next) : m.executing = frame.scriptHash := by
  rw [Machine.executing, current?, reads.frames]
  rfl

theorem executing_ready : (m.ready next due).executing = m.executing := by
  rw [executing, executing, current?, current?, frames_ready]
  cases frames : m.frames with
  | nil => rw [moveTo, frames]; dsimp only; rw [frames]
  | cons frame rest => rw [frames_moveTo m next frames]; rfl

end

end Machine

theorem Exec.wp_executing {α : Type} {f : Bytes → Exec World α} {Q : α → Machine World → Prop}
    {E : Machine World → Prop} : wp (executing >>= f) Q E m ↔ wp (f m.executing) Q E m :=
  wp_bind

/-! ## Which call is made -/

namespace Machine

/-- The system call that is made in the next step, and the machine that it begins with. -/
def call? (setting : Setting) (limit : GasLimit) (m : Machine World) :
    Option (Syscall × Machine World) :=
  match m.status, m.frames with
  | .running, frame :: _ =>
    match Exec.fetch frame m with
    | .error _ _ => none
    | .ok i m₁ =>
      match Exec.charge (setting.host limit) frame i m₁ with
      | .error _ _ => none
      | .ok _ m₂ =>
        match i.opcode with
        | .flow .sysCall =>
          (Syscall.registry.find? (SyscallId.ofOperand i.operand)).map fun entry =>
            (entry.handler, m₂)
        | _ => none
  | _, _ => none

/-- A machine that begins a system call is the one before but for the position in the script and
the gas, and its script is running. -/
structure Begins (m m₁ : Machine World) : Prop where
  /-- The evaluation stack. -/
  stack : m₁.stack = m.stack
  /-- The alternative stack. -/
  alt : m₁.alt = m.alt
  /-- The heap. -/
  heap : m₁.heap = m.heap
  /-- The world. -/
  world : m₁.world = m.world
  /-- The running script. -/
  executing : m₁.executing = m.executing
  /-- It is running. -/
  executes : m.Executes m.executing

section

variable {frame : Frame} {i : Instruction} {next : Nat} {due : Option Int}

theorem Pays.call?_eq (pays : Pays (setting.host limit) m frame i next due) :
    m.call? setting limit =
      match i.opcode with
      | .flow .sysCall =>
        (Syscall.registry.find? (SyscallId.ofOperand i.operand)).map fun entry =>
          (entry.handler, m.ready next due)
      | _ => none := by
  rw [call?, pays.running, pays.frames]
  dsimp only
  rw [Exec.fetch_eq, pays.fetched]
  dsimp only
  rw [pays.charge_eq]

/-- What is charged has been paid. -/
theorem Reads.pays_of_charge {host : Host World} {u : Unit} (reads : Reads m frame i next)
    (charged : Exec.charge host frame i (m.moveTo next) = .ok u m₁) :
    ∃ due, Pays host m frame i next due := by
  rw [Exec.charge_eq] at charged
  cases price : host.due frame i (m.moveTo next) with
  | error fault => rw [price] at charged; cases charged
  | ok due =>
    refine ⟨due, reads, price, fun amount same => ?_⟩
    subst same
    rw [price] at charged
    dsimp only at charged
    split at charged
    · cases charged
    · next within => rwa [gas_moveTo, Bool.not_eq_true] at within

/-- What was fetched for the running frame and charged has been paid. -/
theorem exists_pays_of_charge {host : Host World} {rest : List Frame} {m₂ : Machine World}
    {u : Unit} (running : m.status = .running) (frames : m.frames = frame :: rest)
    (fetched : Exec.fetch frame m = .ok i m₁) (charged : Exec.charge host frame i m₁ = .ok u m₂) :
    ∃ next due, Pays host m frame i next due := by
  rw [Exec.fetch_eq] at fetched
  cases read : Instruction.fetch frame.script frame.position with
  | error cause next => rw [read] at fetched; cases fetched
  | ok i next =>
    rw [read] at fetched
    cases fetched
    have reads : Reads m frame i next := ⟨running, by rw [frames, List.tail_cons], read⟩
    exact ⟨next, reads.pays_of_charge charged⟩

/-- A machine that makes a call has paid for it. -/
theorem exists_pays_of_call? (h : m.call? setting limit = some (call, m₁)) :
    ∃ frame i next due, Pays (setting.host limit) m frame i next due := by
  rw [call?] at h
  split at h
  · next frame rest running frames =>
    split at h
    · cases h
    · next fetched =>
      split at h
      · cases h
      · next charged => exact ⟨frame, _, exists_pays_of_charge running frames fetched charged⟩
  · cases h

/-- **A system call that is made** has been read, paid for and found in the registry. -/
theorem exists_entry_of_call? (h : m.call? setting limit = some (call, m₁)) :
    ∃ frame i next due entry, Pays (setting.host limit) m frame i next due ∧
      i.opcode = .flow .sysCall ∧
      Syscall.registry.find? (SyscallId.ofOperand i.operand) = some entry ∧
      entry.handler = call ∧ m.ready next due = m₁ := by
  obtain ⟨frame, i, next, due, pays⟩ := exists_pays_of_call? h
  rw [pays.call?_eq] at h
  split at h
  · next code =>
    obtain ⟨entry, known, same⟩ := Option.map_eq_some_iff.1 h
    cases same
    exact ⟨frame, i, next, due, entry, pays, code, known, rfl, rfl⟩
  · cases h

theorem begins_of_call? (h : m.call? setting limit = some (call, m₁)) : Begins m m₁ := by
  obtain ⟨frame, i, next, due, entry, pays, -, -, -, rfl⟩ := exists_entry_of_call? h
  exact ⟨m.stack_ready next due, m.alt_ready next due, m.heap_ready next due,
    m.world_ready next due, executing_ready, by rw [pays.executing_eq]; exact pays.executes⟩

end

/-! ## What a step does -/

/-- **A step that makes a call** leaves what the call leaves, but for the status. -/
theorem Step.of_call? (step : Step (setting.host limit) m m')
    (h : m.call? setting limit = some (call, m₁)) {P : Machine World → Prop}
    (does : Exec.wp (call.run setting) (fun _ => P) P m₁)
    (stop : ∀ m fault, P m → P (m.stop fault)) : P m' := by
  obtain ⟨frame, i, next, due, entry, pays, code, known, rfl, rfl⟩ := exists_entry_of_call? h
  have executed : Exec.wp (Exec.execute (setting.host limit) frame i) (fun _ => P) P
      (m.ready next due) := by
    rw [Setting.host_eq_hostWith]
    refine Exec.wp_execute_sysCall code (fun call found => ?_) fun unknown => ?_
    · rw [Setting.syscall_hostWith, known] at found
      cases found
      exact does
    · rw [Setting.syscall_hostWith, known] at unknown
      cases unknown
  rcases step.of_pays pays with ⟨fault, m₁, done, rfl⟩ | ⟨m₁, done, rfl | rfl⟩
  · exact stop _ _ (executed.error done)
  · exact executed.ok done
  · exact stop _ _ (executed.ok done)

/-- A step that makes a call does what the call does, and then there must not be too many items. -/
theorem step_of_call? (h : m.call? setting limit = some (call, m₁)) :
    m.step (setting.host limit) =
      match call.run setting m₁ with
      | .error fault m' => m'.stop fault
      | .ok _ m' =>
        if m'.stack.depth + m'.alt.depth > maxStackItems then m'.stop (.machine .stackLimit)
        else m' := by
  obtain ⟨frame, i, next, due, entry, pays, code, known, rfl, rfl⟩ := exists_entry_of_call? h
  have executes : Exec.execute (setting.host limit) frame i = entry.handler.run setting := by
    rw [Setting.host_eq_hostWith, Exec.execute, code]
    show Exec.flow _ frame i.operand .sysCall = _
    rw [Exec.flow, Setting.syscall_hostWith, known]
    rfl
  rw [pays.step_eq, executes]
  cases entry.handler.run setting (m.ready next due) with
  | error fault m' => rfl
  | ok u m' => rfl

theorem status_of_call? (h : m.call? setting limit = some (call, m₁)) : m₁.status = .running := by
  obtain ⟨frame, i, next, due, entry, pays, -, -, -, rfl⟩ := exists_entry_of_call? h
  rw [status_ready, pays.running]

section

variable {R : Machine World → Machine World → Prop} [Outward R]

/-- **A step that makes no call** looks up a contract at most. -/
theorem Step.keeps_of_call?_eq_none (step : Step (setting.host limit) m m')
    (h : m.call? setting limit = none)
    (hc : ∀ name, Exec.Keeps R (Exec.findCallee setting name)) : R m m' := by
  by_cases pays : ∃ frame i next due, Pays (setting.host limit) m frame i next due
  · obtain ⟨frame, i, next, due, pays⟩ := pays
    have kept : Exec.Keeps R (Exec.execute (setting.host limit) frame i) := by
      rw [Setting.host_eq_hostWith]
      refine Exec.keeps_execute (by rwa [Setting.contract_hostWith]) fun code call found => ?_
      rw [pays.call?_eq, code] at h
      rw [Setting.syscall_hostWith, Option.map_eq_none_iff.1 h] at found
      cases found
    have ready : R m (m.ready next due) :=
      Outward.of_same (m.world_ready next due) (by rw [heap_ready])
    have stop (m : Machine World) (fault : Fault) : R m (m.stop fault) := Outward.of_same rfl rfl
    rcases step.of_pays pays with ⟨fault, m₁, done, rfl⟩ | ⟨m₁, done, rfl | rfl⟩
    · exact Outward.trans ready (Outward.trans (kept.error done) (stop _ _))
    · exact Outward.trans ready (kept.ok done)
    · exact Outward.trans ready (Outward.trans (kept.ok done) (stop _ _))
  · obtain ⟨world, heap⟩ := step.same_of_not_pays fun frame i next due h =>
      pays ⟨frame, i, next, due, h⟩
    exact Outward.of_same world (by rw [heap])

/-- **What finding contracts and all system calls keep, every step keeps.** -/
theorem Step.keeps (step : Step (setting.host limit) m m')
    (hc : ∀ name, Exec.Keeps R (Exec.findCallee setting name))
    (hs : ∀ call : Syscall, Exec.Keeps R (call.run setting)) : R m m' := by
  cases h : m.call? setting limit with
  | none => exact step.keeps_of_call?_eq_none h hc
  | some found =>
    obtain ⟨call, m₁⟩ := found
    have begins := begins_of_call? h
    have ready : R m m₁ := Outward.of_same begins.world (by rw [begins.heap])
    refine step.of_call? h ((hs call m₁).mono (fun _ _ => Outward.trans ready)
      fun _ => Outward.trans ready) fun m' fault kept => ?_
    exact Outward.trans kept (Outward.of_same rfl rfl)

end

end Machine

end DryRun
