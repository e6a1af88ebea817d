import DryRun.Proofs.Syscall.Deployed
import DryRun.Run

/-!
# Metered runs end

A run under a gas limit ends, whatever the script, the node and the contracts are, and the number
of steps that `stepBound` allows is enough for it.  The first half is `Machine.exists_stopped`.  The
second needs a bound on what can be unread at any time: no script that comes into a run is longer
than a field may be (`Machine.Fits`), and there are at most `Machine.maxFrames` frames.  With that
bound as the weight of a base unit, the gas that is left and what is unread make one number that
every step lowers (`Machine.runFor_stopped`).
-/

set_option autoImplicit false

namespace DryRun

open Machine (Step)

/-! ## What can be unread -/

namespace Machine

/-- There are no more frames than there may be, no script is longer than `longest`, and none that is
longer can come in from a contract. -/
structure Fits (longest : Nat) (m : Machine World) : Prop where
  /-- There are no more frames than there may be. -/
  room : m.frames.length ≤ maxFrames
  /-- The scripts are not too long. -/
  scripts : ∀ frame ∈ m.frames, frame.script.size ≤ longest
  /-- The deployed scripts are short. -/
  contracts : m.world.contracts.Sound

variable {longest : Nat} {m m' : Machine World}

theorem totalUnread_le {frames : List Frame} (h : ∀ f ∈ frames, f.script.size ≤ longest) :
    Frame.totalUnread frames ≤ frames.length * (longest + 1) := by
  induction frames with
  | nil => exact Nat.zero_le _
  | cons frame rest ih =>
    rw [List.forall_mem_cons] at h
    have first : frame.unread ≤ longest + 1 :=
      Nat.succ_le_succ (Nat.le_trans (Nat.sub_le _ _) h.1)
    rw [Frame.totalUnread, List.length_cons, Nat.succ_mul, Nat.add_comm]
    exact Nat.add_le_add (ih h.2) first

/-- What is unread is bounded by the number of frames and the length of a script. -/
theorem Fits.unread_le (fits : m.Fits longest) : m.unread ≤ maxFrames * (longest + 1) :=
  Nat.le_trans (totalUnread_le fits.scripts) (Nat.mul_le_mul_right _ fits.room)

theorem Fits.moveTo (fits : m.Fits longest) (next : Nat) : (m.moveTo next).Fits longest := by
  cases frames : m.frames with
  | nil =>
    rw [Machine.moveTo, frames]
    exact fits
  | cons frame rest =>
    refine ⟨?_, ?_, by simpa using fits.contracts⟩
    · rw [frames_moveTo m next frames, List.length_cons, ← List.length_cons, ← frames]
      exact fits.room
    · rw [frames_moveTo m next frames]
      intro f hf
      rcases List.mem_cons.1 hf with rfl | hf
      · exact fits.scripts frame (by rw [frames]; exact List.mem_cons_self)
      · exact fits.scripts f (by rw [frames]; exact List.mem_cons_of_mem _ hf)

theorem Fits.ready (fits : m.Fits longest) (next : Nat) (due : Option Int) :
    (m.ready next due).Fits longest :=
  ⟨(fits.moveTo next).room, (fits.moveTo next).scripts, (fits.moveTo next).contracts⟩

theorem Fits.tail (fits : m.Fits longest) :
    m.frames.tail.length ≤ maxFrames ∧ ∀ frame ∈ m.frames.tail, frame.script.size ≤ longest :=
  ⟨Nat.le_trans (by simp) fits.room, fun f hf => fits.scripts f (List.mem_of_mem_tail hf)⟩

/-- A new frame whose script is not too long, where there is room for it. -/
theorem fits_push {frame : Frame} {rest : List Frame} (room : rest.length < maxFrames)
    (short : frame.script.size ≤ longest) (scripts : ∀ f ∈ rest, f.script.size ≤ longest) :
    (frame :: rest).length ≤ maxFrames ∧ ∀ f ∈ frame :: rest, f.script.size ≤ longest := by
  refine ⟨room, fun f hf => ?_⟩
  rcases List.mem_cons.1 hf with rfl | hf
  · exact short
  · exact scripts f hf

variable {setting : Setting} {limit : GasLimit}

theorem fits_turn (enough : Reader.maxFieldSize ≤ longest) {frame : Frame}
    (short : frame.script.size ≤ longest) (fits : m.Fits longest)
    (turn : Exec.Turn (setting.host limit) frame m m') :
    m'.frames.length ≤ maxFrames ∧ ∀ f ∈ m'.frames, f.script.size ≤ longest := by
  have callee {name : Bytes} {callee : Callee}
      (found : (setting.host limit).Finds m name callee) :
      (Script.ofBytes callee.script).size ≤ longest := by
    obtain ⟨m₁, m₂, world, answer⟩ := found
    rw [setting.contract_host] at answer
    have := Exec.short_findCallee (by rw [world]; exact fits.contracts) answer
    rw [Script.size_eq_length, Script.bytes_ofBytes]
    exact Nat.le_trans this enough
  cases turn with
  | stay frames => rw [frames]; exact ⟨fits.room, fits.scripts⟩
  | jump inside frames => rw [frames]; exact ⟨(fits.moveTo _).room, (fits.moveTo _).scripts⟩
  | call inside room frames => rw [frames]; exact fits_push room short fits.scripts
  | ret frames => rw [frames]; exact fits.tail
  | enter found room frames => rw [frames]; exact fits_push room (callee found) fits.scripts
  | replace found room frames => rw [frames]; exact fits_push room (callee found) fits.tail.2

/-- A step that does not stop keeps the bounds. -/
theorem Step.fits (enough : Reader.maxFieldSize ≤ longest)
    (h : Step (setting.host limit) m m') (fits : m.Fits longest) :
    m'.status.isRunning = false ∨ m'.Fits longest := by
  cases h with
  | still => exact .inr fits
  | empty | unread | unpriced | overdrawn | failed | overfull => exact .inl rfl
  | @done frame i next due _ pays does depth =>
    have short : frame.script.size ≤ longest :=
      fits.scripts frame (by rw [pays.frames]; exact List.mem_cons_self)
    have turn := (Exec.turn_execute (setting.host_calm limit)).ok does
    have frames := fits_turn enough short (fits.ready next due) turn
    exact .inr ⟨frames.1, frames.2, (Step.done pays does depth).keepsSound fits.contracts⟩

/-! ## Enough steps -/

theorem fits_load {script : Bytes} (h : script.length ≤ longest) (dynamicInvoke : Bool)
    (link : Link) : (load script dynamicInvoke (.fresh link)).Fits longest where
  room := by
    show 1 ≤ maxFrames
    decide
  scripts frame hframe := by
    rw [List.mem_singleton.1 hframe, Script.size_eq_length, Script.bytes_ofBytes]
    exact h
  contracts := ContractOverlay.sound_empty

/-- **Gas and script together bound the steps.**  A base unit outweighs everything that can be
unread, so every step lowers the number on the left. -/
theorem runFor_stopped (enough : Reader.maxFieldSize ≤ longest) (limited : 0 < limit.amount)
    (n : Nat) : ∀ m : Machine World, m.Fits longest → m.gas ≤ limit.amount →
      ((limit.amount - m.gas) / Price.ratio).toNat * (maxFrames * (longest + 1) + 1) +
        m.unread < n →
      (m.runFor (setting.host limit) n).status.isRunning = false := by
  induction n with
  | zero => exact fun _ _ _ h => absurd h (Nat.not_lt_zero _)
  | succ n ih =>
    intro m fits within bound
    rw [runFor_step]
    have step := step_spec (setting.host limit) m
    rcases step.fits enough fits with stopped | fits'
    · rwa [runFor_of_not_running _ stopped]
    have metered := setting.host_metered limit
    have limited' : 0 < (setting.host limit).gasLimit.amount := by rwa [setting.gasLimit_host]
    rcases step.progress metered limited' with stopped | ⟨costs, within'⟩ | less
    · rwa [runFor_of_not_running _ stopped]
    · rw [setting.gasLimit_host] at within'
      refine ih _ fits' within' ?_
      have unread := fits'.unread_le
      have units : ((limit.amount - (m.step (setting.host limit)).gas) / Price.ratio).toNat + 1 ≤
          ((limit.amount - m.gas) / Price.ratio).toNat := by
        rw [Price.ratio] at *
        omega
      have := Nat.mul_le_mul_right (maxFrames * (longest + 1) + 1) units
      rw [Nat.succ_mul] at this
      omega
    · refine ih _ fits' (by rw [less.1]; exact within) ?_
      rw [less.1]
      have := less.2
      omega

end Machine

/-- The steps a metered run may take are enough. -/
theorem Prepared.run_stopped (p : Prepared) (limited : 0 < p.configuration.gasLimit.amount)
    (node : Node) (link : Link) : (p.run node link).status.isRunning = false := by
  have longest := Nat.le_max_left p.configuration.script.length Reader.maxFieldSize
  have fits := Machine.fits_load longest true link
  have unread := fits.unread_le
  rw [run, steps, if_neg (Int.ne_of_gt limited)]
  refine Machine.runFor_stopped (Nat.le_max_right _ _) limited _ _ fits (Int.le_of_lt limited) ?_
  have units : ((p.configuration.gasLimit.amount - (p.start link).gas) / Price.ratio).toNat =
      p.configuration.gasLimit.amount.toNat / Price.ratio.toNat := by
    show ((p.configuration.gasLimit.amount - 0) / 100000).toNat =
      p.configuration.gasLimit.amount.toNat / 100000
    omega
  rw [units, stepBound, Nat.add_mul]
  refine Nat.add_lt_add_left (Nat.lt_of_le_of_lt unread ?_) _
  omega

/-- **Metered runs end.**  Whatever the script and the node are, a run under a gas limit halts or
fails after finitely many steps; so it does if contracts are looked up in a fixed collection in
place of the run and the chain; and the steps that a prepared run may take are enough for it to come
to its end. -/
theorem metered_run_ends (setting : Setting) (limit : GasLimit) (limited : 0 < limit.amount)
    (script : Bytes) (dynamicInvoke : Bool) (world : World) :
    (∃ n, ((Machine.load script dynamicInvoke world).runFor
      (setting.host limit) n).status.isRunning = false) ∧
    (∀ callable : Bytes → Option Callee, ∃ n, ((Machine.load script dynamicInvoke world).runFor
      (setting.hostWith limit fun name => pure (callable name)) n).status.isRunning = false) ∧
    ∀ (p : Prepared) (link : Link), p.configuration.gasLimit = limit →
      (p.run setting.node link).status.isRunning = false := by
  refine ⟨?_, fun callable => ?_, fun p link given => ?_⟩
  · exact Machine.exists_stopped (setting.host_metered limit)
      (by rwa [setting.gasLimit_host]) _
  · exact Machine.exists_stopped (setting.hostWith_metered limit fun name => Exec.keeps_pure _)
      (by rwa [setting.gasLimit_hostWith]) _
  · exact p.run_stopped (by rwa [given]) setting.node link

/-- A script that jumps back to its start, under a limit of three hundred-millionths: the first
jump is not paid for. -/
theorem metered_run_ends_of_endless_loop :
    let setting : Setting := ⟨fun _ => .unavailable [], 0, .empty⟩
    let start : Machine World := .load [0x62, 0x00, 0x00] true (.fresh .fresh)
    let p : Prepared := ⟨⟨[0x62, 0x00, 0x00], .units 3, .empty, .null, .null⟩, 0⟩
    0 < (GasLimit.units 3).amount ∧
    (∃ n, (start.runFor (setting.host (.units 3)) n).status.isRunning = false) ∧
    (∃ n, (start.runFor (setting.hostWith (.units 3) fun _ => pure none) n).status.isRunning =
      false) ∧
    p.configuration.gasLimit = .units 3 ∧ (p.run setting.node .fresh).status.isRunning = false := by
  intro setting start p
  obtain ⟨ends, endsWith, prepared⟩ := metered_run_ends setting (.units 3) (by decide)
    [0x62, 0x00, 0x00] true (.fresh .fresh)
  exact ⟨by decide, ends, endsWith fun _ => none, rfl, prepared p .fresh rfl⟩

end DryRun
