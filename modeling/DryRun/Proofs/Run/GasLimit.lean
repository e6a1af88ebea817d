import DryRun.Proofs.Machine.Progress
import DryRun.Proofs.Syscall.Control

/-!
# A gas limit does nothing but stop a run

The limit is looked at in one place only, after an instruction has been charged for and before it
is done.  So a run under a limit goes through the states of the unlimited run until an instruction
comes that is charged above the limit, and there it stops with the charge and without any effect of
the instruction.  `GasLimit.OnlyStops` puts this into statements about the states of the two runs;
`gas_limit_only_stops` proves them for every script and node.

* `fee?` is what the next step of a machine is charged, and `Overdraws` says that a limit does not
  allow it.
* `step_limited` says that a step is the same under two limits neither of which is overdrawn, and
  `step_overdrawn` what becomes of a machine that overdraws.
* `Step.gas` and `fee_nonneg` say what a step does to the gas, and `gas_runFor` gives the gas of a
  run as the sum of its charges.
-/

set_option autoImplicit false

namespace DryRun

variable {σ η : Type}

/-- The host with another gas limit. -/
def Host.limited (host : Host σ) (limit : GasLimit) : Host σ := { host with gasLimit := limit }

namespace Machine

/-- What the next step is charged, if it is charged for. -/
def fee? (host : Host σ) (m : Machine σ) : Option Int :=
  match m.status, m.frames with
  | .running, frame :: _ =>
    match Instruction.fetch frame.script frame.position with
    | .ok i next =>
      match host.due frame i (m.moveTo next) with
      | .ok due => due
      | .error _ => none
    | .error .. => none
  | _, _ => none

/-- What the steps of a run are charged together. -/
def charges (host : Host σ) (m : Machine σ) : Nat → Int
  | 0 => 0
  | n + 1 => charges host m n + ((m.runFor host n).fee? host).getD 0

/-- The charge for the next step exceeds a limit. -/
def Overdraws (host : Host σ) (limit : GasLimit) (m : Machine σ) : Prop :=
  ∃ amount, m.fee? host = some amount ∧ limit.isExceededBy (m.gas + amount) = true

variable {host : Host σ} {limit : GasLimit} {registry : Registry η} {m m' : Machine σ}

/-! ## Charges -/

theorem Reads.fee?_eq {frame : Frame} {i : Instruction} {next : Nat} (reads : Reads m frame i next)
    {due : Option Int} (price : host.due frame i (m.moveTo next) = .ok due) :
    m.fee? host = due := by
  rw [fee?, reads.running, reads.frames]
  dsimp only
  rw [reads.fetched]
  dsimp only
  rw [price]

/-- What is charged for was read. -/
theorem reads_of_fee? {amount : Int} (h : m.fee? host = some amount) :
    ∃ frame i next, Reads m frame i next ∧
      host.due frame i (m.moveTo next) = .ok (some amount) := by
  rw [fee?] at h
  split at h
  · next frame rest running frames =>
    split at h
    · next i next fetched =>
      have reads : Reads m frame i next := ⟨running, by rw [frames, List.tail_cons], fetched⟩
      split at h
      · next due price =>
        subst h
        exact ⟨frame, i, next, reads, price⟩
      · cases h
    · cases h
  · cases h

theorem fee?_limited (l : GasLimit) : m.fee? (host.limited l) = m.fee? host := rfl

/-- **The gas of a step is its charge.** -/
theorem Step.gas (calm : host.Calm) (h : Step host m m') :
    m'.gas = m.gas + (m.fee? host).getD 0 := by
  have unpaid {m' : Machine σ} (free : m.fee? host = none) (same : m'.gas = m.gas) :
      m'.gas = m.gas + (m.fee? host).getD 0 := by
    rw [free, same]
    exact (Int.add_zero _).symm
  have paid {frame : Frame} {i : Instruction} {next : Nat} {due : Option Int} {m' : Machine σ}
      (pays : Pays host m frame i next due) (same : SameGas (m.ready next due) m') :
      m'.gas = m.gas + (m.fee? host).getD 0 := by
    rw [pays.fee?_eq pays.price]
    exact same.trans (gas_ready m next due)
  cases h with
  | still stopped =>
    refine unpaid ?_ rfl
    rw [fee?]
    split
    · next running _ => rw [running] at stopped; cases stopped
    · rfl
  | empty running frames => exact unpaid (by rw [fee?, running, frames]) rfl
  | unread running frames fetched =>
    refine unpaid ?_ (gas_moveTo m _)
    rw [fee?, running, frames]
    dsimp only
    rw [fetched]
  | unpriced reads price =>
    refine unpaid ?_ (gas_moveTo m _)
    rw [fee?, reads.running, reads.frames]
    dsimp only
    rw [reads.fetched]
    dsimp only
    rw [price]
  | overdrawn reads price exceeded =>
    rw [reads.fee?_eq price]
    exact gas_ready m _ _
  | @failed _ _ _ _ _ m' pays does =>
    have same : SameGas _ m' := calm.keeps_gas.error does
    exact paid pays same
  | @overfull _ _ _ _ m' pays does depth =>
    have same : SameGas _ m' := calm.keeps_gas.ok does
    exact paid pays same
  | done pays does depth => exact paid pays (calm.keeps_gas.ok does)

theorem fee_nonneg (metered : host.Metered registry) : 0 ≤ (m.fee? host).getD 0 := by
  cases fee : m.fee? host with
  | none => exact Int.le_refl 0
  | some amount =>
    obtain ⟨frame, i, next, -, price⟩ := reads_of_fee? fee
    exact metered.due_nonneg price

/-! ## Steps under two limits -/

/-- **A step that no limit forbids** is the same under all limits. -/
theorem step_limited {l l' : GasLimit} (h : ¬ m.Overdraws host l) (h' : ¬ m.Overdraws host l') :
    m.step (host.limited l') = m.step (host.limited l) := by
  have within {frame : Frame} {i : Instruction} {next : Nat} {due : Option Int}
      (pays : Pays (host.limited l) m frame i next due) :
      Pays (host.limited l') m frame i next due := by
    refine ⟨pays.toReads, pays.price, fun amount hdue => Bool.eq_false_iff.2 fun exceeded => h' ?_⟩
    exact ⟨amount, (pays.fee?_eq pays.price).trans hdue, exceeded⟩
  have step := step_spec (host.limited l) m
  generalize m.step (host.limited l) = m' at step ⊢
  refine Step.eq ?_
  cases step with
  | still stopped => exact .still stopped
  | empty running frames => exact .empty running frames
  | unread running frames fetched => exact .unread running frames fetched
  | unpriced reads price => exact .unpriced reads price
  | overdrawn reads price exceeded => exact absurd ⟨_, reads.fee?_eq price, exceeded⟩ h
  | failed pays does => exact .failed (within pays) does
  | overfull pays does depth => exact .overfull (within pays) does depth
  | done pays does depth => exact .done (within pays) does depth

/-- **A step that the limit forbids.**  The instruction was read and is charged for, and nothing
else has happened. -/
theorem step_overdrawn (h : m.Overdraws host limit) :
    ∃ frame rest next gas, m.frames = frame :: rest ∧ gas = m.gas + (m.fee? host).getD 0 ∧
      m.step (host.limited limit) =
        { m with
          frames := { frame with position := next } :: rest
          gas
          status := .faulted (.machine (.gasLimit gas limit)) } := by
  obtain ⟨amount, fee, exceeded⟩ := h
  obtain ⟨frame, i, next, reads, price⟩ := reads_of_fee? fee
  refine ⟨frame, m.frames.tail, next, m.gas + amount, reads.frames, by rw [fee]; rfl, ?_⟩
  have step : Step (host.limited limit) m _ := .overdrawn reads price exceeded
  rw [step.eq, ready, moveTo, reads.frames]
  rfl

/-! ## Runs under two limits -/

theorem not_overdraws_of_amount_eq_zero (h : limit.amount = 0) : ¬ m.Overdraws host limit := by
  rintro ⟨amount, -, exceeded⟩
  rw [GasLimit.isExceededBy, h] at exceeded
  cases exceeded

theorem Overdraws.of_le {larger : GasLimit} (hle : limit.amount ≤ larger.amount)
    (limited : 0 < limit.amount) (h : m.Overdraws host larger) : m.Overdraws host limit := by
  obtain ⟨amount, fee, exceeded⟩ := h
  refine ⟨amount, fee, ?_⟩
  rw [GasLimit.isExceededBy_iff (by omega)] at *
  omega

/-- Two limits neither of which is overdrawn on the way. -/
theorem runFor_limited {l l' : GasLimit} (n : Nat)
    (h : ∀ k < n, ¬ (m.runFor (host.limited l) k).Overdraws host l)
    (h' : ∀ k < n, ¬ (m.runFor (host.limited l) k).Overdraws host l') :
    m.runFor (host.limited l') n = m.runFor (host.limited l) n := by
  induction n with
  | zero => rfl
  | succ n ih =>
    rw [runFor_succ, runFor_succ,
      ih (fun k hk => h k (Nat.lt_succ_of_lt hk)) (fun k hk => h' k (Nat.lt_succ_of_lt hk))]
    exact step_limited (h n (Nat.lt_succ_self n)) (h' n (Nat.lt_succ_self n))

/-- A run that has overdrawn has failed. -/
theorem not_overdraws_of_halted {n : Nat}
    (halted : (m.runFor (host.limited limit) n).status = .halted) {k : Nat} (hk : k < n) :
    ¬ (m.runFor (host.limited limit) k).Overdraws host limit := by
  intro overdraws
  obtain ⟨frame, rest, next, gas, -, -, step⟩ := step_overdrawn overdraws
  rw [← runFor_succ] at step
  rw [runFor_of_stopped _ hk (by rw [step]; rfl), step] at halted
  cases halted

/-- **The gas of a run is the sum of its charges.** -/
theorem gas_runFor (calm : host.Calm) (m : Machine σ) (n : Nat) :
    (m.runFor host n).gas = m.gas + m.charges host n := by
  induction n with
  | zero => exact (Int.add_zero _).symm
  | succ n ih => rw [runFor_succ, (step_spec host _).gas calm, ih, charges, Int.add_assoc]

theorem gas_mono (metered : host.Metered registry) (m : Machine σ) {n k : Nat} (hle : n ≤ k) :
    (m.runFor host n).gas ≤ (m.runFor host k).gas := by
  obtain ⟨d, rfl⟩ := Nat.exists_eq_add_of_le hle
  clear hle
  induction d with
  | zero => exact Int.le_refl _
  | succ d ih =>
    rw [← Nat.add_assoc, runFor_succ, (step_spec host _).gas metered.calm]
    have := fee_nonneg (m := m.runFor host (n + d)) metered
    omega

/-- What has not failed is within the limit. -/
theorem Step.gas_le (calm : host.Calm) (limited : 0 < host.gasLimit.amount) (h : Step host m m')
    (within : m.gas ≤ host.gasLimit.amount) :
    (∃ fault, m'.status = .faulted fault) ∨ m'.gas ≤ host.gasLimit.amount := by
  cases h with
  | still => exact .inr within
  | empty | unread | unpriced | overdrawn | failed | overfull => exact .inl ⟨_, rfl⟩
  | @done frame i next due _ pays does depth =>
    rw [calm.keeps_gas.ok does, gas_ready]
    cases due with
    | none => exact .inr (by simpa using within)
    | some amount =>
      have := pays.within amount rfl
      rw [← Bool.not_eq_true, GasLimit.isExceededBy_iff (by omega), Int.not_lt] at this
      exact .inr this

theorem gas_le (calm : host.Calm) (limited : 0 < host.gasLimit.amount)
    (within : m.gas ≤ host.gasLimit.amount) (n : Nat) :
    (∃ fault, (m.runFor host n).status = .faulted fault) ∨
      (m.runFor host n).gas ≤ host.gasLimit.amount := by
  refine runFor_invariant host (P := fun m => (∃ fault, m.status = .faulted fault) ∨
    m.gas ≤ host.gasLimit.amount) (fun m h => ?_) (.inr within) n
  rcases h with ⟨fault, failed⟩ | within
  · rw [step_of_not_running (by rw [failed]; rfl)]
    exact .inl ⟨fault, failed⟩
  · exact (step_spec host m).gas_le calm limited within

end Machine

/-! ## What a limit does -/

/-- What a limit does to the runs from `start`, where `host l` is the host under a limit `l`. -/
structure GasLimit.OnlyStops (host : GasLimit → Host σ) (limit : GasLimit) (start : Machine σ) :
    Prop where
  /-- Up to the first instruction that is charged above the limit, the run under the limit and the
  run without one go through the same states. -/
  same : ∀ (free : GasLimit) (n : Nat), free.amount = 0 →
    (∀ k < n, ¬ (start.runFor (host free) k).Overdraws (host free) limit) →
    start.runFor (host limit) n = start.runFor (host free) n
  /-- At that instruction the run under the limit stops for good.  It has the gas that the other run
  has behind the instruction; of all else only the position of the running frame has changed. -/
  stops : ∀ (free : GasLimit) (n : Nat), free.amount = 0 →
    (∀ k < n, ¬ (start.runFor (host free) k).Overdraws (host free) limit) →
    (start.runFor (host free) n).Overdraws (host free) limit →
    ∃ frame rest next gas, (start.runFor (host free) n).frames = frame :: rest ∧
      gas = (start.runFor (host free) (n + 1)).gas ∧ limit.amount < gas ∧
      ∀ k, n < k → start.runFor (host limit) k =
        { start.runFor (host free) n with
          frames := { frame with position := next } :: rest
          gas
          status := .faulted (.machine (.gasLimit gas limit)) }
  /-- The gas is the sum of all charges so far. -/
  charges : ∀ (any : GasLimit) (n : Nat),
    (start.runFor (host any) n).gas = start.gas + start.charges (host any) n
  /-- What halts under the limit halts in the same state under every larger one and under none. -/
  halts : ∀ (larger : GasLimit) (n k : Nat), larger.amount = 0 ∨ limit.amount ≤ larger.amount →
    (start.runFor (host limit) n).status = .halted → n ≤ k →
    start.runFor (host larger) k = start.runFor (host limit) n
  /-- The gas never decreases. -/
  grows : ∀ (any : GasLimit) (n k : Nat), n ≤ k →
    (start.runFor (host any) n).gas ≤ (start.runFor (host any) k).gas
  /-- Unless a run has failed, its gas is within the limit. -/
  within : ∀ n, (∃ fault, (start.runFor (host limit) n).status = .faulted fault) ∨
    (start.runFor (host limit) n).gas ≤ limit.amount

open Machine in
/-- A limit only stops the runs against a host that prices instructions by a registry. -/
theorem Host.Metered.onlyStops {host : Host σ} {registry : Registry η}
    (metered : host.Metered registry) {limit : GasLimit} (limited : 0 < limit.amount)
    {start : Machine σ} (begin : start.gas ≤ limit.amount) :
    limit.OnlyStops host.limited start := by
  have metered' (l : GasLimit) : (host.limited l).Metered registry :=
    ⟨⟨metered.calm.contract, metered.calm.syscall⟩, metered.price⟩
  have same (free : GasLimit) (n : Nat) (unlimited : free.amount = 0)
      (h : ∀ k < n, ¬ (start.runFor (host.limited free) k).Overdraws host limit) :
      start.runFor (host.limited limit) n = start.runFor (host.limited free) n :=
    runFor_limited n (fun _ _ => not_overdraws_of_amount_eq_zero unlimited) h
  refine
    { same
      stops := fun free n unlimited h overdraws => ?_
      charges := fun any n => gas_runFor (metered' any).calm start n
      halts := fun larger n k hle halted hk => ?_
      grows := fun any n k hle => gas_mono (metered' any) start hle
      within := gas_le (metered' limit).calm limited begin }
  · obtain ⟨amount, fee, exceeded⟩ := overdraws
    have overdraws : (start.runFor (host.limited free) n).Overdraws host limit :=
      ⟨amount, fee, exceeded⟩
    obtain ⟨frame, rest, next, gas, frames, hgas, step⟩ := step_overdrawn overdraws
    have charged : (start.runFor (host.limited free) (n + 1)).gas = gas := by
      rw [runFor_succ, (step_spec _ _).gas (metered' free).calm, hgas, fee?_limited]
    refine ⟨frame, rest, next, gas, frames, charged.symm, ?_, fun k hk => ?_⟩
    · rw [fee?_limited] at fee
      rwa [hgas, fee, Option.getD_some, ← GasLimit.isExceededBy_iff (by omega)]
    · have stopped := runFor_succ (host.limited limit) start n
      rw [same free n unlimited h, step] at stopped
      rw [runFor_of_stopped _ hk (by rw [stopped]; rfl), stopped]
  · have fine : start.runFor (host.limited larger) n = start.runFor (host.limited limit) n := by
      refine runFor_limited n (fun _ hk => not_overdraws_of_halted halted hk) fun j hj => ?_
      rcases hle with unlimited | hle
      · exact not_overdraws_of_amount_eq_zero unlimited
      · exact fun overdraws => not_overdraws_of_halted halted hj (overdraws.of_le hle limited)
    rw [← fine] at halted ⊢
    exact runFor_of_stopped _ hk (by rw [halted]; rfl)

namespace Setting

variable (setting : Setting) (limit : GasLimit)

theorem limited_hostWith (contract : Bytes → Exec World (Option Callee)) :
    (setting.hostWith .unlimited contract).limited limit = setting.hostWith limit contract := by
  rw [Host.limited, hostWith, hostWith, host, host]

theorem limited_host : (setting.host .unlimited).limited limit = setting.host limit := by
  rw [host_eq_hostWith, host_eq_hostWith, limited_hostWith]

end Setting

/-- **A gas limit does nothing but stop a run**, whatever the script and the node are, and also if
contracts are looked up in a fixed collection in place of the run and the chain. -/
theorem gas_limit_only_stops (setting : Setting) (limit : GasLimit) (limited : 0 < limit.amount)
    (script : Bytes) (dynamicInvoke : Bool) (world : World) :
    limit.OnlyStops setting.host (Machine.load script dynamicInvoke world) ∧
    ∀ callable : Bytes → Option Callee,
      limit.OnlyStops (setting.hostWith · fun name => pure (callable name))
        (Machine.load script dynamicInvoke world) := by
  have host : (setting.host .unlimited).limited = setting.host := funext setting.limited_host
  refine ⟨?_, fun callable => ?_⟩
  · rw [← host]
    exact (setting.host_metered .unlimited).onlyStops limited (Int.le_of_lt limited)
  · have hostWith : (setting.hostWith .unlimited fun name => pure (callable name)).limited =
        (setting.hostWith · fun name => pure (callable name)) :=
      funext fun limit => setting.limited_hostWith limit _
    rw [← hostWith]
    exact (setting.hostWith_metered .unlimited fun name => Exec.keeps_pure _).onlyStops limited
      (Int.le_of_lt limited)

/-- A script that jumps back to its start, under a limit that does not pay for the first jump: the
run stops there with the charge for it, whatever the number of steps is. -/
theorem gas_limit_only_stops_endless_loop :
    let setting : Setting := ⟨fun _ => .unavailable [], 0, .empty⟩
    let start : Machine World := .load [0x62, 0x00, 0x00] true (.fresh .fresh)
    0 < (GasLimit.units 3).amount ∧ (GasLimit.units 3).OnlyStops setting.host start ∧
    start.Overdraws (setting.host .unlimited) (.units 3) ∧
    ∀ k, 0 < k → (start.runFor (setting.host (.units 3)) k).status =
      .faulted (.machine (.gasLimit 100000 (.units 3))) := by
  intro setting start
  have only := (gas_limit_only_stops setting (.units 3) (by decide) [0x62, 0x00, 0x00] true
    (.fresh .fresh)).1
  have fee : start.fee? (setting.host .unlimited) = some 100000 := by
    have reads : Machine.Reads start ⟨.ofBytes [0x62, 0x00, 0x00], 0, true⟩
        ⟨0x62, [0x00, 0x00]⟩ 3 := ⟨rfl, rfl, rfl⟩
    refine reads.fee?_eq ?_
    rw [Setting.host_eq_hostWith, Host.due, Setting.price_hostWith]
    rfl
  have overdraws : start.Overdraws (setting.host .unlimited) (.units 3) := ⟨100000, fee, rfl⟩
  refine ⟨by decide, only, overdraws, fun k hk => ?_⟩
  obtain ⟨frame, rest, next, gas, -, charged, -, stopped⟩ :=
    only.stops .unlimited 0 rfl (fun k hk => absurd hk (Nat.not_lt_zero k)) overdraws
  have first : gas = start.gas + (0 + (start.fee? (setting.host .unlimited)).getD 0) :=
    charged.trans (only.charges .unlimited 1)
  rw [fee] at first
  rw [stopped k hk, first]
  rfl

end DryRun
