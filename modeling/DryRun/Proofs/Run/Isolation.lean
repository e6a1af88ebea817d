import DryRun.Proofs.Syscall.Isolation

/-!
# Contracts write into their own storage

In a run the storage of a contract belongs to the frames of that contract and, if it was deployed
in the run, to whoever deployed it.  `Machine.Entitled` says that one of the two has been there
before a state of the run.  As long as it does not hold, nobody has the right to write into the
storage of the contract (`Machine.not_grants_of_not_entitled`), so that every step spares it.

The exception is a migration to a contract that the node has already (`Machine.MigratesOnto`): the
running script leaves its own storage to it.  `storage_changes_by_right` says that there is no
other, and what the exception changes.
-/

set_option autoImplicit false

namespace DryRun

open Machine (Affected ItemBlind Pays SameStores Spares Step)
open StorageOverlay (written)

/-- The instruction calls for a migration. -/
def Instruction.Migrates (i : Instruction) : Prop :=
  i.opcode = .flow .sysCall ∧ ∃ entry,
    Syscall.registry.find? (SyscallId.ofOperand i.operand) = some entry ∧
    entry.handler = .contract .migrate

namespace Machine

variable {setting : Setting} {limit : GasLimit} {scriptHash : Bytes} {m m' : Machine World}

/-- In the next step the running script is replaced by a contract that the node has, and leaves
its storage to it. -/
def MigratesOnto (setting : Setting) (limit : GasLimit) (m : Machine World) (scriptHash : Bytes) :
    Prop :=
  ∃ frame i next due, Pays (setting.host limit) m frame i next due ∧ i.Migrates ∧
    (m.ready next due).Adopts setting scriptHash

/-! ## One step -/

section

variable {frame : Frame} {i : Instruction} {next : Nat} {due : Option Int}

theorem Pays.migratesOnto_iff (pays : Pays (setting.host limit) m frame i next due) :
    m.MigratesOnto setting limit scriptHash ↔
      i.Migrates ∧ (m.ready next due).Adopts setting scriptHash := by
  refine ⟨fun ⟨frame', i', next', due', pays', migrates⟩ => ?_, fun h => ⟨_, _, _, _, pays, h⟩⟩
  obtain ⟨rfl, rfl, rfl⟩ := pays.unique pays'.toReads
  obtain rfl : due = due' := Except.ok.inj (pays.price.symm.trans pays'.price)
  exact migrates

theorem spares_ready : Spares scriptHash m (m.ready next due) :=
  (SameStores.of_objects (m.world_ready next due) (by rw [heap_ready])).spares

/-- Reading and paying changes nothing of what an effect is measured by. -/
theorem Affected.of_ready {adopts adopts' : Prop} (same : adopts ↔ adopts')
    (h : Affected adopts scriptHash (m.ready next due) m') :
    Affected adopts' scriptHash m m' := by
  cases h with
  | spared nothing spares => exact .spared (mt same.2 nothing) (ItemBlind.trans spares_ready spares)
  | deployed stands => exact .deployed stands
  | carried carries storage grants =>
    rw [world_ready, executing_ready] at storage
    rw [heap_ready] at grants
    exact .carried (same.1 carries) storage grants

/-- What an instruction does to a contract that is not running, if nobody has a right to it. -/
theorem affected_execute (pays : Pays (setting.host limit) m frame i next due)
    (sound : m.world.contracts.Sound) (other : frame.scriptHash ≠ scriptHash)
    (standing : ¬ m.world.contracts.isLocal scriptHash = true) (safe : ¬ m.heap.Grants scriptHash) :
    Exec.wp (Exec.execute (setting.host limit) frame i)
      (fun _ => Affected (m.MigratesOnto setting limit scriptHash) scriptHash m)
      (Affected (m.MigratesOnto setting limit scriptHash) scriptHash m) (m.ready next due) := by
  have spared {m' : Machine World} (quiet : ¬ i.Migrates)
      (spares : Spares scriptHash (m.ready next due) m') :
      Affected (m.MigratesOnto setting limit scriptHash) scriptHash m m' :=
    .spared (fun onto => quiet (pays.migratesOnto_iff.1 onto).1)
      (ItemBlind.trans spares_ready spares)
  have running : (m.ready next due).executing ≠ scriptHash := by
    rwa [executing_ready, pays.executing_eq]
  by_cases code : i.opcode = .flow .sysCall
  · refine Exec.wp_execute_sysCall code (fun call known => ?_) fun unknown => ?_
    · rw [Setting.host_eq_hostWith, Setting.syscall_hostWith, Option.map_eq_some_iff] at known
      obtain ⟨entry, known, rfl⟩ := known
      by_cases handler : entry.handler = .contract .migrate
      · have same : (m.ready next due).Adopts setting scriptHash ↔
            m.MigratesOnto setting limit scriptHash :=
          ⟨fun adopts => pays.migratesOnto_iff.2 ⟨⟨code, entry, known, handler⟩, adopts⟩,
            fun onto => (pays.migratesOnto_iff.1 onto).2⟩
        rw [handler]
        exact (Exec.affected_migrate (by rwa [world_ready]) running).mono
          (fun _ _ => Affected.of_ready same) fun _ => Affected.of_ready same
      · have quiet : ¬ i.Migrates := by
          rintro ⟨-, entry', known', handler'⟩
          rw [known] at known'
          cases known'
          exact handler handler'
        exact (Syscall.spares_run setting handler running (by rwa [world_ready])
          (by rwa [heap_ready])).mono (fun _ _ => spared quiet) fun _ => spared quiet
    · refine spared (fun migrates => ?_) (ItemBlind.refl _ _)
      obtain ⟨-, entry, known, -⟩ := migrates
      rw [Setting.host_eq_hostWith, Setting.syscall_hostWith, known] at unknown
      cases unknown
  · have quiet : ¬ i.Migrates := fun migrates => code migrates.1
    refine (Exec.keeps_execute (R := Spares scriptHash) (fun name => ?_)
      (fun code' => absurd code' code) _).mono (fun _ _ => spared quiet) fun _ => spared quiet
    rw [Setting.contract_host]
    exact Exec.keeps_findCallee name

end

theorem Affected.stop {adopts : Prop} (h : Affected adopts scriptHash m m') (fault : Fault) :
    Affected adopts scriptHash m (m'.stop fault) := by
  cases h with
  | spared nothing spares => exact .spared nothing ⟨spares.storage, spares.grants, spares.stands⟩
  | deployed stands => exact .deployed stands
  | carried carries storage grants => exact .carried carries storage grants

/-- **What a step does to a contract** that is not running, does not stand as a deployment and for
which nobody has a right to write. -/
theorem Step.affected (step : Step (setting.host limit) m m') (sound : m.world.contracts.Sound)
    (idle : ¬ m.Executes scriptHash) (standing : ¬ m.world.contracts.isLocal scriptHash = true)
    (safe : ¬ m.heap.Grants scriptHash) :
    Affected (m.MigratesOnto setting limit scriptHash) scriptHash m m' := by
  by_cases pays : ∃ frame i next due, Pays (setting.host limit) m frame i next due
  · obtain ⟨frame, i, next, due, pays⟩ := pays
    have other : frame.scriptHash ≠ scriptHash := by
      rintro rfl
      exact idle pays.executes
    have affected := affected_execute pays sound other standing safe
    rcases step.of_pays pays with ⟨fault, m₁, does, rfl⟩ | ⟨m₁, does, rfl | rfl⟩
    · exact (affected.error does).stop fault
    · exact affected.ok does
    · exact (affected.ok does).stop _
  · obtain ⟨world, heap⟩ := step.same_of_not_pays fun frame i next due h =>
      pays ⟨frame, i, next, due, h⟩
    refine .spared ?_ (SameStores.of_objects world (by rw [heap])).spares
    rintro ⟨frame, i, next, due, h, -⟩
    exact pays ⟨frame, i, next, due, h⟩

/-! ## Whole runs -/

/-- Before a state of a run a frame of a contract has been running, or the contract has stood as a
deployment. -/
def Entitled (run : Nat → Machine World) (n : Nat) (scriptHash : Bytes) : Prop :=
  (∃ k < n, (run k).Executes scriptHash) ∨
    ∃ k ≤ n, (run k).world.contracts.isLocal scriptHash = true

theorem Entitled.mono {run : Nat → Machine World} {n k : Nat} (hle : n ≤ k)
    (h : Entitled run n scriptHash) : Entitled run k scriptHash := by
  rcases h with ⟨j, hj, executes⟩ | ⟨j, hj, stands⟩
  · exact .inl ⟨j, Nat.lt_of_lt_of_le hj hle, executes⟩
  · exact .inr ⟨j, Nat.le_trans hj hle, stands⟩

section

variable {run : Nat → Machine World}
  (steps : ∀ n, Step (setting.host limit) (run n) (run (n + 1)))
  (sound : (run 0).world.contracts.Sound)

include steps sound

theorem sound_of_steps (n : Nat) : (run n).world.contracts.Sound := by
  induction n with
  | zero => exact sound
  | succ n ih => exact (steps n).keepsSound ih

/-- What a step of the run does to a contract without entitlement. -/
theorem affected_of_not_entitled {n : Nat} (alien : ¬ Entitled run (n + 1) scriptHash)
    (safe : ¬ (run n).heap.Grants scriptHash) :
    Affected ((run n).MigratesOnto setting limit scriptHash) scriptHash (run n) (run (n + 1)) := by
  have idle : ¬ (run n).Executes scriptHash := fun executes =>
    alien (.inl ⟨n, Nat.lt_succ_self n, executes⟩)
  have standing : ¬ (run n).world.contracts.isLocal scriptHash = true := fun stands =>
    alien (.inr ⟨n, Nat.le_succ n, stands⟩)
  exact (steps n).affected (sound_of_steps steps sound n) idle standing safe

variable (fresh : ¬ (run 0).heap.Grants scriptHash)

include fresh

/-- **Rights come from entitlement**: nobody holds the right to write into the storage of a contract
that has neither run nor been deployed. -/
theorem not_grants_of_not_entitled {n : Nat} (alien : ¬ Entitled run n scriptHash) :
    ¬ (run n).heap.Grants scriptHash := by
  induction n with
  | zero => exact fresh
  | succ n ih =>
    have safe := ih fun entitled => alien (entitled.mono (Nat.le_succ n))
    cases affected_of_not_entitled steps sound alien safe with
    | spared nothing spares => exact mt spares.grants safe
    | deployed stands => exact absurd (.inr ⟨n + 1, Nat.le_refl _, stands⟩) alien
    | carried carries storage grants => exact mt grants safe

/-- What a step of the run changes under a contract without entitlement. -/
theorem written_of_not_entitled {n : Nat} (alien : ¬ Entitled run (n + 1) scriptHash)
    (key : Bytes) :
    (run n).MigratesOnto setting limit scriptHash ∧
      written (run (n + 1)).world.storage scriptHash key =
        (written (run n).world.storage (run n).executing key).or
          (written (run n).world.storage scriptHash key) ∨
    ¬ (run n).MigratesOnto setting limit scriptHash ∧
      written (run (n + 1)).world.storage scriptHash key =
        written (run n).world.storage scriptHash key := by
  have safe := not_grants_of_not_entitled steps sound fresh fun entitled =>
    alien (entitled.mono (Nat.le_succ n))
  cases affected_of_not_entitled steps sound alien safe with
  | spared nothing spares => exact .inr ⟨nothing, spares.storage key⟩
  | deployed stands => exact absurd (.inr ⟨n + 1, Nat.le_refl _, stands⟩) alien
  | carried carries storage grants => exact .inl ⟨carries, storage key⟩

/-- Without a migration nothing is written under a contract without entitlement. -/
theorem written_eq_none {key : Bytes} (empty : written (run 0).world.storage scriptHash key = none)
    (n : Nat) :
    Entitled run n scriptHash ∨ (∃ k < n, (run k).MigratesOnto setting limit scriptHash) ∨
      written (run n).world.storage scriptHash key = none := by
  induction n with
  | zero => exact .inr (.inr empty)
  | succ n ih =>
    rcases Classical.em (Entitled run (n + 1) scriptHash) with entitled | alien
    · exact .inl entitled
    rcases ih with entitled | ⟨k, hk, onto⟩ | nothing
    · exact .inl (entitled.mono (Nat.le_succ n))
    · exact .inr (.inl ⟨k, Nat.lt_succ_of_lt hk, onto⟩)
    rcases written_of_not_entitled steps sound fresh alien key with ⟨onto, -⟩ | ⟨-, same⟩
    · exact .inr (.inl ⟨n, Nat.lt_succ_self n, onto⟩)
    · exact .inr (.inr (same.trans nothing))

end

/-- A value that may be carried over changes if it is carried over and was not there before. -/
theorem changes_iff {carries : Prop} {own before after : Option Bytes}
    (h : carries ∧ after = own.or before ∨ ¬ carries ∧ after = before) :
    after ≠ before ↔
      carries ∧ ∃ value, own = some value ∧ after = some value ∧ before ≠ some value := by
  rcases h with ⟨carries, rfl⟩ | ⟨still, rfl⟩
  · cases own with
    | none => simp
    | some value =>
      refine ⟨fun changed => ⟨carries, value, rfl, rfl, Ne.symm changed⟩, ?_⟩
      rintro ⟨-, _, own, -, changed⟩
      cases own
      exact Ne.symm changed
  · exact ⟨fun changed => absurd rfl changed, fun ⟨carries, _⟩ => absurd carries still⟩

end Machine

open Machine in
/-- **Storage changes by right, or by a migration.**  In every run, whatever the script, the
contracts and the node are, an entry of a contract that has neither been running nor been deployed
changes exactly if in this step the running script is replaced by that contract, which the node has
already, and has itself written another value under the key.  So as long as there is no such
migration nothing at all is written under the contract. -/
theorem storage_changes_by_right (setting : Setting) (limit : GasLimit) (script : Bytes)
    (dynamicInvoke : Bool) (link : Link) (scriptHash key : Bytes) (n : Nat) :
    let run := (Machine.load script dynamicInvoke (.fresh link)).runFor (setting.host limit)
    (Entitled run (n + 1) scriptHash ∨
      (written (run (n + 1)).world.storage scriptHash key ≠
          written (run n).world.storage scriptHash key ↔
        (run n).MigratesOnto setting limit scriptHash ∧ ∃ value,
          written (run n).world.storage (run n).executing key = some value ∧
          written (run (n + 1)).world.storage scriptHash key = some value ∧
          written (run n).world.storage scriptHash key ≠ some value)) ∧
    (Entitled run n scriptHash ∨ (∃ k < n, (run k).MigratesOnto setting limit scriptHash) ∨
      written (run n).world.storage scriptHash key = none) := by
  intro run
  have steps (n : Nat) : Step (setting.host limit) (run n) (run (n + 1)) := by
    show Step _ _ (Machine.runFor _ (n + 1) _)
    rw [runFor_succ]
    exact step_spec _ _
  have sound : (run 0).world.contracts.Sound := ContractOverlay.sound_empty
  have fresh : ¬ (run 0).heap.Grants scriptHash := Heap.not_grants_empty
  refine ⟨?_, written_eq_none steps sound fresh StorageOverlay.written_empty n⟩
  rcases Classical.em (Entitled run (n + 1) scriptHash) with entitled | alien
  · exact .inl entitled
  · exact .inr (changes_iff (written_of_not_entitled steps sound fresh alien key))

end DryRun
