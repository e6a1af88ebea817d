import DryRun.Proofs.Syscall.Resolution

/-!
# The history of a run

In each step a run makes the changes that its system call makes, and `Machine.history` strings them
together.  Storage and contracts are at every time what this history has made of nothing
(`Machine.makes_runFor`), and every change in it was made by a script that was running
(`Machine.by_of_mem_changes`).

So what a name stands for in a run can be read off its history.  `contracts_follow_history` says so
for all who look for a contract, at all times, which includes the middle of a migration: there the
new contract has been deployed already, and the old one is looked for in order to be destroyed.
-/

set_option autoImplicit false

namespace DryRun

open Machine (Amid Makes Outward Step)

namespace Machine

section

variable (setting : Setting) (limit : GasLimit)

/-- The changes that are made in the next step, the latest first. -/
def changes (m : Machine World) : List Change :=
  match m.call? setting limit with
  | some (call, m₁) => call.changes setting m₁
  | none => []

/-- The changes that are made in the first steps, the latest first. -/
def history (m : Machine World) : Nat → List Change
  | 0 => []
  | n + 1 => (m.runFor (setting.host limit) n).changes setting limit ++ m.history n

end

variable {setting : Setting} {limit : GasLimit} {m m' : Machine World} {change : Change}

/-! ## One step -/

/-- **A step makes its changes**, and no others. -/
theorem Step.makes (step : Step (setting.host limit) m m') :
    Makes (m.changes setting limit) m m' := by
  rw [changes]
  cases h : m.call? setting limit with
  | none =>
    exact step.keeps_of_call?_eq_none (R := Makes []) h fun name => Exec.keeps_findCallee name
  | some found =>
    obtain ⟨call, m₁⟩ := found
    have begins := begins_of_call? h
    have ready : Makes [] m m₁ := Outward.of_same begins.world (by rw [begins.heap])
    have add {m₂ : Machine World} (makes : Makes (call.changes setting m₁) m₁ m₂) :
        Makes (call.changes setting m₁) m m₂ := by
      have both := ready.trans makes
      rwa [List.append_nil] at both
    exact step.of_call? h ((call.records_run m₁).mono (fun _ _ => add) fun _ => add)
      fun m₂ fault makes => ⟨makes.stores, makes.retains, makes.objects⟩

theorem exists_call_of_mem_changes (mem : change ∈ m.changes setting limit) :
    ∃ call m₁, m.call? setting limit = some (call, m₁) ∧ change ∈ call.changes setting m₁ := by
  rw [changes] at mem
  split at mem
  · next call m₁ made => exact ⟨call, m₁, made, mem⟩
  · cases mem

/-- **Changes are made by the script that is running.** -/
theorem by_of_mem_changes (mem : change ∈ m.changes setting limit) :
    change.By m.executing ∧ m.Executes m.executing := by
  obtain ⟨call, m₁, made, mem⟩ := exists_call_of_mem_changes mem
  have begins := begins_of_call? made
  have signed := call.signed m₁ change mem
  rw [begins.executing] at signed
  exact ⟨signed, begins.executes⟩

/-! ## Whole runs -/

/-- **A run makes its history**: what it has of storage and contracts is what its history makes of
what it began with. -/
theorem makes_runFor (setting : Setting) (limit : GasLimit) (m : Machine World) (n : Nat) :
    Makes (m.history setting limit n) m (m.runFor (setting.host limit) n) := by
  induction n with
  | zero => exact .nothing rfl (.refl m.heap)
  | succ n ih => exact ih.trans (step_runFor _ m n).makes

theorem mem_history {n : Nat} : change ∈ m.history setting limit n ↔
    ∃ k < n, change ∈ (m.runFor (setting.host limit) k).changes setting limit := by
  induction n with
  | zero =>
    refine ⟨fun mem => absurd mem List.not_mem_nil, ?_⟩
    rintro ⟨k, hk, -⟩
    exact absurd hk (Nat.not_lt_zero k)
  | succ n ih =>
    rw [history, List.mem_append, ih]
    constructor
    · rintro (mem | ⟨k, hk, mem⟩)
      · exact ⟨n, Nat.lt_succ_self n, mem⟩
      · exact ⟨k, Nat.lt_succ_of_lt hk, mem⟩
    · rintro ⟨k, hk, mem⟩
      rcases Nat.lt_succ_iff_lt_or_eq.1 hk with before | rfl
      · exact .inr ⟨k, before, mem⟩
      · exact .inl mem

end Machine

/-! ## Contracts -/

section

variable (setting : Setting) (limit : GasLimit) (start : Machine World) (n : Nat)

/-- A contract stands as a deployment: under the hash of its script, behind one object, and in the
name of the script that was running when it was deployed. -/
structure Stands (scriptHash : Bytes) (d : Deployed) : Prop where
  /-- The name. -/
  name : hash160 d.contract.script = scriptHash
  /-- The object. -/
  object : (start.runFor (setting.host limit) n).heap.objects[d.object]? =
    some (.contract d.contract)
  /-- The deployment is the last thing that happened to the contract, and the one who is recorded
  as its creator was running then. -/
  creator : ∃ creator,
    (start.runFor (setting.host limit) n).world.contracts.creatorOf scriptHash = some creator ∧
    fate (start.history setting limit n) scriptHash = some (some (d, creator)) ∧
    ∃ k < n, .deployed d creator ∈ (start.runFor (setting.host limit) k).changes setting limit ∧
      (start.runFor (setting.host limit) k).Executes creator

/-- At one time of a run contracts are what their history has made of them, and everything that is
done in the next step goes by that.  The step works on machines that are on the way from the one it
has found (`Machine.Amid`). -/
structure FollowsHistory : Prop where
  /-- The contracts are what the history has made of nothing. -/
  contracts : (start.runFor (setting.host limit) n).world.contracts =
    (Stores.empty.after (start.history setting limit n)).contracts
  /-- Whoever looks for a contract finds what the history tells. -/
  resolves : ∀ m, (start.runFor (setting.host limit) n).Amid m →
    m.Resolves setting limit (start.history setting limit n)
  /-- In the middle of a migration, where a deployment may have been added, contracts are looked for
  in the same way. -/
  migrating : ∀ m, (start.runFor (setting.host limit) n).Amid m →
    ∀ found m₁, Exec.deployNew setting m = .ok found m₁ → ∀ m₂, m₁.Amid m₂ →
      m₂.Resolves setting limit
        (Exec.newChanges setting m ++ start.history setting limit n)
  /-- What is found to stand does stand. -/
  stands : ∀ scriptHash d,
    (start.runFor (setting.host limit) n).world.contracts.lookup scriptHash = some (some d) →
      Stands setting limit start n scriptHash d
  /-- A contract is deployed only if there is none of its name. -/
  deploys : ∀ m, (start.runFor (setting.host limit) n).Amid m →
    Exec.wp (Exec.deployNew setting)
      (Exec.Deploys setting (start.history setting limit n) m)
      (Exec.Undeployed setting (start.history setting limit n) m) m
  /-- Creating a contract is deploying it, and then the one that there is is pushed. -/
  creates : ∀ m, (start.runFor (setting.host limit) n).Amid m →
    Exec.wp (Exec.contract setting .create)
      (fun _ m' => ∃ found m₁, Exec.Deploys setting (start.history setting limit n) m found m₁ ∧
        Exec.Pushes found m₁ m' ∧ m'.world = m₁.world)
      (Exec.Undeployed setting (start.history setting limit n) m) m
  /-- Migrating is deploying a contract and pushing the one that there is then; it goes on to
  destroy the running script. -/
  migrates : ∀ m, (start.runFor (setting.host limit) n).Amid m →
    Exec.wp (Exec.migrate setting)
      (fun _ m' => ∃ found m₁, Exec.Deploys setting (start.history setting limit n) m found m₁ ∧
        Exec.Pushes found m₁ m')
      (fun m' => Exec.Undeployed setting (start.history setting limit n) m m' ∨
        ∃ found m₁, Exec.Deploys setting (start.history setting limit n) m found m₁ ∧
          ∃ m₂ fault, m₁.Amid m₂ ∧
            Exec.findContract setting m₁.executing m₂ = .error fault m') m

end

/-- A run knows its history. -/
theorem knows_history (setting : Setting) (limit : GasLimit) (script : Bytes)
    (dynamicInvoke : Bool) (link : Link) (n : Nat) :
    ((Machine.load script dynamicInvoke (.fresh link)).runFor (setting.host limit) n).Knows
      ((Machine.load script dynamicInvoke (.fresh link)).history setting limit n) := by
  have before : (Machine.load script dynamicInvoke (.fresh link)).Knows [] :=
    ⟨rfl, fun _ _ mem => absurd mem List.not_mem_nil⟩
  have knows := before.makes (Machine.makes_runFor setting limit _ n)
  rwa [List.append_nil] at knows

section

variable {setting : Setting} {limit : GasLimit} {start : Machine World} {n : Nat}
  {scriptHash creator : Bytes} {d : Deployed}

/-- A deployment that stands was made in the name of the script that was running. -/
theorem exists_deployment
    (stands : fate (start.history setting limit n) scriptHash = some (some (d, creator))) :
    ∃ k < n, .deployed d creator ∈ (start.runFor (setting.host limit) k).changes setting limit ∧
      (start.runFor (setting.host limit) k).Executes creator := by
  obtain ⟨k, hk, made⟩ := Machine.mem_history.1 (mem_of_fate stands).1
  obtain ⟨signed, executes⟩ := Machine.by_of_mem_changes made
  cases signed
  exact ⟨k, hk, made, executes⟩

theorem stands_of_lookup
    (knows : (start.runFor (setting.host limit) n).Knows (start.history setting limit n))
    (found : (start.runFor (setting.host limit) n).world.contracts.lookup scriptHash =
      some (some d)) : Stands setting limit start n scriptHash d := by
  obtain ⟨creator, stands⟩ := knows.fate_of_lookup found
  refine ⟨(mem_of_fate stands).2, knows.object_of_fate stands, creator, ?_, stands,
    exists_deployment stands⟩
  rw [knows.contracts, creatorOf_after, stands]
  rfl

end

/-- **Contracts follow the history of the run.**  Whatever the script, the contracts and the node
are, a name stands at every time for what was deployed under it last, for nothing if it was
destroyed since, and only if nothing has happened to it for what the node has. -/
theorem contracts_follow_history (setting : Setting) (limit : GasLimit) (script : Bytes)
    (dynamicInvoke : Bool) (link : Link) (n : Nat) :
    FollowsHistory setting limit (.load script dynamicInvoke (.fresh link)) n := by
  have knows := knows_history setting limit script dynamicInvoke link n
  exact {
    contracts := knows.contracts
    resolves := fun m amid => (knows.amid amid).resolves
    migrating := fun m amid found m₁ deploys m₂ amid₂ =>
      (((knows.amid amid).makes ((Exec.records_deployNew m).ok deploys)).amid amid₂).resolves
    stands := fun scriptHash d => stands_of_lookup knows
    deploys := fun m amid => Exec.wp_deploys (knows.amid amid).contracts
    creates := fun m amid => Exec.wp_create (knows.amid amid)
    migrates := fun m amid => Exec.wp_migrate (knows.amid amid) }

end DryRun
