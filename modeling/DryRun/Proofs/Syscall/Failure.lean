import DryRun.Proofs.Syscall.Charge
import DryRun.Proofs.Syscall.Resolution

/-!
# System calls that fail

A system call that fails leaves storage and contracts as they were, because everything that can go
wrong goes wrong before the first change.  There is one exception.  A migration deploys the new
contract and carries the storage over before it asks the node about the running contract, which it
is to destroy, and if the node does not tell, what was done stays done.

* `Exec.FailsFirst changes c` — where `c` fails there are no changes.  Together with `Exec.Records`
  this is what makes a call that fails harmless, and `FailsFirst.behind` is the rule for `do`.
* `Syscall.failsFirst_run` — all calls but one fail first.
* `Exec.Abandons` — the migration that does not, and what it leaves (`Exec.migrate_of_abandons`).
* `faults_leave_stores` — what this means for a step.  A call that leaves more items than there may
  be has changed nothing either, since those that make changes take more items than they push.
-/

set_option autoImplicit false

namespace DryRun

open Machine (Makes SameControl Step)

variable {setting : Setting} {limit : GasLimit} {m m' : Machine World}

namespace Exec

variable {α β : Type}

/-! ## Failing before the first change -/

/-- Where the computation fails there are no changes. -/
def FailsFirst (changes : Machine World → List Change) (c : Exec World α) : Prop :=
  ∀ m fault m', c m = .error fault m' → changes m = []

section

variable {c : Exec World α} {f : α → Exec World β} {changes : Machine World → List Change}
  {second : α → Machine World → List Change}

theorem failsFirst_nil (c : Exec World α) : FailsFirst (fun _ => []) c := fun _ _ _ _ => rfl

/-- A computation that does not fail. -/
theorem failsFirst_of_total (h : ∀ m, ∃ a m', c m = .ok a m') : FailsFirst changes c := by
  intro m fault m' failed
  obtain ⟨a, m₁, done⟩ := h m
  cases done.symm.trans failed

/-- **The rule for `do`**: what comes before the changes may fail. -/
theorem FailsFirst.behind (h : ∀ a, FailsFirst (second a) (f a)) :
    FailsFirst (behind c second) (c >>= f) := by
  intro m fault m' failed
  rw [bind_eq] at failed
  rw [Exec.behind]
  cases outcome : c m with
  | error fault m₁ => rfl
  | ok a m₁ =>
    rw [outcome] at failed
    exact h a m₁ fault m' failed

/-- What comes after the changes may not. -/
theorem FailsFirst.bind_total (hc : FailsFirst changes c)
    (h : ∀ a m, ∃ b m', f a m = .ok b m') : FailsFirst changes (c >>= f) := by
  intro m fault m' failed
  rw [bind_eq] at failed
  cases outcome : c m with
  | error fault m₁ => exact hc m fault m₁ outcome
  | ok a m₁ =>
    rw [outcome] at failed
    obtain ⟨b, m₂, done⟩ := h a m₁
    cases done.symm.trans failed

end

theorem total_pushContract (found : FoundContract) (m : Machine World) :
    ∃ u m', pushContract found m = .ok u m' := by
  cases found <;> exact ⟨_, _, rfl⟩

theorem failsFirst_deploy (contract : Contract) :
    FailsFirst (deployChanges setting contract) (deploy setting contract) := by
  refine .behind fun found => failsFirst_of_total fun m => ?_
  cases found <;> exact ⟨_, _, rfl⟩

theorem failsFirst_deployNew : FailsFirst (newChanges setting) (deployNew setting) :=
  .behind failsFirst_deploy

theorem failsFirst_destroyContract (scriptHash : Bytes) :
    FailsFirst (destroyChanges setting scriptHash) (destroyContract setting scriptHash) := by
  refine .behind fun found => failsFirst_of_total fun m => ?_
  cases found <;> exact ⟨_, _, rfl⟩

theorem failsFirst_store (deposit : Deposit) :
    FailsFirst (fun _ => deposit.changes) (store deposit) := by
  intro m fault m' failed
  rw [Deposit.changes]
  cases readOnly : deposit.context.readOnly with
  | true => rfl
  | false =>
    rw [store, get_bind, StorageOverlay.write_of_not_readOnly readOnly] at failed
    cases failed

/-! ## A migration that is not finished -/

/-- The node does not tell whether there is a contract of a name. -/
def Untold (setting : Setting) (scriptHash : Bytes) (m : Machine World) : Prop :=
  ∃ fault m', findContract setting scriptHash m = .error fault m'

/-- Whether it tells depends on the contracts of the run and on the conversation. -/
theorem untold_congr {scriptHash : Bytes} (contracts : m'.world.contracts = m.world.contracts)
    (link : m'.world.link = m.world.link) :
    Untold setting scriptHash m' ↔ Untold setting scriptHash m := by
  rw [Untold, Untold, findContract_eq, findContract_eq, contracts]
  cases m.world.contracts.lookup scriptHash with
  | some fate => simp
  | none =>
    dsimp only
    rw [bind_eq, bind_eq, asking_eq, asking_eq, link]
    cases setting.node.contract scriptHash setting.height m.world.link with
    | ok found link => exact iff_of_false (fun ⟨_, _, h⟩ => nomatch h) fun ⟨_, _, h⟩ => nomatch h
    | error cause link => exact iff_of_true ⟨_, _, rfl⟩ ⟨_, _, rfl⟩

theorem Untold.changes {scriptHash : Bytes} (h : Untold setting scriptHash m) :
    destroyChanges setting scriptHash m = [] := by
  obtain ⟨fault, m', untold⟩ := h
  rw [destroyChanges, behind, untold]

/-- Pushing a contract and destroying another one fails if it cannot be told whether there is
one. -/
theorem push_destroy_fails_iff (found : FoundContract) (scriptHash : Bytes) :
    (∃ fault m', (do pushContract found; destroyContract setting scriptHash : Exec World Unit) m =
      .error fault m') ↔ Untold setting scriptHash m := by
  have destroys (m : Machine World) :
      (∃ fault m', destroyContract setting scriptHash m = .error fault m') ↔
        Untold setting scriptHash m := by
    rw [Untold, destroyContract]
    simp only [bind_eq]
    cases findContract setting scriptHash m with
    | error fault m₁ => exact iff_of_true ⟨_, _, rfl⟩ ⟨_, _, rfl⟩
    | ok found m₁ =>
      refine iff_of_false (fun ⟨_, _, failed⟩ => ?_) fun ⟨_, _, failed⟩ => nomatch failed
      cases found <;> cases failed
  obtain ⟨u, m₁, pushed⟩ := total_pushContract found m
  have world : m₁.world = m.world := by cases found <;> cases pushed <;> rfl
  rw [bind_eq, pushed]
  exact (destroys m₁).trans (untold_congr (by rw [world]) (by rw [world]))

/-- What the running contract has written is carried over, if that is to be done. -/
def carriedChanges (m : Machine World) (found : FoundContract) : List Change :=
  if found.contract.hasStorage ∧ found.contract.scriptHash ≠ m.executing then
    [.carried m.executing found.contract.scriptHash]
  else []

/-- There is a contract to take the place of the running one, but then, when that one is to be
destroyed, the node does not tell whether there is one. -/
def Abandons (setting : Setting) (m : Machine World) (found : FoundContract) : Prop :=
  ∃ m₁, deployNew setting m = .ok found m₁ ∧ Untold setting m.executing m₁

/-- Once it is known what takes its place, the running contract is destroyed if it can be told
whether there is one. -/
theorem migrate_fails_iff {found : FoundContract} {m₁ : Machine World}
    (comes : deployNew setting m = .ok found m₁) :
    (∃ fault m', migrate setting m = .error fault m') ↔ Untold setting m.executing m₁ := by
  have same : m₁.executing = m.executing := (control_deployNew.ok comes).executing
  rw [migrate_eq, bind_eq, comes, ← same]
  show (∃ fault m', (if found.contract.hasStorage ∧ found.contract.scriptHash ≠ m₁.executing
    then _ else _ : Exec World Unit) m₁ = .error fault m') ↔ _
  split
  · let copied : Machine World := { m₁ with world := { m₁.world with
      storage := m₁.world.storage.copy m₁.executing found.contract.scriptHash } }
    exact (push_destroy_fails_iff (m := copied) found m₁.executing).trans (untold_congr rfl rfl)
  · exact push_destroy_fails_iff found m₁.executing

/-- **A migration that fails** has changed nothing, or it is abandoned. -/
theorem migrate_eq_error {fault : Fault} (failed : migrate setting m = .error fault m') :
    migrateChanges setting m = [] ∨ ∃ found, Abandons setting m found := by
  cases comes : deployNew setting m with
  | error fault' m₁ =>
    left
    rw [migrateChanges, behind, comes, failsFirst_deployNew m fault' m₁ comes]
    rfl
  | ok found m₁ => exact .inr ⟨found, m₁, comes, (migrate_fails_iff comes).1 ⟨fault, m', failed⟩⟩

/-- **A migration that is abandoned** fails, and leaves the new contract and what was carried over
to it. -/
theorem migrate_of_abandons {found : FoundContract} (h : Abandons setting m found) :
    (∃ fault m', migrate setting m = .error fault m') ∧
      migrateChanges setting m = carriedChanges m found ++ newChanges setting m := by
  obtain ⟨m₁, comes, untold⟩ := h
  have same : m₁.executing = m.executing := (control_deployNew.ok comes).executing
  refine ⟨(migrate_fails_iff comes).2 untold, ?_⟩
  rw [migrateChanges, behind, comes]
  dsimp only
  rw [replaceChanges, same, untold.changes, List.nil_append, carriedChanges]

/-! ## Calls that make changes leave no more items -/

/-- There are no more items on the two stacks than before. -/
def Narrows (m m' : Machine World) : Prop :=
  m'.stack.depth + m'.alt.depth ≤ m.stack.depth + m.alt.depth

/-- The stacks are the same. -/
def SameStacks (m m' : Machine World) : Prop := m'.stack = m.stack ∧ m'.alt = m.alt

theorem SameStacks.narrows (h : SameStacks m m') : Narrows m m' :=
  Nat.le_of_eq (by rw [h.1, h.2])

theorem sameStacks_findContract {scriptHash : Bytes} {found : Option FoundContract}
    (done : findContract setting scriptHash m = .ok found m') : SameStacks m m' := by
  obtain ⟨link, rfl⟩ := (onlyLink_findContract _).ok done
  exact ⟨rfl, rfl⟩

theorem sameStacks_deploy {contract : Contract} {found : FoundContract}
    (done : deploy setting contract m = .ok found m') : SameStacks m m' := by
  obtain ⟨already, m₁, looked, done⟩ := bind_eq_ok done
  have same := sameStacks_findContract looked
  cases already <;> cases done <;> exact same

theorem sameStacks_destroyContract {scriptHash : Bytes}
    (done : destroyContract setting scriptHash m = .ok () m') : SameStacks m m' := by
  obtain ⟨found, m₁, looked, done⟩ := bind_eq_ok done
  have same := sameStacks_findContract looked
  cases found <;> cases done <;> exact same

/-- A contract is described by items, of which there is at least one, and only it is pushed. -/
theorem narrows_of_deployNew {found : FoundContract} {m₁ m₂ : Machine World}
    (comes : deployNew setting m = .ok found m₁) (pushed : pushContract found m₂ = .ok () m')
    (same : SameStacks m₁ m₂) : Narrows m m' := by
  obtain ⟨contract, operands, rest, items, describes, deployed⟩ :=
    takes_popNewContract.of_bind comes
  obtain ⟨stack, alt⟩ := sameStacks_deploy deployed
  have some : operands ≠ [] := by
    rintro rfl
    exact describes
  have enough : 0 < operands.length := List.length_pos_iff.2 some
  have left : m₁.stack.depth + operands.length = m.stack.depth := by
    rw [stack, Stack.depth, Stack.depth, items, List.length_append, Nat.add_comm]
    rfl
  have after : m'.stack.depth = m₁.stack.depth + 1 ∧ m'.alt = m.alt := by
    have alt₂ : m₂.alt = m.alt := same.2.trans alt
    rw [← same.1]
    cases found <;> cases pushed <;> exact ⟨rfl, alt₂⟩
  rw [Narrows, after.1, after.2]
  omega

theorem narrows_create (done : contract setting .create m = .ok () m') : Narrows m m' := by
  rw [create_eq] at done
  obtain ⟨found, m₁, comes, pushed⟩ := bind_eq_ok done
  exact narrows_of_deployNew comes pushed ⟨rfl, rfl⟩

theorem narrows_migrate (done : migrate setting m = .ok () m') : Narrows m m' := by
  rw [migrate_eq] at done
  obtain ⟨found, m₁, comes, done⟩ := bind_eq_ok done
  have finish {m₂ : Machine World} {source : Bytes}
      (done : (do pushContract found; destroyContract setting source : Exec World Unit) m₂ =
        .ok () m') (same : SameStacks m₁ m₂) : Narrows m m' := by
    obtain ⟨u, m₃, pushed, destroyed⟩ := bind_eq_ok done
    have less := narrows_of_deployNew comes pushed same
    exact Nat.le_trans (sameStacks_destroyContract destroyed).narrows less
  obtain ⟨source, m₂, named, done⟩ := bind_eq_ok done
  cases named
  dsimp only at done
  split at done
  · obtain ⟨u, m₂, copied, done⟩ := bind_eq_ok done
    cases copied
    exact finish done ⟨rfl, rfl⟩
  · exact finish done ⟨rfl, rfl⟩

theorem narrows_store {c : Exec World Deposit} {P : List Item → Deposit → Prop}
    (takes : Takes m.heap P c) (done : (c >>= store) m = .ok () m') : Narrows m m' := by
  obtain ⟨deposit, operands, rest, items, -, done⟩ := takes.of_bind done
  have same : SameStacks (m.withItems rest) m' := by
    rw [store, get_bind] at done
    cases written : (m.withItems rest).world.storage.write deposit.context deposit.key
        deposit.value with
    | error cause => rw [written] at done; cases done
    | ok storage =>
      rw [written] at done
      cases done
      exact ⟨rfl, rfl⟩
  refine Nat.le_trans same.narrows (Nat.add_le_add_right ?_ _)
  rw [Stack.depth, Stack.depth, items, List.length_append]
  exact Nat.le_add_left _ _

end Exec

namespace Syscall

variable {call : Syscall}

/-- **All calls but one fail first.** -/
theorem failsFirst_run (call : Syscall) (other : call ≠ .contract .migrate) :
    Exec.FailsFirst (call.changes setting) (call.run setting) := by
  cases reaches : call.reaches with
  | false =>
    rw [changes_of_not_reaches reaches]
    exact Exec.failsFirst_nil _
  | true =>
    cases call with
    | contract call =>
      cases call with
      | create =>
        show Exec.FailsFirst _ (Exec.contract setting .create)
        rw [Exec.create_eq]
        exact Exec.failsFirst_deployNew.bind_total Exec.total_pushContract
      | migrate => exact absurd rfl other
      | destroy => exact fun m => Exec.failsFirst_destroyContract m.executing m
      | getStorageContext => exact Exec.failsFirst_nil _
      | getScript | isPayable => cases reaches
    | storage call =>
      cases call with
      | getContext => exact Exec.failsFirst_nil _
      | put =>
        show Exec.FailsFirst _ (Exec.put false)
        rw [Exec.put_eq]
        exact .behind Exec.failsFirst_store
      | putEx =>
        show Exec.FailsFirst _ (Exec.put true)
        rw [Exec.put_eq]
        exact .behind Exec.failsFirst_store
      | delete =>
        show Exec.FailsFirst _ Exec.delete
        rw [Exec.delete_eq]
        exact .behind Exec.failsFirst_store
      | getReadOnlyContext | get | find | asReadOnly => cases reaches
    | _ => cases reaches

/-- **Calls that make changes** leave no more items than there were. -/
theorem narrows_run {call : Syscall} (some : call.changes setting m ≠ [])
    (done : call.run setting m = .ok () m') : Exec.Narrows m m' := by
  rw [changes.eq_def] at some
  split at some
  · exact Exec.narrows_create done
  · exact Exec.narrows_migrate done
  · exact (Exec.sameStacks_destroyContract done).narrows
  case h_7 => exact absurd rfl some
  · exact Exec.narrows_store (Exec.takes_popDeposit false) (Exec.put_eq false ▸ done)
  · exact Exec.narrows_store (Exec.takes_popDeposit true) (Exec.put_eq true ▸ done)
  · exact Exec.narrows_store Exec.takes_popDeletion (Exec.delete_eq ▸ done)

end Syscall

/-! ## Steps -/

namespace Machine

variable {call : Syscall} {m₁ : Machine World}

theorem Begins.stores_eq (begins : m.Begins m₁) {changes : List Change} (nothing : changes = [])
    (makes : Makes changes m₁ m') : m'.world.stores = m.world.stores := by
  rw [makes.stores, nothing, Stores.after_nil, begins.world]

/-- What a call leaves of storage and contracts where it fails. -/
theorem Begins.stores_of_error (begins : m.Begins m₁) {fault : Fault}
    (failed : call.run setting m₁ = .error fault m') :
    m'.world.stores = m.world.stores ∨
      call = .contract .migrate ∧ ∃ found, Exec.Abandons setting m₁ found := by
  have makes := (call.records_run m₁).error failed
  by_cases migrates : call = .contract .migrate
  · subst migrates
    exact (Exec.migrate_eq_error failed).imp (begins.stores_eq · makes) fun abandons =>
      ⟨rfl, abandons⟩
  · exact .inl (begins.stores_eq (call.failsFirst_run migrates m₁ fault m' failed) makes)

/-- A call after which there are too many items has changed neither storage nor contracts. -/
theorem Begins.stores_of_overfull (begins : m.Begins m₁)
    (room : m.stack.depth + m.alt.depth ≤ maxStackItems) (done : call.run setting m₁ = .ok () m')
    (full : m'.stack.depth + m'.alt.depth > maxStackItems) :
    m'.world.stores = m.world.stores := by
  refine begins.stores_eq (Decidable.byContradiction fun some => ?_) ((call.records_run m₁).ok done)
  have narrows := Syscall.narrows_run some done
  rw [Exec.Narrows, begins.stack, begins.alt] at narrows
  omega

end Machine

/-- **What a step that fails leaves of storage and contracts.** -/
structure Machine.FaultsInPlace (setting : Setting) (limit : GasLimit) (m : Machine World) :
    Prop where
  /-- A step that does not come to make a system call leaves storage and contracts as they were. -/
  silent : m.call? setting limit = none →
    (m.step (setting.host limit)).world.stores = m.world.stores
  /-- A step that makes a call and fails, in the call or because there are too many items then,
  leaves storage and contracts as they were, unless a migration is abandoned. -/
  faulted : ∀ call m₁ fault, m.call? setting limit = some (call, m₁) →
    m.stack.depth + m.alt.depth ≤ Machine.maxStackItems →
    (m.step (setting.host limit)).status = .faulted fault →
    (m.step (setting.host limit)).world.stores = m.world.stores ∨
      call = .contract .migrate ∧ ∃ found, Exec.Abandons setting m₁ found
  /-- A migration that is abandoned fails.  The new contract stays if it was deployed for this, and
  so does what was carried over to it. -/
  abandoned : ∀ m₁ found, m.call? setting limit = some (.contract .migrate, m₁) →
    Exec.Abandons setting m₁ found →
    (∃ fault, (m.step (setting.host limit)).status = .faulted fault) ∧
      (m.step (setting.host limit)).world.stores =
        m.world.stores.after (Exec.carriedChanges m₁ found ++ Exec.newChanges setting m₁)

/-- **Calls that fail leave storage and contracts as they were**, whatever the machine is, whichever
call it makes and whatever the node does, with one exception: a migration that is abandoned. -/
theorem faults_leave_stores (setting : Setting) (limit : GasLimit) (m : Machine World) :
    m.FaultsInPlace setting limit where
  silent none := by
    have step := Machine.step_spec (setting.host limit) m
    exact (step.keeps_of_call?_eq_none (R := Makes []) none fun name =>
      Exec.keeps_findCallee name).stores
  faulted call m₁ fault made room faulted := by
    have begins := Machine.begins_of_call? made
    rw [Machine.step_of_call? made] at faulted ⊢
    cases outcome : call.run setting m₁ with
    | error cause m' =>
      have stores := begins.stores_of_error outcome
      exact stores
    | ok u m' =>
      rw [outcome] at faulted
      dsimp only at faulted ⊢
      split at faulted
      · next full =>
        rw [if_pos full]
        have stores := begins.stores_of_overfull room outcome full
        exact .inl stores
      · have control : SameControl m₁ m' := (call.keeps_run_all setting).ok outcome
        rw [control.status, Machine.status_of_call? made] at faulted
        cases faulted
  abandoned m₁ found made abandons := by
    obtain ⟨⟨fault, m', failed⟩, changes⟩ := Exec.migrate_of_abandons abandons
    have makes : Makes (Exec.migrateChanges setting m₁) m₁ m' :=
      (Syscall.records_run (.contract .migrate) m₁).error failed
    have world := (Machine.begins_of_call? made).world
    have run : (Syscall.contract .migrate).run setting m₁ = .error fault m' := failed
    rw [Machine.step_of_call? made, run]
    refine ⟨⟨fault, rfl⟩, ?_⟩
    rw [← changes, ← world]
    exact makes.stores

end DryRun
