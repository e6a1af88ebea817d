import DryRun.Proofs.Chain.Contract
import DryRun.Proofs.Machine.Progress
import DryRun.Proofs.Syscall.Discreet

/-!
# System calls that reach into storage and contracts

Eight system calls change the storage or the contracts of a run, or hand out the right to.  They
are gone through here for every relation that allows the changes they make.  With the others they
are put together twice: for the relations that do not look at storage and contracts
(`Machine.ContractBlind`) by `Syscall.keeps_run_of_not_grants`, and for those that do not look at
rights to write either (`Machine.GrantBlind`) by `Syscall.keeps_run_all`.

One such relation is the order of execution: no system call reaches into the frames, the gas or the
status.  So the host of a run is calm (`Setting.host_calm`), and this stays so if contracts are
looked up elsewhere than in the chain and the run (`Setting.hostWith_calm`).
-/

set_option autoImplicit false

namespace DryRun

open Machine (CreationBlind Discreet EventBlind GrowthBlind ObjectBlind QueryBlind SameControl)

variable {R : Machine World → Machine World → Prop}

namespace Exec

section

variable [CreationBlind R] {setting : Setting} [QueryBlind setting.height R]

/-! ## Storage -/

/-- A write through a context, which may be refused. -/
theorem keeps_write {context : StorageContext} {key value : Bytes}
    (stored : ∀ m storage, m.world.storage.write context key value = .ok storage →
      R m { m with world := { m.world with storage } }) :
    Keeps R (do
      match (← get).world.storage.write context key value with
      | .ok storage => modifyWorld ({ · with storage })
      | .error cause => refuse cause) := by
  intro m
  refine wp_bind.2 ?_
  show wp (match m.world.storage.write context key value with
    | .ok storage => modifyWorld ({ · with storage })
    | .error cause => refuse cause) _ _ m
  cases outcome : m.world.storage.write context key value with
  | ok storage => exact stored m storage outcome
  | error cause => exact keeps_refuse cause m

section

variable {m : Machine World} {P : StorageContext → Prop}

/-- Putting a value changes only the storage, and that through the context it was given. -/
theorem wp_put (withFlags : Bool) (given : wp popContext (fun c _ => P c) (fun _ => True) m)
    (stored : ∀ c, P c → ∀ m key value storage, m.world.storage.write c key value = .ok storage →
      R m { m with world := { m.world with storage } }) :
    wp (put withFlags) (fun _ => R m) (R m) m := by
  refine (keeps_popObject _ _).bind_at given fun context hcontext => ?_
  refine keeps_popBytes.bind fun key => ?_
  refine (keeps_refuse _).guarded fun _ => keeps_popBytes.bind fun value => ?_
  refine (keeps_refuse _).guarded fun _ => ?_
  refine Keeps.ite (keeps_popInt.bind fun _ => ?_) ?_
  · exact keeps_write fun m => stored context hcontext m key value
  · exact keeps_write fun m => stored context hcontext m key value

/-- A deletion changes only the storage, and that through the context it was given. -/
theorem wp_delete (given : wp popContext (fun c _ => P c) (fun _ => True) m)
    (stored : ∀ c, P c → ∀ m key value storage, m.world.storage.write c key value = .ok storage →
      R m { m with world := { m.world with storage } }) :
    wp delete (fun _ => R m) (R m) m :=
  (keeps_popObject _ _).bind_at given fun context hcontext => keeps_popBytes.bind fun key =>
    keeps_write fun m => stored context hcontext m key []

end

/-! ## Contracts -/

/-- A contract that is deployed is deployed in the name of the running script. -/
theorem keeps_deploy {contract : Contract}
    (deployed : ∀ m object creator, R m { m with world := { m.world with
      contracts := m.world.contracts.deploy ⟨contract, object⟩ (some creator) } }) :
    Keeps R (deploy setting contract) := by
  refine (keeps_findContract _).bind fun found => ?_
  cases found with
  | some found => exact keeps_pure _
  | none =>
    have plain : (Object.contract contract).Plain := trivial
    refine (CreationBlind.made plain).bind fun handle => keeps_executing.bind fun creator => ?_
    exact Keeps.bind (keeps_modify fun m => deployed m _ _) fun _ => keeps_pure _

theorem keeps_destroyContract {scriptHash : Bytes}
    (destroyed : ∀ m, R m { m with world := { m.world with
      contracts := m.world.contracts.destroy scriptHash
      storage := m.world.storage.wipe scriptHash } }) :
    Keeps R (destroyContract setting scriptHash) :=
  (keeps_findContract _).bind fun _ => (keeps_modify destroyed).ite (keeps_pure _)

end

end Exec

/-! ## All system calls -/

/-- A relation that does not look at storage and contracts. -/
class Machine.ContractBlind (R : Machine World → Machine World → Prop) : Prop where
  /-- The storage may change. -/
  stored : ∀ m storage, R m { m with world := { m.world with storage } }
  /-- Contracts with a short script may be deployed. -/
  deployed : ∀ {contract : Contract}, contract.IsShort → ∀ m object creator,
    R m { m with world := { m.world with
      contracts := m.world.contracts.deploy ⟨contract, object⟩ (some creator) } }
  /-- Contracts may be destroyed. -/
  destroyed : ∀ m scriptHash, R m { m with world := { m.world with
    contracts := m.world.contracts.destroy scriptHash
    storage := m.world.storage.wipe scriptHash } }

/-- A relation that looks neither at objects nor at storage and contracts. -/
class Machine.StoreBlind (R : Machine World → Machine World → Prop) : Prop extends
    ObjectBlind R, ContractBlind R

/-- A relation that does not look at rights to write. -/
class Machine.GrantBlind (R : Machine World → Machine World → Prop) : Prop where
  /-- Rights to write may be handed out. -/
  granted : ∀ context, Exec.Keeps R (Exec.onHeap (·.makeObject (.storageContext context)))

/-- A relation that allows all that system calls do, whatever they ask. -/
class Machine.Tolerant (R : Machine World → Machine World → Prop) : Prop extends
    Discreet R, StoreBlind R, GrantBlind R

open Machine (ContractBlind StoreBlind GrantBlind Tolerant)

namespace Exec

section

variable [CreationBlind R] [ContractBlind R] {setting : Setting} [QueryBlind setting.height R]

/-- Deploying the contract that is described on the stack. -/
theorem keeps_deployNew {β : Type} {f : FoundContract → Exec World β} (hf : ∀ a, Keeps R (f a)) :
    Keeps R (do f (← deploy setting (← popNewContract))) :=
  keeps_popNewContract.bind_of_returns returns_popNewContract fun _ short =>
    (keeps_deploy (ContractBlind.deployed short)).bind hf

theorem keeps_migrate : Keeps R (migrate setting) := by
  refine keeps_deployNew fun found => keeps_executing.bind fun source => ?_
  refine (keeps_modify fun m => ContractBlind.stored m _).guarded fun _ => ?_
  exact (keeps_pushContract found).bind fun _ => keeps_destroyContract fun m =>
    ContractBlind.destroyed m source

end

section

variable [GrowthBlind R] [GrantBlind R]

theorem keeps_grant (context : StorageContext) :
    Keeps R (pushObject (.storageContext context) : Exec World Unit) :=
  (GrantBlind.granted context).bind fun _ => keeps_push _

theorem keeps_contractStorage : Keeps R contractStorage :=
  (keeps_popObject _ _).bind fun _ => keeps_get.bind fun _ => keeps_executing.bind fun _ =>
    (keeps_refuse _).guarded fun _ => keeps_grant _

end

end Exec

/-- Does a system call hand out the right to write into a storage? -/
def Syscall.grants : Syscall → Bool
  | .contract .getStorageContext | .storage .getContext => true
  | _ => false

namespace Syscall

variable (setting : Setting) {call : Syscall}

/-- Most of the calls that reach into storage and contracts hand out no right to write. -/
theorem keeps_run_of_reaches [CreationBlind R] [ContractBlind R] [QueryBlind setting.height R]
    (reaches : call.reaches = true) (h : call.grants = false) :
    Exec.Keeps R (call.run setting) := by
  have given (m : Machine World) :
      Exec.wp Exec.popContext (fun _ _ => True) (fun _ => True) m :=
    (Exec.keeps_popObject (R := R) _ _ m).mono (fun _ _ _ => trivial) fun _ _ => trivial
  cases call with
  | contract call =>
    cases call with
    | create => exact Exec.keeps_deployNew fun found => Exec.keeps_pushContract found
    | migrate => exact Exec.keeps_migrate
    | destroy =>
      exact Exec.keeps_executing.bind fun source => Exec.keeps_destroyContract fun m =>
        ContractBlind.destroyed m source
    | getStorageContext => cases h
    | getScript | isPayable => cases reaches
  | storage call =>
    cases call with
    | getContext => cases h
    | put =>
      exact fun m => Exec.wp_put false (given m) fun _ _ m _ _ _ _ => ContractBlind.stored m _
    | putEx =>
      exact fun m => Exec.wp_put true (given m) fun _ _ m _ _ _ _ => ContractBlind.stored m _
    | delete =>
      exact fun m => Exec.wp_delete (given m) fun _ _ m _ _ _ _ => ContractBlind.stored m _
    | getReadOnlyContext | get | find | asReadOnly => cases reaches
  | _ => cases reaches

/-- The calls that hand out a right to write do little else. -/
theorem keeps_run_of_grants [GrowthBlind R] [GrantBlind R] (h : call.grants = true) :
    Exec.Keeps R (call.run setting) := by
  cases call with
  | contract call =>
    cases call with
    | getStorageContext => exact Exec.keeps_contractStorage
    | create | migrate | destroy | getScript | isPayable => cases h
  | storage call =>
    cases call with
    | getContext => exact Exec.keeps_executing.bind fun _ => Exec.keeps_grant _
    | getReadOnlyContext | get | put | putEx | delete | find | asReadOnly => cases h
  | _ => cases h

/-- **A system call that hands out no right to write** keeps the relations that do not look at
storage and contracts. -/
theorem keeps_run_of_not_grants [EventBlind R] [ContractBlind R] [QueryBlind setting.height R]
    (h : call.grants = false) : Exec.Keeps R (call.run setting) := by
  cases reaches : call.reaches with
  | false => exact keeps_run setting reaches
  | true => exact keeps_run_of_reaches setting reaches h

/-- **Every system call** keeps the relations that allow all that can be done. -/
theorem keeps_run_all [EventBlind R] [ContractBlind R] [GrantBlind R]
    [QueryBlind setting.height R] (call : Syscall) : Exec.Keeps R (call.run setting) := by
  cases grants : call.grants with
  | false => exact keeps_run_of_not_grants setting grants
  | true => exact keeps_run_of_grants setting grants

/-- **A system call that changes no object** keeps the relations that do not look at what is made,
at storage and contracts, and at rights to write. -/
theorem keeps_run_of_changes_no_object [CreationBlind R] [ContractBlind R] [GrantBlind R]
    [QueryBlind setting.height R] (h : call.changesObject = false) :
    Exec.Keeps R (call.run setting) := by
  cases grants : call.grants with
  | true => exact keeps_run_of_grants setting grants
  | false =>
    cases reaches : call.reaches with
    | false => exact keeps_run_of_not_changesObject setting reaches h
    | true => exact keeps_run_of_reaches setting reaches grants

end Syscall

instance : Tolerant SameControl where
  stored _ _ := ⟨rfl, rfl, rfl⟩
  deployed _ _ _ _ := ⟨rfl, rfl, rfl⟩
  destroyed _ _ := ⟨rfl, rfl, rfl⟩
  granted _ _ := ⟨rfl, rfl, rfl⟩

/-! ## The host of a run -/

/-- The host of a run, but for contracts, which are looked up as `contract` says. -/
def Setting.hostWith (setting : Setting) (limit : GasLimit)
    (contract : Bytes → Exec World (Option Callee)) : Host World :=
  { setting.host limit with contract }

namespace Setting

variable (setting : Setting) (limit : GasLimit) {contract : Bytes → Exec World (Option Callee)}

/-! The parts of the host are stated one by one.  Rewriting with these keeps the registry, which
is a large closed term, from being unfolded. -/

theorem host_eq_hostWith :
    setting.host limit = setting.hostWith limit (Exec.findCallee setting) := by
  rw [hostWith, host]

theorem contract_hostWith : (setting.hostWith limit contract).contract = contract := by
  rw [hostWith]

theorem price_hostWith :
    (setting.hostWith limit contract).price = some (Price.amount Syscall.registry) := by
  rw [hostWith, host]

theorem syscall_hostWith (id : Nat) : (setting.hostWith limit contract).syscall id =
    (Syscall.registry.find? id).map fun entry => entry.handler.run setting := by
  rw [hostWith, host]

theorem gasLimit_hostWith : (setting.hostWith limit contract).gasLimit = limit := by
  rw [hostWith, host]

theorem contract_host : (setting.host limit).contract = Exec.findCallee setting := by rw [host]

theorem gasLimit_host : (setting.host limit).gasLimit = limit := by rw [host]

/-- A system call that the host knows is one of the list. -/
theorem exists_of_syscall_hostWith {id : Nat} {call : Exec World Unit}
    (h : (setting.hostWith limit contract).syscall id = some call) :
    ∃ c : Syscall, call = c.run setting := by
  rw [syscall_hostWith, Option.map_eq_some_iff] at h
  obtain ⟨entry, -, rfl⟩ := h
  exact ⟨entry.handler, rfl⟩

/-- The host of a run is calm, wherever it looks up contracts, if it is calm in doing so. -/
theorem hostWith_calm (h : ∀ name, Exec.Keeps SameControl (contract name)) :
    (setting.hostWith limit contract).Calm where
  contract := by
    rw [contract_hostWith]
    exact h
  syscall id call found := by
    obtain ⟨c, rfl⟩ := setting.exists_of_syscall_hostWith limit found
    exact Syscall.keeps_run_all setting c

theorem host_calm : (setting.host limit).Calm := by
  rw [host_eq_hostWith]
  exact hostWith_calm setting limit fun name => Exec.keeps_findCallee name

theorem hostWith_metered (h : ∀ name, Exec.Keeps SameControl (contract name)) :
    (setting.hostWith limit contract).Metered Syscall.registry :=
  ⟨setting.hostWith_calm limit h, setting.price_hostWith limit⟩

theorem host_metered : (setting.host limit).Metered Syscall.registry := by
  rw [host_eq_hostWith]
  exact setting.hostWith_metered limit fun name => Exec.keeps_findCallee name

end Setting

end DryRun
