import DryRun.Proofs.Syscall.Deployed
import DryRun.Proofs.World.Storage

/-!
# Whose storage a system call can change

Fix a contract.  A system call changes what is written in its storage only if the contract is
running, or stands as a deployment of the run, or if somebody holds the right to write there.  In
every other case the call spares the contract (`Machine.Spares`), with one exception: a script that
replaces itself by a contract which the node has already carries its own storage over to that
contract.  `Machine.Adopts` says that a migration does that, and `Machine.Affected` lists what can
happen to the contract.

* `Syscall.spares_run` — every call but a migration spares the contract.
* `Exec.affected_migrate` — so does a migration, unless it carries something over to it.
-/

set_option autoImplicit false

namespace DryRun

open Machine (Discreet ItemBlind ObjectBlind Outward SameControl SameStores)
open StorageOverlay (written)

variable {scriptHash : Bytes} {m m' : Machine World}

/-! ## Sparing a contract -/

namespace Machine

/-- What is written under a contract is the same, nobody has got the right to write there, and if
the contract stood as a deployment it still does. -/
structure Spares (scriptHash : Bytes) (m m' : Machine World) : Prop where
  /-- What is written is the same. -/
  storage : ∀ key, written m'.world.storage scriptHash key = written m.world.storage scriptHash key
  /-- A right to write was there before. -/
  grants : m'.heap.Grants scriptHash → m.heap.Grants scriptHash
  /-- A deployment still stands. -/
  stands : m.world.contracts.isLocal scriptHash = true →
    m'.world.contracts.isLocal scriptHash = true

theorem SameStores.spares (h : SameStores m m') : Spares scriptHash m m' :=
  ⟨fun _ => by rw [h.storage], h.grants scriptHash, fun stands => by rwa [h.contracts]⟩

instance : Outward (Spares scriptHash) where
  trans h k := ⟨fun key => (k.storage key).trans (h.storage key), fun granted =>
    h.grants (k.grants granted), fun stands => k.stands (h.stands stands)⟩
  of_same world objects := (SameStores.of_objects world objects).spares

instance : Discreet (Spares scriptHash) where
  asked node query read :=
    (Discreet.asked (R := SameStores) node query read).mono SameStores.spares
  announced event := (ObjectBlind.announced (R := SameStores) event).mono SameStores.spares
  evolved m heap h := (ObjectBlind.evolved (R := SameStores) m heap h).spares

end Machine

open Machine (Spares)

/-! ## Contexts -/

namespace Exec

/-- **A context that allows writes is a right to write.** -/
theorem wp_popContext :
    wp popContext (fun c _ => c.readOnly = false → m.heap.Grants c.scriptHash)
      (fun _ => True) m := by
  rw [popContext, popObject, map_eq_pure_bind]
  refine wp_bind.2 ((wp_popHandle _ _).mono ?_ fun _ _ => trivial)
  rintro ⟨h, context⟩ m₁ ⟨object, behind, selected⟩ writable
  split at selected
  · cases selected
    refine ⟨h.root, ?_⟩
    rw [Heap.objects_of_object? (Object.whole_storageContext context) behind, ← writable]
  · cases selected

/-- What a context does not lead to is not written through it. -/
theorem spares_write {context : StorageContext} (other : context.readOnly = false →
    context.scriptHash ≠ scriptHash) (m : Machine World) (key value : Bytes)
    (storage : StorageOverlay) (h : m.world.storage.write context key value = .ok storage) :
    Spares scriptHash m { m with world := { m.world with storage } } := by
  refine ⟨fun key' => ?_, id, id⟩
  rw [StorageOverlay.write] at h
  split at h
  · cases h
  · next writable =>
    cases h
    rw [Bool.not_eq_true] at writable
    exact (StorageOverlay.written_insert _ key value).trans
      (if_neg fun same => other writable same.1)

/-- **Putting a value** changes nothing of a contract if nobody may write there. -/
theorem spares_put (safe : ¬ m.heap.Grants scriptHash) (withFlags : Bool) :
    wp (put withFlags) (fun _ => Spares scriptHash m) (Spares scriptHash m) m :=
  wp_put withFlags wp_popContext fun _ granted => spares_write fun writable same =>
    safe (same ▸ granted writable)

/-- **A deletion** changes nothing of a contract if nobody may write there. -/
theorem spares_delete (safe : ¬ m.heap.Grants scriptHash) :
    wp delete (fun _ => Spares scriptHash m) (Spares scriptHash m) m :=
  wp_delete wp_popContext fun _ granted => spares_write fun writable same =>
    safe (same ▸ granted writable)

/-- A right to write into another storage is none to write into this one. -/
theorem spares_grant {target : Bytes} (other : target ≠ scriptHash) :
    Keeps (Spares scriptHash) (pushObject (.storageContext ⟨target, false⟩) : Exec World Unit) := by
  refine Keeps.bind (fun m => ⟨fun _ => rfl, fun granted => ?_, id⟩) fun _ => keeps_push _
  rcases Heap.grants_makeObject granted with granted | same
  · exact granted
  · cases same
    exact absurd rfl other

/-- **The right to the storage of a contract** is handed out only while its deployment stands. -/
theorem spares_contractStorage (standing : ¬ m.world.contracts.isLocal scriptHash = true) :
    wp contractStorage (fun _ => Spares scriptHash m) (Spares scriptHash m) m := by
  refine wp_bind.2 ((keeps_popObject (R := SameStores) _ _ m).mono ?_ fun _ => SameStores.spares)
  intro contract m₁ same
  have before : Spares scriptHash m m₁ := same.spares
  refine wp_bind.2 (wp_bind.2 ?_)
  show wp (if m₁.world.contracts.creatorOf contract.scriptHash ≠ some m₁.executing then _ else _)
    _ _ m₁
  split
  · exact before
  · next created =>
    have created := Decidable.of_not_not created
    have other : contract.scriptHash ≠ scriptHash := by
      rintro rfl
      rw [same.contracts] at created
      exact standing (ContractOverlay.isLocal_of_creatorOf created)
    exact (spares_grant other m₁).mono (fun _ _ => ItemBlind.trans before)
      fun _ => ItemBlind.trans before

/-! ## Deploying and destroying -/

variable {setting : Setting}

theorem spares_deploy {contract : Contract} :
    Keeps (Spares scriptHash) (deploy setting contract) :=
  keeps_deploy fun _ _ creator => ⟨fun _ => rfl, id, fun stands =>
    ContractOverlay.isLocal_deploy_of_isLocal stands _ (some creator)⟩

theorem spares_destroyContract {destroyed : Bytes} (other : destroyed ≠ scriptHash) :
    Keeps (Spares scriptHash) (destroyContract setting destroyed) :=
  keeps_destroyContract fun _ => ⟨fun _ => (StorageOverlay.written_wipe _).trans (if_neg other), id,
    fun stands => (ContractOverlay.isLocal_destroy_of_ne other).trans stands⟩

/-- A deployment that is found stands. -/
theorem wp_findContract (sound : m.world.contracts.Sound) (target : Bytes) :
    wp (findContract setting target) (fun found m' => ∀ d, found = some (.deployed d) →
      m'.world.contracts.isLocal d.contract.scriptHash = true) (fun _ => True) m := by
  rw [wp, findContract_eq]
  cases lookup : m.world.contracts.lookup target with
  | some fate =>
    rintro d found
    obtain ⟨d', rfl, same⟩ := Option.map_eq_some_iff.1 found
    cases same
    exact ContractOverlay.isLocal_iff.2 ⟨d, by rw [(sound target d lookup).1, lookup]⟩
  | none =>
    have remote : Returns (fun found : Option FoundContract => ∀ d, found ≠ some (.deployed d))
        (do
          let found ← asking (setting.node.contract target setting.height)
          return found.map FoundContract.remote : Exec World (Option FoundContract)) := by
      refine .bind_right fun found => .pure fun d same => ?_
      obtain ⟨c, -, same⟩ := Option.map_eq_some_iff.1 same
      cases same
    exact (wp_of_returns remote m).mono (fun _ _ absent d same => absurd same (absent d))
      fun _ _ => trivial

theorem wp_deploy (sound : m.world.contracts.Sound) (contract : Contract) :
    wp (deploy setting contract) (fun found m' => ∀ d, found = .deployed d →
      m'.world.contracts.isLocal d.contract.scriptHash = true) (fun _ => True) m := by
  refine wp_bind.2 ((wp_findContract sound _).mono ?_ fun _ _ => trivial)
  intro found m₁ standing
  cases found with
  | some found => exact fun d same => standing d (congrArg some same)
  | none =>
    rintro d same
    cases same
    exact ContractOverlay.isLocal_deploy _ _

/-! ## Migrating -/

/-- Deploy the contract that is described on the stack. -/
def deployNew (setting : Setting) : Exec World FoundContract := do
  deploy setting (← popNewContract)

theorem migrate_eq : migrate setting = (do
    let found ← deployNew setting
    let source ← executing
    let target := found.contract.scriptHash
    if found.contract.hasStorage ∧ target ≠ source then
      modifyWorld fun w => { w with storage := w.storage.copy source target }
    pushContract found
    destroyContract setting source) := by
  rw [migrate, deployNew, bind_assoc]

theorem wp_deployNew (sound : m.world.contracts.Sound) :
    wp (deployNew setting) (fun found m' => ∀ d, found = .deployed d →
      m'.world.contracts.isLocal d.contract.scriptHash = true) (fun _ => True) m := by
  refine wp_bind.2 ((keeps_popNewContract (R := SameStores) m).mono ?_ fun _ _ => trivial)
  intro contract m₁ same
  exact wp_deploy (by rwa [same.contracts]) contract

theorem spares_deployNew : Keeps (Spares scriptHash) (deployNew setting) :=
  keeps_popNewContract.bind fun _ => spares_deploy

theorem control_deployNew : Keeps SameControl (deployNew setting) :=
  keeps_popNewContract.bind_of_returns returns_popNewContract fun _ short =>
    keeps_deploy (Machine.ContractBlind.deployed short)

end Exec

namespace Machine

variable {setting : Setting}

/-- Migrating to the contract that is described on the stack comes to `found`, and the storage of
the running script is carried over to it. -/
structure Carries (setting : Setting) (m : Machine World) (found : Exec.FoundContract) :
    Prop where
  /-- The contract is found or deployed. -/
  comes : ∃ m', Exec.deployNew setting m = .ok found m'
  /-- The contract may keep storage. -/
  storage : found.contract.hasStorage = true
  /-- The contract is not the running script itself. -/
  other : found.contract.scriptHash ≠ m.executing

theorem Carries.eq {found found' : Exec.FoundContract} {m₁ : Machine World}
    (carries : m.Carries setting found')
    (comes : Exec.deployNew setting m = .ok found m₁) : found' = found := by
  obtain ⟨m₂, comes'⟩ := carries.comes
  rw [comes] at comes'
  cases comes'
  rfl

/-- Migrating carries the storage of the running script over to a contract that the node has. -/
def Adopts (setting : Setting) (m : Machine World) (scriptHash : Bytes) : Prop :=
  ∃ contract, m.Carries setting (.remote contract) ∧ contract.scriptHash = scriptHash

/-- What may happen to a contract: it is spared, it comes to stand as a deployment of the run, or,
if `adopts` holds, what is written under the running script is carried over to it. -/
inductive Affected (adopts : Prop) (scriptHash : Bytes) (m m' : Machine World) : Prop where
  /-- Nothing is carried over and it is spared. -/
  | spared (nothing : ¬ adopts) (spares : Spares scriptHash m m')
  /-- It stands as a deployment. -/
  | deployed (stands : m'.world.contracts.isLocal scriptHash = true)
  /-- What is written under the running script is carried over. -/
  | carried (carries : adopts)
    (storage : ∀ key, written m'.world.storage scriptHash key =
      (written m.world.storage m.executing key).or (written m.world.storage scriptHash key))
    (grants : m'.heap.Grants scriptHash → m.heap.Grants scriptHash)

end Machine

open Machine (Adopts Affected)

namespace Exec

variable {setting : Setting}

theorem spares_copy (source : Bytes) {target : Bytes} (other : target ≠ scriptHash)
    (m : Machine World) : Spares scriptHash m { m with world := { m.world with
      storage := m.world.storage.copy source target } } :=
  ⟨fun _ => (StorageOverlay.written_copy _ _).trans (if_neg other), id, id⟩

/-- What carrying over comes to, if all that happens behind it spares the contract. -/
theorem affected_of_carries (sound : m.world.contracts.Sound) {found : FoundContract}
    {m₁ : Machine World} (comes : deployNew setting m = .ok found m₁)
    (carries : m.Carries setting found)
    (spares : Spares scriptHash { m₁ with world := { m₁.world with
      storage := m₁.world.storage.copy m.executing found.contract.scriptHash } } m') :
    Affected (m.Adopts setting scriptHash) scriptHash m m' := by
  have before : Spares scriptHash m m₁ := spares_deployNew.ok comes
  by_cases same : found.contract.scriptHash = scriptHash
  · cases found with
    | deployed d =>
      have stands := (wp_deployNew sound).ok comes d rfl
      exact .deployed (spares.stands (by rwa [← same]))
    | remote contract =>
      refine .carried ⟨contract, carries, same⟩ (fun key => (spares.storage key).trans ?_)
        fun granted => before.grants (spares.grants granted)
      have source : Spares m.executing m m₁ := spares_deployNew.ok comes
      rw [StorageOverlay.written_copy, if_pos same, same, source.storage, before.storage]
  · refine .spared ?_ (ItemBlind.trans before (ItemBlind.trans (spares_copy _ same m₁) spares))
    rintro ⟨contract, carries', same'⟩
    cases carries'.eq comes
    exact same same'

/-- **A migration** spares a contract that is not running, unless it carries something over to
it. -/
theorem affected_migrate (sound : m.world.contracts.Sound) (other : m.executing ≠ scriptHash) :
    wp (migrate setting) (fun _ => Affected (m.Adopts setting scriptHash) scriptHash m)
      (Affected (m.Adopts setting scriptHash) scriptHash m) m := by
  rw [migrate_eq]
  refine wp_bind.2 ?_
  cases comes : deployNew setting m with
  | error fault m₁ =>
    rw [wp, comes]
    refine .spared ?_ (spares_deployNew.error comes)
    rintro ⟨contract, ⟨⟨m', comes'⟩, -, -⟩, -⟩
    rw [comes] at comes'
    cases comes'
  | ok found m₁ =>
    have rest : Keeps (Spares scriptHash)
        (do pushContract found; destroyContract setting m.executing) :=
      (keeps_pushContract found).bind fun _ => spares_destroyContract other
    rw [wp, comes]
    dsimp only
    rw [wp_executing, (control_deployNew.ok comes).executing]
    split
    · next h =>
      have carries : m.Carries setting found := ⟨⟨m₁, comes⟩, h.1, h.2⟩
      exact wp_bind.2 ((rest _).mono (fun _ _ => affected_of_carries sound comes carries)
        fun _ => affected_of_carries sound comes carries)
    · next h =>
      have spared {m' : Machine World} (spares : Spares scriptHash m₁ m') :
          Affected (m.Adopts setting scriptHash) scriptHash m m' := by
        refine .spared ?_ (ItemBlind.trans (spares_deployNew.ok comes) spares)
        rintro ⟨contract, carries, -⟩
        cases carries.eq comes
        exact h ⟨carries.storage, carries.other⟩
      exact (rest m₁).mono (fun _ _ => spared) fun _ => spared

end Exec

/-! ## All system calls -/

/-- **A system call but a migration** spares a contract that is not running, does not stand as a
deployment and for which nobody has a right to write. -/
theorem Syscall.spares_run (setting : Setting) {call : Syscall} (h : call ≠ .contract .migrate)
    (other : m.executing ≠ scriptHash) (standing : ¬ m.world.contracts.isLocal scriptHash = true)
    (safe : ¬ m.heap.Grants scriptHash) :
    Exec.wp (call.run setting) (fun _ => Spares scriptHash m) (Spares scriptHash m) m := by
  cases reaches : call.reaches with
  | false => exact keeps_run setting reaches m
  | true =>
    cases call with
    | contract call =>
      cases call with
      | create =>
        exact (Exec.keeps_popNewContract.bind fun _ => Exec.spares_deploy.bind fun _ =>
          Exec.keeps_pushContract _) m
      | migrate => exact absurd rfl h
      | destroy => exact Exec.wp_executing.2 (Exec.spares_destroyContract other m)
      | getStorageContext => exact Exec.spares_contractStorage standing
      | getScript | isPayable => cases reaches
    | storage call =>
      cases call with
      | getContext => exact Exec.wp_executing.2 (Exec.spares_grant other m)
      | put => exact Exec.spares_put safe false
      | putEx => exact Exec.spares_put safe true
      | delete => exact Exec.spares_delete safe
      | getReadOnlyContext | get | find | asReadOnly => cases reaches
    | _ => cases reaches

end DryRun
