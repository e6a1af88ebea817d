import DryRun.Proofs.Syscall.Failure

/-!
# Migrations

A migration puts a new contract in place of the running one.  Values move with it: what the run has
written under the old contract is copied under the new one, if that one has storage, and then the
old one is destroyed, which deletes all of it under the old name.  Both are loops over an overlay
that changes on the way, so what comes out is not said by the loops but by what is written under a
key afterwards.

* `Change.migration` — the three changes of a migration.  `Stores.migrated` says what they make of
  storage and contracts, whatever was there before.
* `Exec.Finds` — somebody who looks for a contract finds one.
* `migration_moves_storage` — a running contract that exists migrates to one that does not, and the
  values that were written under it move.
-/

set_option autoImplicit false

namespace DryRun

open Machine (Makes OnlyItems SameControl)
open StorageOverlay (written)

/-! ## What becomes of storage and contracts -/

/-- A new contract is deployed in the name of the old one, takes over what was written there if it
has storage, and the old one is destroyed. -/
def Change.migration (source : Bytes) (d : Deployed) : List Change :=
  .destroyed source ::
    ((if d.contract.hasStorage then [.carried source d.contract.scriptHash] else []) ++
      [.deployed d source])

namespace Stores

variable {source scriptHash key : Bytes} {d : Deployed} {s s' : Stores}

/-- The run says of a contract what it said before. -/
structure Agrees (scriptHash : Bytes) (s s' : Stores) : Prop where
  /-- What is written under its keys. -/
  written : ∀ key, written s'.storage scriptHash key = written s.storage scriptHash key
  /-- What has become of it. -/
  lookup : s'.contracts.lookup scriptHash = s.contracts.lookup scriptHash
  /-- Who has deployed it. -/
  creatorOf : s'.contracts.creatorOf scriptHash = s.contracts.creatorOf scriptHash

/-- A contract has moved to a deployment. -/
structure Migrated (source : Bytes) (d : Deployed) (s s' : Stores) : Prop where
  /-- The new contract is deployed. -/
  deployed : s'.contracts.lookup d.contract.scriptHash = some (some d)
  /-- The old one has deployed it. -/
  creator : s'.contracts.creatorOf d.contract.scriptHash = some source
  /-- The old one is destroyed. -/
  destroyed : s'.contracts.lookup source = some none
  /-- What was written under a key of the old one, which may be the empty value of a deleted key, is
  written there under the new one, if that one has storage. -/
  carried : ∀ key value, written s.storage source key = some value →
    written s'.storage d.contract.scriptHash key =
      if d.contract.hasStorage then some value else written s.storage d.contract.scriptHash key
  /-- Under a key that the old one had not written the new one has what it had. -/
  kept : ∀ key, written s.storage source key = none →
    written s'.storage d.contract.scriptHash key = written s.storage d.contract.scriptHash key
  /-- Under the keys that were written the old one reads as empty, whatever the node has there. -/
  emptied : ∀ key, written s.storage source key ≠ none → ∀ node height readOnly,
    s'.storage.read node height ⟨source, readOnly⟩ key = pure []
  /-- Nothing happens to any other contract. -/
  others : ∀ scriptHash, scriptHash ≠ source → scriptHash ≠ d.contract.scriptHash →
    s.Agrees scriptHash s'

/-- What a deployment has taken over before the old contract is destroyed. -/
theorem written_carried :
    written (s.after ((if d.contract.hasStorage then [.carried source d.contract.scriptHash]
      else []) ++ [.deployed d source])).storage scriptHash key =
      if d.contract.scriptHash = scriptHash ∧ d.contract.hasStorage then
        (written s.storage source key).or (written s.storage scriptHash key)
      else written s.storage scriptHash key := by
  by_cases has : d.contract.hasStorage
  · rw [if_pos has, after_append, after_cons, after_nil, written_apply]
    dsimp only
    by_cases same : d.contract.scriptHash = scriptHash
    · rw [if_pos same, if_pos ⟨same, has⟩, ← same]
      rfl
    · rw [if_neg same, if_neg fun both => same both.1]
      rfl
  · rw [if_neg has, if_neg fun both => has both.2]
    rfl

theorem contracts_migration : (s.after (Change.migration source d)).contracts =
    (s.contracts.deploy d (some source)).destroy source := by
  rw [Change.migration]
  split <;> rfl

/-- **The changes of a migration** move the contract, whatever was written and deployed before. -/
theorem migrated (other : d.contract.scriptHash ≠ source) :
    s.Migrated source d (s.after (Change.migration source d)) := by
  have storage (scriptHash key : Bytes) :
      written (s.after (Change.migration source d)).storage scriptHash key =
        if source = scriptHash then (written s.storage source key).map fun _ => []
        else if d.contract.scriptHash = scriptHash ∧ d.contract.hasStorage then
          (written s.storage source key).or (written s.storage scriptHash key)
        else written s.storage scriptHash key := by
    rw [Change.migration, after_cons, written_apply]
    dsimp only
    rw [written_carried, written_carried,
      if_neg (fun both => other both.1 : ¬ (d.contract.scriptHash = source ∧ _))]
  refine ⟨?_, ?_, ?_, fun key value found => ?_, fun key none => ?_, fun key some node height
    readOnly => ?_, fun scriptHash old new => ⟨fun key => ?_, ?_, ?_⟩⟩
  · rw [contracts_migration, ContractOverlay.lookup_destroy, if_neg other.symm,
      ContractOverlay.lookup_deploy, if_pos rfl]
  · rw [contracts_migration, ContractOverlay.creatorOf_destroy_of_ne other.symm,
      ContractOverlay.creatorOf_deploy, if_pos rfl]
  · rw [contracts_migration, ContractOverlay.lookup_destroy, if_pos rfl]
  · rw [storage, if_neg other.symm, found]
    split
    · next both => rw [if_pos both.2, Option.some_or]
    · next lacks => rw [if_neg fun has => lacks ⟨rfl, has⟩]
  · rw [storage, if_neg other.symm, none, Option.none_or, ite_self]
  · rw [StorageOverlay.read_eq, storage, if_pos rfl]
    obtain ⟨value, found⟩ := Option.ne_none_iff_exists'.1 some
    rw [found]
    rfl
  · rw [storage, if_neg old.symm, if_neg fun both => new both.1.symm]
  · rw [contracts_migration, ContractOverlay.lookup_destroy, if_neg old.symm,
      ContractOverlay.lookup_deploy, if_neg new.symm]
  · rw [contracts_migration, ContractOverlay.creatorOf_destroy_of_ne old.symm,
      ContractOverlay.creatorOf_deploy, if_neg new.symm]

end Stores

/-! ## Migrating -/

variable {setting : Setting} {m m₂ m₃ m' : Machine World} {new : Contract} {scriptHash : Bytes}

namespace Exec

/-- Somebody who looks for a contract finds one. -/
def Finds (setting : Setting) (scriptHash : Bytes) (m : Machine World) : Prop :=
  ∃ found m', findContract setting scriptHash m = .ok (some found) m'

/-- What is found depends on what the run has made of this contract and on the conversation. -/
theorem finds_congr
    (lookup : m'.world.contracts.lookup scriptHash = m.world.contracts.lookup scriptHash)
    (link : m'.world.link = m.world.link) :
    Finds setting scriptHash m' ↔ Finds setting scriptHash m := by
  rw [Finds, Finds, findContract_eq, findContract_eq, lookup]
  cases m.world.contracts.lookup scriptHash with
  | some fate => simp
  | none =>
    dsimp only
    rw [bind_eq, bind_eq, asking_eq, asking_eq, link]
    cases setting.node.contract scriptHash setting.height m.world.link with
    | error cause link => exact iff_of_false (fun ⟨_, _, h⟩ => nomatch h) fun ⟨_, _, h⟩ => nomatch h
    | ok found link =>
      cases found with
      | none => exact iff_of_false (fun ⟨_, _, h⟩ => nomatch h) fun ⟨_, _, h⟩ => nomatch h
      | some c => exact iff_of_true ⟨_, _, rfl⟩ ⟨_, _, rfl⟩

theorem Finds.not_untold (finds : Finds setting scriptHash m) : ¬ Untold setting scriptHash m := by
  rintro ⟨fault, m', untold⟩
  obtain ⟨found, m₁, stands⟩ := finds
  cases untold.symm.trans stands

theorem Finds.changes (finds : Finds setting scriptHash m) :
    destroyChanges setting scriptHash m = [.destroyed scriptHash] := by
  obtain ⟨found, m', stands⟩ := finds
  rw [destroyChanges, behind, stands]

section

variable (described : popNewContract m = .ok new m₂)
  (absent : findContract setting new.scriptHash m₂ = .ok none m₃)

include described absent

/-- A contract that there is not is deployed in the name of the running script. -/
theorem deployNew_of_absent : ∃ m₄,
    deployNew setting m = .ok (.deployed ⟨new, m.heap.objects.size⟩) m₄ ∧
      m₄.world.contracts =
        m.world.contracts.deploy ⟨new, m.heap.objects.size⟩ (some m.executing) ∧
      m₄.world.link = m₃.world.link := by
  have items : OnlyItems m m₂ := keeps_popNewContract.ok described
  have same : m₂.executing = m.executing :=
    (keeps_popNewContract (R := SameControl)).ok described |>.executing
  have objects : m₃.heap.objects = m.heap.objects := by
    obtain ⟨link, rfl⟩ := (onlyLink_findContract _).ok absent
    exact items.objects
  rw [deployNew, bind_eq, described]
  dsimp only
  rw [deploy, bind_eq, absent, ← objects, ← same, ← items.world]
  obtain ⟨link, rfl⟩ := (onlyLink_findContract _).ok absent
  exact ⟨_, rfl, rfl, rfl⟩

theorem newChanges_of_absent :
    newChanges setting m = [.deployed ⟨new, m.heap.objects.size⟩ m.executing] := by
  have items : OnlyItems m m₂ := keeps_popNewContract.ok described
  have same : m₂.executing = m.executing :=
    (keeps_popNewContract (R := SameControl)).ok described |>.executing
  rw [newChanges, behind, described]
  dsimp only
  rw [deployChanges, behind, absent, ← same, ← items.objects]
  obtain ⟨link, rfl⟩ := (onlyLink_findContract _).ok absent
  rfl

variable (existing : Finds setting m.executing m) (remains : Finds setting m.executing m₃)

include existing

/-- What there is has another name than what there is not. -/
theorem scriptHash_ne_of_absent : new.scriptHash ≠ m.executing := by
  intro same
  have items : OnlyItems m m₂ := keeps_popNewContract.ok described
  rw [← same] at existing
  have still : Finds setting new.scriptHash m₂ :=
    (finds_congr (by rw [items.world]) (by rw [items.world])).2 existing
  obtain ⟨found, m', stands⟩ := still
  cases absent.symm.trans stands

include remains

/-- **A contract that exists migrates** to one that does not. -/
theorem migrate_of_absent : (∃ m', migrate setting m = .ok () m') ∧
    migrateChanges setting m = Change.migration m.executing ⟨new, m.heap.objects.size⟩ := by
  have other := scriptHash_ne_of_absent described absent existing
  obtain ⟨m₄, comes, contracts, link⟩ := deployNew_of_absent described absent
  have same : m₄.executing = m.executing := (control_deployNew.ok comes).executing
  have lookup : m₄.world.contracts.lookup m.executing = m₃.world.contracts.lookup m.executing := by
    have items : OnlyItems m m₂ := keeps_popNewContract.ok described
    obtain ⟨link', rfl⟩ := (onlyLink_findContract _).ok absent
    rw [contracts, ContractOverlay.lookup_deploy, if_neg other]
    exact congrArg (·.contracts.lookup m.executing) items.world.symm
  have stands : Finds setting m.executing m₄ := (finds_congr lookup link).2 remains
  constructor
  · cases outcome : migrate setting m with
    | ok u m' => exact ⟨m', rfl⟩
    | error fault m' =>
      exact absurd ((migrate_fails_iff comes).1 ⟨fault, m', outcome⟩) stands.not_untold
  · rw [migrateChanges, behind, comes, newChanges_of_absent described absent]
    dsimp only
    rw [replaceChanges, same, stands.changes, Change.migration, List.append_assoc]
    simp only [FoundContract.contract, ne_eq, other, not_false_eq_true, and_true, List.cons_append,
      List.nil_append]

end

end Exec

/-- A running contract has moved to a new one. -/
structure Machine.Migrated (m : Machine World) (new : Contract) (m' : Machine World) : Prop where
  /-- Storage and contracts have moved. -/
  stores : m.world.stores.Migrated m.executing ⟨new, m.heap.objects.size⟩ m'.world.stores
  /-- The new contract has an object. -/
  object : m'.heap.objects[m.heap.objects.size]? = some (.contract new)

open Exec in
/-- **A migration moves the storage of the running contract.**  The running contract exists, before
the description of a new one is taken off the stack and when it is looked for in order to be
destroyed, and there is none under the hash of the new script.  Then the migration goes well, and so
does the step that makes it. -/
theorem migration_moves_storage (described : popNewContract m = .ok new m₂)
    (absent : findContract setting new.scriptHash m₂ = .ok none m₃)
    (existing : Finds setting m.executing m) (remains : Finds setting m.executing m₃) :
    (∃ m', contract setting .migrate m = .ok () m' ∧ m.Migrated new m') ∧
      ∀ limit (before : Machine World),
        before.call? setting limit = some (.contract .migrate, m) →
        before.Migrated new (before.step (setting.host limit)) ∧
          (before.stack.depth + before.alt.depth ≤ Machine.maxStackItems →
            (before.step (setting.host limit)).status = .running) := by
  have other := scriptHash_ne_of_absent described absent existing
  obtain ⟨⟨m', done⟩, changes⟩ := migrate_of_absent described absent existing remains
  have makes : Makes (migrateChanges setting m) m m' := (records_migrate m).ok done
  have moved : m.Migrated new m' := by
    rw [changes] at makes
    constructor
    · rw [makes.stores]
      exact Stores.migrated other
    · refine makes.objects ⟨new, m.heap.objects.size⟩ m.executing ?_
      rw [Change.migration]
      exact List.mem_cons_of_mem _ (List.mem_append_right _ List.mem_cons_self)
  refine ⟨⟨m', done, moved⟩, fun limit before made => ?_⟩
  have begins := Machine.begins_of_call? made
  have run : (Syscall.contract .migrate).run setting m = .ok () m' := done
  have before_moved : before.Migrated new m' := by
    obtain ⟨stores, object⟩ := moved
    rw [begins.executing, begins.heap, begins.world] at stores
    rw [begins.heap] at object
    exact ⟨stores, object⟩
  rw [Machine.step_of_call? made, run]
  dsimp only
  constructor
  · split
    · exact ⟨before_moved.stores, before_moved.object⟩
    · exact before_moved
  · intro room
    have narrows := narrows_migrate done
    rw [Narrows, begins.stack, begins.alt] at narrows
    have control : SameControl m m' := ((Syscall.contract .migrate).keeps_run_all setting).ok run
    rw [if_neg (by omega), control.status, Machine.status_of_call? made]

/-! ## A contract that moves -/

/-- A contract that may keep storage and has nothing else than a script. -/
def Contract.ofScript (script : Bytes) : Contract := ⟨script, [], 0, 1, "", "", "", "", ""⟩

/-- A contract is running that was deployed in the run.  It has put a value under one key and
deleted another one.  The contract that is described on the stack was destroyed before. -/
def migratingMachine (old new : Bytes) : Machine World :=
  let stores := Stores.empty.after
    [.destroyed (hash160 new), .put (hash160 old) [2] [], .put (hash160 old) [1] [7],
      .deployed ⟨.ofScript old, 0⟩ []]
  { Machine.idle { World.fresh .fresh with
      storage := stores.storage, contracts := stores.contracts } with
    frames := [⟨.ofBytes old, 0, false⟩]
    heap := (Heap.empty.makeObject (.contract (.ofScript old))).1 }.withItems
      [.ofBytes new, .ofBytes [], .ofInt 0, .ofInt 1, .ofBytes [], .ofBytes [], .ofBytes [],
        .ofBytes [], .ofBytes []]

section

variable {old new : Bytes}

theorem findContract_new_migratingMachine :
    let m := (migratingMachine old new).withItems []
    Exec.findContract setting (Contract.ofScript new).scriptHash m = .ok none m := by
  intro m
  have gone : m.world.contracts.lookup (Contract.ofScript new).scriptHash = some none :=
    (ContractOverlay.lookup_destroy _).trans (if_pos rfl)
  rw [Exec.findContract_eq, gone]
  rfl

variable (other : hash160 new ≠ hash160 old)

include other

theorem finds_migratingMachine (items : List Item) :
    Exec.Finds setting (migratingMachine old new).executing
      ((migratingMachine old new).withItems items) := by
  have stands : ((migratingMachine old new).withItems items).world.contracts.lookup
      (migratingMachine old new).executing = some (some ⟨.ofScript old, 0⟩) := by
    refine lookup_after.trans ?_
    have named : (migratingMachine old new).executing = hash160 old := rfl
    simp [fate, Change.fate?, named, other, Contract.scriptHash, Contract.ofScript]
  exact ⟨.deployed ⟨.ofScript old, 0⟩, _, by rw [Exec.findContract_eq, stands]; rfl⟩

theorem written_migratingMachine :
    written (migratingMachine old new).world.storage (migratingMachine old new).executing [1] =
        some [7] ∧
      written (migratingMachine old new).world.storage (migratingMachine old new).executing [2] =
        some [] := by
  have named : (migratingMachine old new).executing = hash160 old := rfl
  rw [named, migratingMachine]
  simp [Machine.withItems, Machine.idle, written_apply, other]

end

/-- The new contract takes over the value and the deletion. -/
theorem migration_moves_storage_and_deletion :
    let m := migratingMachine [0x61] [0x51]
    ∃ m', Exec.contract ⟨fun _ => .unavailable [], 0, .empty⟩ .migrate m = .ok () m' ∧
      written m'.world.storage (hash160 [0x51]) [1] = some [7] ∧
      written m'.world.storage (hash160 [0x51]) [2] = some [] ∧
      m'.world.contracts.lookup m.executing = some none := by
  -- hashes of concrete scripts are not to be computed, but for this one time
  have moves (setting : Setting) {old new : Bytes} (other : hash160 new ≠ hash160 old)
      (described : Exec.popNewContract (migratingMachine old new) =
        .ok (.ofScript new) ((migratingMachine old new).withItems [])) :
      ∃ m', Exec.contract setting .migrate (migratingMachine old new) = .ok () m' ∧
        written m'.world.storage (hash160 new) [1] = some [7] ∧
        written m'.world.storage (hash160 new) [2] = some [] ∧
        m'.world.contracts.lookup (migratingMachine old new).executing = some none := by
    have absent : Exec.findContract setting (Contract.ofScript new).scriptHash
        ((migratingMachine old new).withItems []) = .ok none _ := findContract_new_migratingMachine
    obtain ⟨⟨m', done, moved⟩, -⟩ := migration_moves_storage described absent
      (finds_migratingMachine other _) (finds_migratingMachine other _)
    obtain ⟨value, deletion⟩ := written_migratingMachine other
    have has : (Contract.ofScript new).hasStorage = true := by
      show ((1 : UInt8) &&& 1 != 0) = true
      decide
    exact ⟨m', done, (moved.stores.carried _ _ value).trans (if_pos has),
      (moved.stores.carried _ _ deletion).trans (if_pos has), moved.stores.destroyed⟩
  exact moves _ (by decide +kernel) (by rfl)

end DryRun
