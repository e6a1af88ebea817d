import DryRun.Proofs.Machine.Operands
import DryRun.Proofs.Syscall.Isolation
import DryRun.Proofs.World.History

/-!
# What system calls do to storage and contracts

Six system calls change storage or contracts.  `Syscall.changes` lists the changes that a call
makes, the latest first.  It is computed from the machine that the call begins with: from the
operands, and from what the run and the node know of the contracts in question.
`Syscall.records_run` says that these changes are all that the call does to storage and contracts,
whether it succeeds or fails.

* `Machine.Makes changes m m'` — from `m` to `m'` these changes were made.  No object is lost on the
  way, and every contract that was deployed has an object.
* `Exec.Records changes c` — however `c` comes out, it makes the changes that `changes` computes.
  `Records.bind` is the rule for `do`: what follows makes its changes where the first part has
  succeeded (`Exec.behind`).

The changes are those of the running script (`Syscall.signed`), and what is written is written
through a context that lies on top of the stack (`Syscall.offered_of_mem_changes`).
-/

set_option autoImplicit false

namespace DryRun

open Machine (Discreet GrantBlind ItemBlind ObjectBlind Outward SameControl)

variable {m m' : Machine World}

/-- A script deploys in its own name, carries its own storage over and destroys itself. -/
def Change.By (author : Bytes) : Change → Prop
  | .put .. => True
  | .carried source _ => source = author
  | .deployed _ creator => creator = author
  | .destroyed scriptHash => scriptHash = author

/-! ## Making changes -/

namespace Machine

/-- From `m` to `m'` these changes were made, the latest first. -/
structure Makes (changes : List Change) (m m' : Machine World) : Prop where
  /-- Storage and contracts are what the changes make of them. -/
  stores : m'.world.stores = m.world.stores.after changes
  /-- The objects are still there. -/
  retains : m.heap.Retains m'.heap
  /-- What was deployed has an object. -/
  objects : ∀ d creator, .deployed d creator ∈ changes →
    m'.heap.objects[d.object]? = some (.contract d.contract)

variable {later earlier : List Change}

theorem Makes.trans {a b c : Machine World} (h : Makes earlier a b) (k : Makes later b c) :
    Makes (later ++ earlier) a c where
  stores := by rw [k.stores, h.stores, Stores.after_append]
  retains := h.retains.trans k.retains
  objects d creator mem := by
    rcases List.mem_append.1 mem with mem | mem
    · exact k.objects d creator mem
    · exact k.retains.contract (h.objects d creator mem)

/-- Nothing is done to storage and contracts. -/
theorem Makes.nothing (stores : m'.world.stores = m.world.stores)
    (retains : m.heap.Retains m'.heap) : Makes [] m m' :=
  ⟨stores, retains, fun _ _ mem => absurd mem List.not_mem_nil⟩

instance : Outward (Makes []) where
  trans h k := h.trans k
  of_same world objects := .nothing (by rw [world]) (.of_objects objects)

instance : Discreet (Makes []) where
  asked _ _ _ := Exec.keeps_asking _ fun m _ => .nothing rfl (.refl m.heap)
  announced _ := Exec.keeps_modify fun m => .nothing rfl (.refl m.heap)
  evolved _ _ h := .nothing rfl h.toRetains

instance : GrantBlind (Makes []) :=
  ⟨fun context m => .nothing rfl (.makeObject m.heap (.storageContext context))⟩

end Machine

open Machine (Makes)

namespace Exec

variable {α β : Type} {setting : Setting}

/-- The changes that follow a computation, where it succeeds. -/
def behind (c : Exec World α) (changes : α → Machine World → List Change) (m : Machine World) :
    List Change :=
  match c m with
  | .ok a m' => changes a m'
  | .error _ _ => []

/-- However the computation comes out, it makes these changes. -/
def Records (changes : Machine World → List Change) (c : Exec World α) : Prop :=
  ∀ m, wp c (fun _ => Makes (changes m) m) (Makes (changes m) m) m

theorem mem_behind {c : Exec World α} {changes : α → Machine World → List Change}
    {change : Change} :
    change ∈ behind c changes m ↔ ∃ a m', c m = .ok a m' ∧ change ∈ changes a m' := by
  rw [behind]
  cases c m with
  | ok a m' =>
    refine ⟨fun mem => ⟨a, m', rfl, mem⟩, ?_⟩
    rintro ⟨_, _, same, mem⟩
    cases same
    exact mem
  | error fault m' =>
    refine ⟨fun mem => absurd mem List.not_mem_nil, ?_⟩
    rintro ⟨_, _, same, _⟩
    cases same

section

variable {c : Exec World α} {f : α → Exec World β} {first : Machine World → List Change}
  {second : α → Machine World → List Change}

/-- **The rule for `do`.** -/
theorem Records.bind (hc : Records first c) (hf : ∀ a, Records (second a) (f a)) :
    Records (fun m => behind c second m ++ first m) (c >>= f) := by
  intro m
  refine wp_bind.2 ?_
  rw [wp]
  cases he : c m with
  | ok a m₁ =>
    have begun : Makes (first m) m m₁ := (hc m).ok he
    have follows : behind c second m = second a m₁ := by rw [behind, he]
    dsimp only
    rw [follows]
    exact (hf a m₁).mono (fun _ _ => begun.trans) fun _ => begun.trans
  | error fault m₁ =>
    have nothing : behind c second m = [] := by rw [behind, he]
    dsimp only
    rw [nothing]
    exact (hc m).error he

/-- What follows a computation that changes nothing. -/
theorem Keeps.records_bind (hc : Keeps (Makes []) c) (hf : ∀ a, Records (second a) (f a)) :
    Records (behind c second) (c >>= f) := by
  intro m
  have quiet : Records (fun _ => []) c := hc
  have both := quiet.bind hf m
  dsimp only at both
  rwa [List.append_nil] at both

/-- What is followed by a computation that changes nothing. -/
theorem Records.bind_keeps (hc : Records first c) (hf : ∀ a, Keeps (Makes []) (f a)) :
    Records first (c >>= f) := by
  intro m
  refine wp_bind.2 ((hc m).mono (fun a m₁ begun => ?_) fun _ => id)
  exact (hf a m₁).mono (fun _ _ => begun.trans) fun _ => begun.trans

end

/-- The changes are those of the running script. -/
def Signed (changes : Machine World → List Change) : Prop :=
  ∀ m, ∀ change ∈ changes m, change.By m.executing

theorem Signed.behind {c : Exec World α} {changes : α → Machine World → List Change}
    (hc : Keeps SameControl c) (h : ∀ a, Signed (changes a)) : Signed (behind c changes) := by
  intro m change mem
  obtain ⟨a, m', outcome, mem⟩ := mem_behind.1 mem
  have signed := h a m' change mem
  rwa [(hc.ok outcome).executing] at signed

/-! ## Deploying -/

/-- A contract is deployed in the name of the running script, unless there is one already. -/
def deployChanges (setting : Setting) (contract : Contract) : Machine World → List Change :=
  behind (findContract setting contract.scriptHash) fun found m =>
    match found with
    | some _ => []
    | none => [.deployed ⟨contract, m.heap.objects.size⟩ m.executing]

theorem records_deploy (contract : Contract) :
    Records (deployChanges setting contract) (deploy setting contract) := by
  refine (keeps_findContract _).records_bind fun found => ?_
  cases found with
  | some found => exact keeps_pure (R := Makes []) _
  | none =>
    refine fun m => ⟨rfl, .makeObject m.heap (.contract contract), fun d creator mem => ?_⟩
    cases List.mem_singleton.1 mem
    exact Array.getElem?_push_size

theorem signed_deploy (contract : Contract) : Signed (deployChanges setting contract) := by
  refine .behind (keeps_findContract _) fun found m change mem => ?_
  cases found with
  | some found => cases mem
  | none =>
    cases List.mem_singleton.1 mem
    rfl

/-- The contract that is described on the stack is deployed. -/
def newChanges (setting : Setting) : Machine World → List Change :=
  behind popNewContract (deployChanges setting)

theorem records_deployNew : Records (newChanges setting) (deployNew setting) :=
  keeps_popNewContract.records_bind records_deploy

theorem eq_deployed_of_mem_newChanges {change : Change} (mem : change ∈ newChanges setting m) :
    ∃ d creator, change = .deployed d creator := by
  obtain ⟨contract, m₁, -, mem⟩ := mem_behind.1 mem
  obtain ⟨found, m₂, -, mem⟩ := mem_behind.1 mem
  cases found with
  | some found => cases mem
  | none => exact ⟨_, _, List.mem_singleton.1 mem⟩

theorem signed_deployNew : Signed (newChanges setting) :=
  .behind keeps_popNewContract signed_deploy

theorem create_eq : contract setting .create = deployNew setting >>= pushContract := by
  rw [deployNew, bind_assoc]
  rfl

/-! ## Destroying -/

/-- A contract is destroyed if there is one. -/
def destroyChanges (setting : Setting) (scriptHash : Bytes) : Machine World → List Change :=
  behind (findContract setting scriptHash) fun found _ =>
    match found with
    | some _ => [.destroyed scriptHash]
    | none => []

theorem records_destroyContract (setting : Setting) (scriptHash : Bytes) :
    Records (destroyChanges setting scriptHash) (destroyContract setting scriptHash) := by
  refine (keeps_findContract _).records_bind fun found => ?_
  cases found with
  | some found =>
    exact fun m => ⟨rfl, .refl m.heap, fun d creator mem => by cases List.mem_singleton.1 mem⟩
  | none => exact keeps_pure (R := Makes []) _

theorem by_of_mem_destroyChanges {scriptHash : Bytes} {change : Change}
    (mem : change ∈ destroyChanges setting scriptHash m) : change.By scriptHash := by
  obtain ⟨found, m', -, mem⟩ := mem_behind.1 mem
  cases found with
  | some found =>
    cases List.mem_singleton.1 mem
    rfl
  | none => cases mem

theorem destroyed_mem_destroyChanges {scriptHash : Bytes} {found : FoundContract}
    (stands : findContract setting scriptHash m = .ok (some found) m') :
    .destroyed scriptHash ∈ destroyChanges setting scriptHash m :=
  mem_behind.2 ⟨some found, m', stands, List.mem_cons_self⟩

/-- Whether there is a contract depends on the contracts of the run and on the conversation. -/
theorem destroyChanges_congr {scriptHash : Bytes}
    (contracts : m'.world.contracts = m.world.contracts) (link : m'.world.link = m.world.link) :
    destroyChanges setting scriptHash m' = destroyChanges setting scriptHash m := by
  rw [destroyChanges, behind, behind, findContract_eq, findContract_eq, contracts]
  cases m.world.contracts.lookup scriptHash with
  | some fate => cases fate <;> rfl
  | none =>
    dsimp only
    rw [bind_eq, bind_eq, asking_eq, asking_eq, link]
    cases setting.node.contract scriptHash setting.height m.world.link with
    | ok found link => cases found <;> rfl
    | error cause link => rfl

/-! ## Migrating -/

/-- What was written under the running contract is carried over to the one that takes its place, if
that one has storage and is another one; then the running contract is destroyed. -/
def replaceChanges (setting : Setting) (found : FoundContract) (m : Machine World) : List Change :=
  destroyChanges setting m.executing m ++
    if found.contract.hasStorage ∧ found.contract.scriptHash ≠ m.executing then
      [.carried m.executing found.contract.scriptHash]
    else []

/-- The contract that takes the place of the running one is deployed before. -/
def migrateChanges (setting : Setting) (m : Machine World) : List Change :=
  behind (deployNew setting) (replaceChanges setting) m ++ newChanges setting m

/-- Pushing a contract is nothing that a destruction depends on. -/
theorem records_push_destroy (setting : Setting) (found : FoundContract) (scriptHash : Bytes) :
    Records (destroyChanges setting scriptHash)
      (do pushContract found; destroyContract setting scriptHash) := by
  intro m
  have both := (keeps_pushContract found).records_bind
    (fun _ => records_destroyContract setting scriptHash) m
  have same : behind (pushContract found) (fun _ => destroyChanges setting scriptHash) m =
      destroyChanges setting scriptHash m := by
    cases found with
    | deployed d => exact destroyChanges_congr rfl rfl
    | remote c => exact destroyChanges_congr rfl rfl
  rwa [same] at both

theorem records_migrate : Records (migrateChanges setting) (migrate setting) := by
  rw [migrate_eq]
  refine records_deployNew.bind fun found m => wp_executing.2 ?_
  dsimp only
  rw [replaceChanges]
  split
  · let copied : Machine World := { m with world := { m.world with
      storage := m.world.storage.copy m.executing found.contract.scriptHash } }
    have carried : Makes [.carried m.executing found.contract.scriptHash] m copied :=
      ⟨rfl, .refl m.heap, fun d creator mem => by cases List.mem_singleton.1 mem⟩
    have same : destroyChanges setting m.executing copied =
        destroyChanges setting m.executing m := destroyChanges_congr rfl rfl
    have rest := records_push_destroy setting found m.executing copied
    rw [same] at rest
    exact wp_bind.2 (rest.mono (fun _ _ => carried.trans) fun _ => carried.trans)
  · rw [List.append_nil]
    exact records_push_destroy setting found m.executing m

theorem destroyed_mem_migrateChanges {new found : FoundContract} {m₁ : Machine World}
    (comes : deployNew setting m = .ok new m₁)
    (stands : findContract setting m.executing m₁ = .ok (some found) m') :
    .destroyed m.executing ∈ migrateChanges setting m := by
  have same : m₁.executing = m.executing := (control_deployNew.ok comes).executing
  refine List.mem_append_left _ (mem_behind.2 ⟨new, m₁, comes, List.mem_append_left _ ?_⟩)
  rw [same]
  exact destroyed_mem_destroyChanges stands

theorem signed_migrate : Signed (migrateChanges setting) := by
  intro m change mem
  rcases List.mem_append.1 mem with mem | mem
  · refine Signed.behind control_deployNew (fun found m change mem => ?_) m change mem
    rcases List.mem_append.1 mem with mem | mem
    · exact by_of_mem_destroyChanges mem
    · split at mem
      · cases List.mem_singleton.1 mem
        rfl
      · cases mem
  · exact signed_deployNew m change mem

/-! ## Writing -/

/-- A value that is to be put under a key through a context. -/
structure Deposit where
  /-- The context. -/
  context : StorageContext
  /-- The key. -/
  key : Bytes
  /-- The value. -/
  value : Bytes

/-- What is put if the context allows it. -/
def Deposit.changes (deposit : Deposit) : List Change :=
  if deposit.context.readOnly then []
  else [.put deposit.context.scriptHash deposit.key deposit.value]

theorem Deposit.eq_of_mem_changes {deposit : Deposit} {change : Change}
    (mem : change ∈ deposit.changes) : deposit.context.readOnly = false ∧
      change = .put deposit.context.scriptHash deposit.key deposit.value := by
  rw [changes] at mem
  split at mem
  · cases mem
  · next writable => exact ⟨eq_false_of_ne_true writable, List.mem_singleton.1 mem⟩

/-- Put a value under its key. -/
def store (deposit : Deposit) : Exec World Unit := do
  match (← get).world.storage.write deposit.context deposit.key deposit.value with
  | .ok storage => modifyWorld ({ · with storage })
  | .error cause => refuse cause

theorem records_store (deposit : Deposit) : Records (fun _ => deposit.changes) (store deposit) := by
  intro m
  rw [store, wp_get_bind, Deposit.changes]
  cases readOnly : deposit.context.readOnly with
  | true =>
    rw [StorageOverlay.write_of_readOnly readOnly]
    exact ItemBlind.refl (Makes []) m
  | false =>
    rw [StorageOverlay.write_of_not_readOnly readOnly]
    exact ⟨rfl, .refl m.heap, fun d creator mem => by cases List.mem_singleton.1 mem⟩

/-- Pop what is to be written. -/
def popDeposit (withFlags : Bool) : Exec World Deposit := do
  let context ← popContext
  let key ← popBytes
  if key.length > maxStorageKey then refuse (.size (.storageKey key.length maxStorageKey))
  let value ← popBytes
  if value.length > maxItemSize then refuse (.size (.storageValue value.length))
  if withFlags then
    let _ ← popInt
  return ⟨context, key, value⟩

/-- Pop a key that is to be deleted, which leaves the empty value to it. -/
def popDeletion : Exec World Deposit := do
  let context ← popContext
  let key ← popBytes
  return ⟨context, key, []⟩

theorem put_eq (withFlags : Bool) : put withFlags = popDeposit withFlags >>= store := by
  rw [put, popDeposit, bind_assoc]
  refine bind_congr fun context => ?_
  rw [bind_assoc]
  refine bind_congr fun key => ?_
  by_cases longKey : key.length > maxStorageKey
  · rw [if_pos longKey, if_pos longKey]
    rfl
  rw [if_neg longKey, if_neg longKey, bind_assoc]
  refine bind_congr fun value => ?_
  by_cases longValue : value.length > maxItemSize
  · rw [if_pos longValue, if_pos longValue]
    rfl
  rw [if_neg longValue, if_neg longValue]
  cases withFlags with
  | true => exact (bind_assoc popInt (fun _ => pure ⟨context, key, value⟩) store).symm
  | false => rfl

theorem delete_eq : delete = popDeletion >>= store := by
  rw [delete, popDeletion]
  simp only [bind_assoc]
  rfl

theorem keeps_popDeposit {R : Machine World → Machine World → Prop} [ItemBlind R]
    (withFlags : Bool) : Keeps R (popDeposit withFlags) := by
  refine (keeps_popObject _ _).bind fun context => keeps_popBytes.bind fun key => ?_
  refine (keeps_refuse _).guarded fun _ => keeps_popBytes.bind fun value => ?_
  refine (keeps_refuse _).guarded fun _ => Keeps.ite ?_ (keeps_pure _)
  exact keeps_popInt.bind fun _ => keeps_pure _

theorem keeps_popDeletion {R : Machine World → Machine World → Prop} [ItemBlind R] :
    Keeps R popDeletion :=
  (keeps_popObject _ _).bind fun _ => keeps_popBytes.bind fun _ => keeps_pure _

theorem records_put (withFlags : Bool) :
    Records (behind (popDeposit withFlags) fun deposit _ => deposit.changes) (put withFlags) := by
  rw [put_eq]
  exact (keeps_popDeposit withFlags).records_bind records_store

theorem records_delete : Records (behind popDeletion fun deposit _ => deposit.changes) delete := by
  rw [delete_eq]
  exact keeps_popDeletion.records_bind records_store

/-- The context of what is to be written lies on top of the stack. -/
def Deposit.Offered (heap : Heap) (deposit : Deposit) : List Item → Prop
  | .handle handle :: _ => heap.object? handle = some (.storageContext deposit.context)
  | _ => False

theorem takes_popDeposit {heap : Heap} (withFlags : Bool) :
    Takes heap (fun operands deposit => deposit.Offered heap operands) (popDeposit withFlags) := by
  refine takes_popContext.bind fun context _ ⟨handle, same, found⟩ => ?_
  subst same
  refine takes_popBytes.bind fun key _ _ => (takes_refuse _).guarded fun _ => ?_
  refine takes_popBytes.bind fun value _ _ => (takes_refuse _).guarded fun _ => ?_
  dsimp only
  split
  · exact takes_popInt.bind fun _ _ _ => takes_pure found
  · exact takes_pure found

theorem takes_popDeletion {heap : Heap} :
    Takes heap (fun operands deposit => deposit.Offered heap operands) popDeletion := by
  refine takes_popContext.bind fun context _ ⟨handle, same, found⟩ => ?_
  subst same
  exact takes_popBytes.bind fun key _ _ => takes_pure found

end Exec

/-! ## All system calls -/

namespace Syscall

variable {setting : Setting} {call : Syscall}

/-- The changes that a call makes, the latest first. -/
def changes (setting : Setting) : Syscall → Machine World → List Change
  | .contract .create => Exec.newChanges setting
  | .contract .migrate => Exec.migrateChanges setting
  | .contract .destroy => fun m => Exec.destroyChanges setting m.executing m
  | .storage .put => Exec.behind (Exec.popDeposit false) fun deposit _ => deposit.changes
  | .storage .putEx => Exec.behind (Exec.popDeposit true) fun deposit _ => deposit.changes
  | .storage .delete => Exec.behind Exec.popDeletion fun deposit _ => deposit.changes
  | _ => fun _ => []

theorem changes_of_not_reaches (h : call.reaches = false) : call.changes setting = fun _ => [] := by
  rw [changes.eq_def]
  split
  case h_7 => rfl
  all_goals cases h

/-- **A call makes the changes that are listed for it**, and no others. -/
theorem records_run (call : Syscall) :
    Exec.Records (call.changes setting) (call.run setting) := by
  cases reaches : call.reaches with
  | false =>
    rw [changes_of_not_reaches reaches]
    exact keeps_run (R := Makes []) setting reaches
  | true =>
    cases call with
    | contract call =>
      cases call with
      | create =>
        show Exec.Records _ (Exec.contract setting .create)
        rw [Exec.create_eq]
        exact Exec.records_deployNew.bind_keeps Exec.keeps_pushContract
      | migrate => exact Exec.records_migrate
      | destroy =>
        exact fun m => Exec.wp_executing.2 (Exec.records_destroyContract setting m.executing m)
      | getStorageContext => exact Exec.keeps_contractStorage (R := Makes [])
      | getScript | isPayable => cases reaches
    | storage call =>
      cases call with
      | getContext =>
        exact Exec.Keeps.bind (R := Makes []) Exec.keeps_executing fun _ => Exec.keeps_grant _
      | put => exact Exec.records_put false
      | putEx => exact Exec.records_put true
      | delete => exact Exec.records_delete
      | getReadOnlyContext | get | find | asReadOnly => cases reaches
    | _ => cases reaches

/-- **The changes that a call makes are those of the running script.** -/
theorem signed (call : Syscall) : Exec.Signed (call.changes setting) := by
  have deposits {c : Exec World Exec.Deposit} :
      Exec.Signed (Exec.behind c fun deposit _ => deposit.changes) := by
    intro m change mem
    obtain ⟨deposit, m', -, mem⟩ := Exec.mem_behind.1 mem
    rw [(Exec.Deposit.eq_of_mem_changes mem).2]
    exact trivial
  rw [changes.eq_def]
  split
  · exact Exec.signed_deployNew
  · exact Exec.signed_migrate
  · exact fun m change => Exec.by_of_mem_destroyChanges
  case h_7 => exact fun m change mem => absurd mem List.not_mem_nil
  all_goals exact deposits

/-- **Contracts are destroyed by two calls only.** -/
theorem eq_of_destroyed_mem {scriptHash : Bytes}
    (mem : .destroyed scriptHash ∈ call.changes setting m) :
    call = .contract .destroy ∨ call = .contract .migrate := by
  rw [changes.eq_def] at mem
  split at mem
  · obtain ⟨d, creator, deployed⟩ := Exec.eq_deployed_of_mem_newChanges mem
    cases deployed
  · exact .inr rfl
  · exact .inl rfl
  case h_7 => cases mem
  all_goals
    obtain ⟨deposit, m', -, mem⟩ := Exec.mem_behind.1 mem
    cases (Exec.Deposit.eq_of_mem_changes mem).2

/-- **What is written is written through a context that lies on top of the stack** and allows it. -/
theorem offered_of_mem_changes {call : StorageCall} {change : Change}
    (mem : change ∈ changes setting (.storage call) m) :
    ∃ handle rest scriptHash key value, m.stack.items = .handle handle :: rest ∧
      m.heap.object? handle = some (.storageContext ⟨scriptHash, false⟩) ∧
      change = .put scriptHash key value := by
  have deposits {c : Exec World Exec.Deposit}
      (takes : Exec.Takes m.heap (fun operands deposit => deposit.Offered m.heap operands) c)
      (mem : change ∈ Exec.behind c (fun deposit _ => deposit.changes) m) :
      ∃ handle rest scriptHash key value, m.stack.items = .handle handle :: rest ∧
        m.heap.object? handle = some (.storageContext ⟨scriptHash, false⟩) ∧
        change = .put scriptHash key value := by
    obtain ⟨⟨⟨scriptHash, readOnly⟩, key, value⟩, m', outcome, mem⟩ := Exec.mem_behind.1 mem
    obtain ⟨writable, same⟩ := Exec.Deposit.eq_of_mem_changes mem
    obtain ⟨operands, rest, items, offered, -⟩ := takes m _ m' rfl outcome
    rw [Exec.Deposit.Offered.eq_def] at offered
    split at offered
    · cases writable
      exact ⟨_, _, scriptHash, key, value, items, offered, same⟩
    · exact offered.elim
  cases call with
  | put => exact deposits (Exec.takes_popDeposit false) mem
  | putEx => exact deposits (Exec.takes_popDeposit true) mem
  | delete => exact deposits Exec.takes_popDeletion mem
  | getContext | getReadOnlyContext | get | find | asReadOnly => cases mem

end Syscall

end DryRun
