import DryRun.Proofs.Run.History

/-!
# Creators of contracts

The creator of a contract is recorded apart from its deployment.  A deployment that names nobody
leaves the record as it is, and so does a destruction; while a contract is gone its record is not
looked at, but it is still there when the contract comes back.

This file says for every history of deployments and destructions who counts as the creator of a
contract.  A history lists its operations with the latest one first.

* `latest?` is the latest operation at a contract, and `named?` the creator whom it names, so that
  nobody is named once the contract is destroyed.
* `recorded?` is the creator named by the latest of those deployments that name one at all.
* `creatorOf_after` — the one who counts is the one who is recorded, as long as the contract is
  there.
* `creatorOf_eq_named_iff` — so the latest deployment decides, unless it names nobody and a record
  from before *lingers*.
* `creators_follow_deployments` — all of this, and that no record lingers in a run: each of its
  deployments is in the name of the script that is running.
-/

set_option autoImplicit false

namespace DryRun

namespace ContractOverlay

/-! ## Histories of deployments -/

/-- What is done to contracts. -/
inductive Operation where
  /-- A contract is deployed, possibly in somebody's name. -/
  | deploy (deployed : Deployed) (creator : Option Bytes)
  /-- A contract is destroyed. -/
  | destroy (scriptHash : Bytes)
deriving DecidableEq

namespace Operation

/-- The contract that an operation is about. -/
def scriptHash : Operation → Bytes
  | .deploy deployed _ => deployed.contract.scriptHash
  | .destroy scriptHash => scriptHash

/-- The deployment that stands after an operation. -/
def deployed? : Operation → Option Deployed
  | .deploy deployed _ => some deployed
  | .destroy _ => none

/-- The creator whom an operation names. -/
def creator? : Operation → Option Bytes
  | .deploy _ creator => creator
  | .destroy _ => none

end Operation

/-- Carry out an operation. -/
def perform (overlay : ContractOverlay) : Operation → ContractOverlay
  | .deploy deployed creator => overlay.deploy deployed creator
  | .destroy scriptHash => overlay.destroy scriptHash

/-- The overlay after a history that begins with nothing. -/
def after (history : List Operation) : ContractOverlay :=
  history.foldr (fun op overlay => overlay.perform op) .empty

/-- The latest operation at a contract. -/
def latest? (history : List Operation) (scriptHash : Bytes) : Option Operation :=
  history.find? fun op => op.scriptHash = scriptHash

/-- The creator whom the latest deployment of a contract names, if it was not destroyed since. -/
def named? (history : List Operation) (scriptHash : Bytes) : Option Bytes :=
  (latest? history scriptHash).bind Operation.creator?

/-- The creator whom the latest of those deployments of a contract names that name one at all,
whether or not it was destroyed since. -/
def recorded? (history : List Operation) (scriptHash : Bytes) : Option Bytes :=
  history.findSome? fun op => if op.scriptHash = scriptHash then op.creator? else none

/-- The record of a creator lingers: the contract is there by a deployment that names nobody, and
an earlier one has named him. -/
def Lingers (history : List Operation) (scriptHash creator : Bytes) : Prop :=
  ∃ deployed, latest? history scriptHash = some (.deploy deployed none) ∧
    recorded? history scriptHash = some creator

/-- The creator who is recorded for a contract, whether or not it is there. -/
def record (overlay : ContractOverlay) (scriptHash : Bytes) : Option Bytes :=
  (overlay.creators.find? scriptHash).map Prod.snd

variable {overlay : ContractOverlay} {history : List Operation} {scriptHash creator : Bytes}

/-! ### One operation -/

theorem lookup_perform (op : Operation) :
    (overlay.perform op).lookup scriptHash =
      if op.scriptHash = scriptHash then some op.deployed? else overlay.lookup scriptHash := by
  rcases op with ⟨deployed, creator⟩ | gone
  · exact lookup_deploy deployed creator
  · exact lookup_destroy gone

/-- An operation changes the record only if it names a creator. -/
theorem record_perform (op : Operation) :
    (overlay.perform op).record scriptHash =
      (if op.scriptHash = scriptHash then op.creator? else none).or
        (overlay.record scriptHash) := by
  rcases op with ⟨deployed, _ | creator⟩ | gone
  · simp [record, perform, deploy, Operation.creator?]
  · by_cases same : deployed.contract.scriptHash = scriptHash <;>
      simp [record, perform, deploy, Operation.creator?, Operation.scriptHash, Table.find?_insert,
        same]
  · simp [record, perform, destroy, Operation.creator?]

/-! ### Whole histories -/

theorem after_cons (op : Operation) (earlier : List Operation) :
    after (op :: earlier) = (after earlier).perform op := rfl

theorem latest?_cons (op : Operation) (earlier : List Operation) :
    latest? (op :: earlier) scriptHash =
      if op.scriptHash = scriptHash then some op else latest? earlier scriptHash := by
  by_cases same : op.scriptHash = scriptHash <;> simp [latest?, same]

theorem recorded?_cons (op : Operation) (earlier : List Operation) :
    recorded? (op :: earlier) scriptHash =
      (if op.scriptHash = scriptHash then op.creator? else none).or
        (recorded? earlier scriptHash) := by
  rw [recorded?, recorded?, List.findSome?_cons]
  cases (if op.scriptHash = scriptHash then op.creator? else none) <;> rfl

/-- **The latest operation decides** whether a contract is there. -/
theorem lookup_after (history : List Operation) (scriptHash : Bytes) :
    (after history).lookup scriptHash = (latest? history scriptHash).map Operation.deployed? := by
  induction history with
  | nil => rfl
  | cons op earlier ih =>
    rw [after_cons, lookup_perform, ih, latest?_cons]
    split <;> rfl

/-- **The latest name is recorded.** -/
theorem record_after (history : List Operation) (scriptHash : Bytes) :
    (after history).record scriptHash = recorded? history scriptHash := by
  induction history with
  | nil => rfl
  | cons op earlier ih => rw [after_cons, record_perform, ih, recorded?_cons]

theorem isLocal_after_iff (history : List Operation) (scriptHash : Bytes) :
    (after history).isLocal scriptHash = true ↔
      ∃ deployed creator, latest? history scriptHash = some (.deploy deployed creator) := by
  rw [isLocal, lookup_after]
  rcases latest? history scriptHash with _ | ⟨deployed, creator⟩ | gone <;>
    simp [Operation.deployed?]

/-- **Who is recorded counts** as long as the contract is there. -/
theorem creatorOf_after (history : List Operation) (scriptHash : Bytes) :
    (after history).creatorOf scriptHash =
      if (after history).isLocal scriptHash then recorded? history scriptHash else none := by
  rw [← record_after]
  rfl

/-- Whom the latest operation at a contract names is recorded. -/
theorem recorded_of_named (h : named? history scriptHash = some creator) :
    recorded? history scriptHash = some creator := by
  induction history with
  | nil => cases h
  | cons op earlier ih =>
    rw [named?, latest?_cons] at h
    rw [recorded?_cons]
    split at h
    · next same =>
      have names : op.creator? = some creator := h
      rw [if_pos same, names, Option.some_or]
    · next other => rw [if_neg other, ih h, Option.none_or]

/-- **The latest deployment decides** who counts as the creator, unless a record lingers. -/
theorem creatorOf_eq_named_iff (history : List Operation) (scriptHash : Bytes) :
    (after history).creatorOf scriptHash = named? history scriptHash ↔
      ¬∃ creator, Lingers history scriptHash creator := by
  by_cases live : (after history).isLocal scriptHash
  · obtain ⟨deployed, creator, latest⟩ := (isLocal_after_iff history scriptHash).1 live
    have named : named? history scriptHash = creator := by rw [named?, latest]; rfl
    rw [creatorOf_after, if_pos live, named]
    rcases creator with _ | creator
    · -- nobody is named, so that only those who named somebody before can be recorded
      simp [Lingers, latest, Option.eq_none_iff_forall_ne_some]
    · have recorded := recorded_of_named named
      simp [Lingers, latest, recorded]
  · have gone (deployed : Deployed) (creator : Option Bytes) :
        latest? history scriptHash ≠ some (.deploy deployed creator) := fun latest =>
      live ((isLocal_after_iff history scriptHash).2 ⟨deployed, creator, latest⟩)
    have nobody : named? history scriptHash = none := by
      rw [named?]
      rcases latest : latest? history scriptHash with _ | ⟨deployed, creator⟩ | destroyed
      · rfl
      · exact absurd latest (gone deployed creator)
      · rfl
    rw [creatorOf_after, if_neg live, nobody]
    simp [Lingers, gone]

/-- A contract that is deployed has the creator that is named, or else the one that is recorded. -/
theorem creatorOf_deployed (deployed : Deployed) (creator : Option Bytes)
    (earlier : List Operation) :
    (after (.deploy deployed creator :: earlier)).creatorOf deployed.contract.scriptHash =
      creator.or (recorded? earlier deployed.contract.scriptHash) := by
  have live : (after (.deploy deployed creator :: earlier)).isLocal _ = true :=
    isLocal_deploy deployed creator
  rw [creatorOf_after, if_pos live, recorded?_cons, Operation.scriptHash, if_pos rfl,
    Operation.creator?]

/-- A contract that comes back in nobody's name comes back to its earlier creator. -/
theorem creatorOf_redeployed (deployed : Deployed) (creator : Bytes) (earlier : List Operation) :
    (after (.deploy deployed none :: .destroy deployed.contract.scriptHash ::
      .deploy deployed (some creator) :: earlier)).creatorOf deployed.contract.scriptHash =
      some creator := by
  rw [creatorOf_deployed, recorded?_cons, recorded?_cons]
  simp [Operation.scriptHash, Operation.creator?]

end ContractOverlay

/-! ## Whole runs -/

/-- What a change does to contracts. -/
def Change.operation? : Change → Option ContractOverlay.Operation
  | .deployed d creator => some (.deploy d (some creator))
  | .destroyed scriptHash => some (.destroy scriptHash)
  | .put .. | .carried .. => none

open ContractOverlay (Lingers Operation after latest? named? recorded?)

variable {changes : List Change} {scriptHash creator : Bytes}

/-- The contracts of a run are made by what its changes do to them. -/
theorem Stores.contracts_after_eq (changes : List Change) :
    (Stores.empty.after changes).contracts =
      ContractOverlay.after (changes.filterMap Change.operation?) := by
  induction changes with
  | nil => rfl
  | cons change earlier ih =>
    rw [Stores.after_cons]
    rcases change with ⟨target, key, value⟩ | ⟨source, target⟩ | ⟨deployed, creator⟩ | gone
    · exact ih
    · exact ih
    · exact congrArg (·.deploy deployed (some creator)) ih
    · exact congrArg (·.destroy gone) ih

/-- Every deployment that is a change names somebody, so that no record lingers. -/
theorem Change.not_lingers : ¬Lingers (changes.filterMap Change.operation?) scriptHash creator := by
  rintro ⟨deployed, latest, -⟩
  obtain ⟨change, -, does⟩ := List.mem_filterMap.1 (List.mem_of_find?_eq_some latest)
  rcases change with ⟨target, key, value⟩ | ⟨source, target⟩ | ⟨deployed, creator⟩ | gone <;>
    cases does

/-- **Creators follow deployments.**  After any history of deployments and destructions that begins
with nothing,

* a contract is there if the latest operation at it is a deployment;
* then its creator is the one named by the latest deployment that names one, and otherwise it has
  none;
* this is the one whom the latest deployment names, unless that one names nobody and the record of
  an earlier one lingers, from before a destruction or not.

At every time of a run it is the one whom the latest deployment names. -/
theorem creators_follow_deployments (history : List Operation) (scriptHash : Bytes) :
    ((after history).isLocal scriptHash = true ↔
      ∃ deployed creator, latest? history scriptHash = some (.deploy deployed creator)) ∧
    ((after history).creatorOf scriptHash =
      if (after history).isLocal scriptHash then recorded? history scriptHash else none) ∧
    ((after history).creatorOf scriptHash = named? history scriptHash ↔
      ¬∃ creator, Lingers history scriptHash creator) ∧
    ∀ (setting : Setting) (limit : GasLimit) (script : Bytes) (dynamicInvoke : Bool) (link : Link)
      (n : Nat),
      let start := Machine.load script dynamicInvoke (.fresh link)
      (start.runFor (setting.host limit) n).world.contracts.creatorOf scriptHash =
        named? ((start.history setting limit n).filterMap Change.operation?) scriptHash := by
  refine ⟨ContractOverlay.isLocal_after_iff history scriptHash,
    ContractOverlay.creatorOf_after history scriptHash,
    ContractOverlay.creatorOf_eq_named_iff history scriptHash, ?_⟩
  intro setting limit script dynamicInvoke link n start
  have knows := knows_history setting limit script dynamicInvoke link n
  rw [knows.contracts, Stores.contracts_after_eq, ContractOverlay.creatorOf_eq_named_iff]
  rintro ⟨creator, lingers⟩
  exact Change.not_lingers lingers

end DryRun
