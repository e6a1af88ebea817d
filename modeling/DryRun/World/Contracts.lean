import DryRun.Chain.Contract
import DryRun.Table

/-!
# Contracts deployed and destroyed in a run

The last thing that happened to a contract in the run decides whether it exists; only contracts to
which nothing happened are looked up at the node.
-/

set_option autoImplicit false

namespace DryRun

/-- A contract that was deployed in the run. -/
structure Deployed where
  /-- The contract. -/
  contract : Contract
  /-- The number of its object, the same for all handles to it. -/
  object : Nat
deriving DecidableEq

/-- What happened to contracts. -/
structure ContractOverlay where
  /-- For each contract that was touched the deployment that still stands, if one does. -/
  fates : Table (Prod.fst : Bytes × Option Deployed → Bytes)
  /-- Who deployed a contract; a later deployment that names nobody leaves this. -/
  creators : Table (Prod.fst : Bytes × Bytes → Bytes)

namespace ContractOverlay

/-- Nothing happened yet. -/
def empty : ContractOverlay := ⟨.empty, .empty⟩

/-- Deploy a contract, possibly in someone's name. -/
def deploy (overlay : ContractOverlay) (deployed : Deployed) (creator : Option Bytes) :
    ContractOverlay :=
  let scriptHash := deployed.contract.scriptHash
  { fates := overlay.fates.insert (scriptHash, some deployed)
    creators := match creator with
      | some creator => overlay.creators.insert (scriptHash, creator)
      | none => overlay.creators }

/-- Destroy a contract, whether it was deployed here or not. -/
def destroy (overlay : ContractOverlay) (scriptHash : Bytes) : ContractOverlay :=
  { overlay with fates := overlay.fates.insert (scriptHash, none) }

/-- What the run has made of a contract: nothing, a destruction or a deployment. -/
def lookup (overlay : ContractOverlay) (scriptHash : Bytes) : Option (Option Deployed) :=
  (overlay.fates.find? scriptHash).map Prod.snd

/-- Does a deployment of this run stand? -/
def isLocal (overlay : ContractOverlay) (scriptHash : Bytes) : Bool :=
  match overlay.lookup scriptHash with
  | some (some _) => true
  | _ => false

/-- Who deployed a contract whose deployment stands. -/
def creatorOf (overlay : ContractOverlay) (scriptHash : Bytes) : Option Bytes :=
  if overlay.isLocal scriptHash then (overlay.creators.find? scriptHash).map Prod.snd else none

end ContractOverlay

end DryRun
