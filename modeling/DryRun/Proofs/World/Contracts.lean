import DryRun.World.Contracts

/-!
# What the run has made of contracts

The overlay answers for a contract by the last thing that happened to it: `lookup_deploy` and
`lookup_destroy` say how each change is seen, and everything else follows from these two.
-/

set_option autoImplicit false

namespace DryRun.ContractOverlay

variable {overlay : ContractOverlay} {scriptHash : Bytes}

theorem lookup_deploy (deployed : Deployed) (creator : Option Bytes) :
    (overlay.deploy deployed creator).lookup scriptHash =
      if deployed.contract.scriptHash = scriptHash then some (some deployed)
      else overlay.lookup scriptHash := by
  show ((overlay.fates.insert (_, some deployed)).find? scriptHash).map Prod.snd = _
  rw [Table.find?_insert]
  split
  · rfl
  · rfl

theorem lookup_destroy (destroyed : Bytes) :
    (overlay.destroy destroyed).lookup scriptHash =
      if destroyed = scriptHash then some none else overlay.lookup scriptHash := by
  show ((overlay.fates.insert (destroyed, none)).find? scriptHash).map Prod.snd = _
  rw [Table.find?_insert]
  split
  · rfl
  · rfl

/-! ## Standing deployments -/

theorem isLocal_iff :
    overlay.isLocal scriptHash = true ↔ ∃ d, overlay.lookup scriptHash = some (some d) := by
  rw [isLocal]
  split
  · next d found => exact ⟨fun _ => ⟨d, found⟩, fun _ => rfl⟩
  · next none =>
    refine ⟨fun h => (Bool.false_ne_true h).elim, ?_⟩
    rintro ⟨d, found⟩
    exact absurd found (none d)

theorem isLocal_deploy (deployed : Deployed) (creator : Option Bytes) :
    (overlay.deploy deployed creator).isLocal deployed.contract.scriptHash = true :=
  isLocal_iff.2 ⟨deployed, by rw [lookup_deploy, if_pos rfl]⟩

/-- Deploying a contract leaves the other deployments alone. -/
theorem isLocal_deploy_of_isLocal (h : overlay.isLocal scriptHash = true) (deployed : Deployed)
    (creator : Option Bytes) : (overlay.deploy deployed creator).isLocal scriptHash = true := by
  rw [isLocal_iff] at h ⊢
  rw [lookup_deploy]
  split
  · exact ⟨deployed, rfl⟩
  · exact h

theorem isLocal_destroy_of_ne {destroyed : Bytes} (h : destroyed ≠ scriptHash) :
    (overlay.destroy destroyed).isLocal scriptHash = overlay.isLocal scriptHash := by
  rw [isLocal, isLocal, lookup_destroy, if_neg h]

theorem creatorOf_deploy (deployed : Deployed) (creator : Bytes) :
    (overlay.deploy deployed (some creator)).creatorOf scriptHash =
      if deployed.contract.scriptHash = scriptHash then some creator
      else overlay.creatorOf scriptHash := by
  by_cases same : deployed.contract.scriptHash = scriptHash
  · have standing : (overlay.deploy deployed (some creator)).isLocal scriptHash = true := by
      rw [← same]
      exact isLocal_deploy deployed (some creator)
    rw [creatorOf, if_pos standing, if_pos same]
    show ((overlay.creators.insert (_, creator)).find? scriptHash).map Prod.snd = _
    rw [Table.find?_insert, if_pos same]
    rfl
  · rw [creatorOf, creatorOf, isLocal, isLocal, lookup_deploy, if_neg same, if_neg same]
    show (if _ then ((overlay.creators.insert (_, creator)).find? scriptHash).map Prod.snd
      else _) = _
    rw [Table.find?_insert, if_neg same]

theorem creatorOf_destroy_of_ne {destroyed : Bytes} (h : destroyed ≠ scriptHash) :
    (overlay.destroy destroyed).creatorOf scriptHash = overlay.creatorOf scriptHash := by
  rw [creatorOf, creatorOf, isLocal_destroy_of_ne h]
  rfl

/-- A contract whose deployment does not stand has no creator. -/
theorem isLocal_of_creatorOf {creator : Bytes} (h : overlay.creatorOf scriptHash = some creator) :
    overlay.isLocal scriptHash = true := by
  rw [creatorOf] at h
  split at h
  · next standing => exact standing
  · cases h

end DryRun.ContractOverlay
