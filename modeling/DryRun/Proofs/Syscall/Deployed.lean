import DryRun.Proofs.Chain.Contract
import DryRun.Proofs.Syscall.Calls
import DryRun.Proofs.World.Contracts

/-!
# What is deployed in a run

Of a contract whose deployment stands one can rely on two things: it is kept under the hash of its
own script, and that script is no longer than a script may be.  `ContractOverlay.Sound` says this of
all of them, and since `Machine.KeepsSound` is tolerant no system call breaks it.  For contracts of
the node the second is `Node.returns_contract`, so that every contract a run can find is short
(`Exec.short_findContract`).
-/

set_option autoImplicit false

namespace DryRun

open Machine (Discreet Outward Tolerant)

/-- Every deployment that stands is kept under the hash of its script, which is short. -/
def ContractOverlay.Sound (overlay : ContractOverlay) : Prop :=
  ∀ scriptHash d, overlay.lookup scriptHash = some (some d) →
    d.contract.scriptHash = scriptHash ∧ d.contract.IsShort

namespace ContractOverlay

variable {overlay : ContractOverlay}

theorem sound_empty : empty.Sound := by
  intro scriptHash d h
  cases h

theorem Sound.deploy (h : overlay.Sound) {d : Deployed} (short : d.contract.IsShort)
    (creator : Option Bytes) : (overlay.deploy d creator).Sound := by
  intro scriptHash d' found
  rw [lookup_deploy] at found
  split at found
  · next same =>
    cases found
    exact ⟨same, short⟩
  · exact h scriptHash d' found

theorem Sound.destroy (h : overlay.Sound) (destroyed : Bytes) :
    (overlay.destroy destroyed).Sound := by
  intro scriptHash d found
  rw [lookup_destroy] at found
  split at found
  · cases found
  · exact h scriptHash d found

end ContractOverlay

namespace Machine

/-- If the deployments were sound they still are. -/
def KeepsSound (m m' : Machine World) : Prop :=
  m.world.contracts.Sound → m'.world.contracts.Sound

instance : Outward KeepsSound where
  trans h k sound := k (h sound)
  of_same world _ sound := by rwa [world]

instance : Discreet KeepsSound where
  asked _ _ _ := Exec.keeps_asking _ fun _ _ sound => sound
  announced _ := Exec.keeps_modify fun _ sound => sound
  evolved _ _ _ := id

/-- **No system call deploys a contract under another name or with a script that is too long.** -/
instance : Tolerant KeepsSound where
  stored _ _ := id
  deployed short _ _ creator h := h.deploy short (some creator)
  destroyed _ scriptHash h := h.destroy scriptHash
  granted _ _ := id

end Machine

/-- **Every step keeps the deployments sound.** -/
theorem Machine.Step.keepsSound {setting : Setting} {limit : GasLimit} {m m' : Machine World}
    (step : Machine.Step (setting.host limit) m m') : Machine.KeepsSound m m' :=
  step.keeps (fun name => Exec.keeps_findCallee name) (Syscall.keeps_run_all setting)

/-! ## What a run can find -/

namespace Exec

variable {setting : Setting} {m m' : Machine World}

/-- A contract that is found has a short script. -/
theorem short_findContract (sound : m.world.contracts.Sound) {scriptHash : Bytes}
    {found : FoundContract} (h : findContract setting scriptHash m = .ok (some found) m') :
    found.contract.IsShort := by
  rw [findContract_eq] at h
  split at h
  · next fate standing =>
    cases fate with
    | none => cases h
    | some d =>
      cases h
      exact (sound scriptHash d standing).2
  · have remote : Returns (fun found : Option FoundContract =>
        ∀ f, found = some f → f.contract.IsShort)
        (do
          let found ← asking (setting.node.contract scriptHash setting.height)
          return found.map FoundContract.remote : Exec World (Option FoundContract)) := by
      refine (returns_asking (setting.node.returns_contract _ _)).bind fun found hfound => ?_
      refine .pure fun f hf => ?_
      obtain ⟨c, hc, rfl⟩ := Option.map_eq_some_iff.1 hf
      exact hfound c hc
    exact remote _ _ _ h found rfl

theorem short_findCallee (sound : m.world.contracts.Sound) {scriptHash : Bytes}
    {callee : Callee} (h : findCallee setting scriptHash m = .ok (some callee) m') :
    callee.script.length ≤ Reader.maxFieldSize := by
  rw [findCallee] at h
  cases answer : findContract setting scriptHash m with
  | error fault m₁ =>
    rw [bind_eq, answer] at h
    cases h
  | ok found m₁ =>
    rw [bind_eq, answer] at h
    cases found with
    | none => cases h
    | some found =>
      cases h
      exact short_findContract sound answer

end Exec

end DryRun
