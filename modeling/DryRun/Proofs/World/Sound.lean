import DryRun.Proofs.Machine.Sound
import DryRun.Proofs.World.Contracts
import DryRun.Proofs.World.Storage
import DryRun.World

/-!
# Sound worlds

System calls read stored values and push the objects of contracts that were deployed, so for a
machine to stay sound its world must be: the values may be pushed, and the objects were made.  The
two parts of a world that matter, its storage and its contracts, are gone through change by change.
-/

set_option autoImplicit false

namespace DryRun

/-- The object of a contract that was deployed was made, and its script may be pushed. -/
def Deployed.Sound (heap : Heap) (value : Primitive → Prop) (d : Deployed) : Prop :=
  heap.Has (.handle ⟨d.object, []⟩) ∧ value (.bytes d.contract.script)

/-- All values that the run has written may be pushed. -/
def StorageOverlay.Sound (value : Primitive → Prop) (overlay : StorageOverlay) : Prop :=
  ∀ scriptHash key b, overlay.written scriptHash key = some b → value (.bytes b)

/-- All deployments that stand are sound. -/
def ContractOverlay.Admitted (heap : Heap) (value : Primitive → Prop) (overlay : ContractOverlay) :
    Prop :=
  ∀ scriptHash d, overlay.lookup scriptHash = some (some d) → d.Sound heap value

variable {heap heap' : Heap} {value : Primitive → Prop}

/-! ## Storage -/

namespace StorageOverlay

variable {overlay after : StorageOverlay}

theorem sound_empty : Sound value .empty := fun _ _ _ found => by cases found

theorem Sound.insert (h : overlay.Sound value) {b : Bytes} (fit : value (.bytes b))
    (scriptHash key : Bytes) : Sound value (Table.insert overlay ((scriptHash, key), b)) := by
  intro scriptHash' key' c found
  rw [written_insert] at found
  split at found
  · cases found
    exact fit
  · exact h _ _ _ found

theorem Sound.write (h : overlay.Sound value) {b : Bytes} (fit : value (.bytes b))
    {context : StorageContext} {key : Bytes} (done : overlay.write context key b = .ok after) :
    after.Sound value := by
  cases readOnly : context.readOnly with
  | true => rw [write_of_readOnly readOnly] at done; cases done
  | false =>
    rw [write_of_not_readOnly readOnly] at done
    cases done
    exact h.insert fit _ _

theorem Sound.copy (h : overlay.Sound value) (source target : Bytes) :
    (overlay.copy source target).Sound value := by
  intro scriptHash key b found
  rw [written_copy] at found
  split at found
  · rcases Option.or_eq_some_iff.1 found with found | ⟨-, found⟩
    · exact h _ _ _ found
    · exact h _ _ _ found
  · exact h _ _ _ found

theorem Sound.wipe [Primitive.Standard value] (h : overlay.Sound value) (scriptHash : Bytes) :
    (overlay.wipe scriptHash).Sound value := by
  intro scriptHash' key b found
  rw [written_wipe] at found
  split at found
  · obtain ⟨c, written, rfl⟩ := Option.map_eq_some_iff.1 found
    exact Primitive.Standard.shorter (h _ _ _ written) (Nat.zero_le _)
  · exact h _ _ _ found

end StorageOverlay

/-! ## Contracts -/

theorem Deployed.Sound.mono {d : Deployed} (h : d.Sound heap value) (le : heap.Le heap') :
    d.Sound heap' value :=
  ⟨le _ h.1, h.2⟩

namespace ContractOverlay

variable {overlay : ContractOverlay}

theorem admitted_empty : empty.Admitted heap value := fun _ _ found => by cases found

theorem Admitted.mono (h : overlay.Admitted heap value) (le : heap.Le heap') :
    overlay.Admitted heap' value :=
  fun scriptHash d found => (h scriptHash d found).mono le

theorem Admitted.deploy (h : overlay.Admitted heap value) {d : Deployed}
    (fit : d.Sound heap value) (creator : Option Bytes) :
    (overlay.deploy d creator).Admitted heap value := by
  intro scriptHash d' found
  rw [lookup_deploy] at found
  split at found
  · cases found
    exact fit
  · exact h scriptHash d' found

theorem Admitted.destroy (h : overlay.Admitted heap value) (destroyed : Bytes) :
    (overlay.destroy destroyed).Admitted heap value := by
  intro scriptHash d found
  rw [lookup_destroy] at found
  split at found
  · cases found
  · exact h scriptHash d found

end ContractOverlay

/-! ## Worlds -/

/-- Stored values may be pushed, and the objects of contracts that were deployed were made. -/
structure World.Sound (heap : Heap) (value : Primitive → Prop) (w : World) : Prop where
  /-- The storage. -/
  storage : w.storage.Sound value
  /-- The contracts. -/
  contracts : w.contracts.Admitted heap value

/-- What machines and worlds keep to, given the plain values there may be. -/
def World.standard (value : Primitive → Prop) [values : Primitive.Standard value] :
    Machine.Standard World where
  value := value
  world heap w := w.Sound heap value
  values := values
  mono le h := ⟨h.storage, h.contracts.mono le⟩

/-- The world before a run is sound. -/
theorem World.sound_fresh (link : Link) : (World.fresh link).Sound heap value :=
  ⟨StorageOverlay.sound_empty, ContractOverlay.admitted_empty⟩

end DryRun
