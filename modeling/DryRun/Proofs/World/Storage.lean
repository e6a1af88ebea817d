import DryRun.Proofs.Table
import DryRun.World.Storage

/-!
# What a run has written into storage

`StorageOverlay.written` is the value that a run has put under a key of a contract, if it has put
any; a deleted key holds the empty value.  Every change of the overlay is described by what is
written afterwards: one value by `written_insert`, and all values of a contract by `written_copy`
and `written_wipe`.
-/

set_option autoImplicit false

namespace DryRun

namespace StorageOverlay

variable {overlay : StorageOverlay} {scriptHash key value : Bytes}

/-- What the run has put under a key of a contract. -/
def written (overlay : StorageOverlay) (scriptHash key : Bytes) : Option Bytes :=
  (overlay.find? (scriptHash, key)).map Prod.snd

theorem written_empty : written .empty scriptHash key = none := rfl

theorem written_insert (target key' value : Bytes) :
    written (overlay.insert ((target, key'), value)) scriptHash key =
      if target = scriptHash ∧ key' = key then some value else written overlay scriptHash key := by
  rw [written, written, Table.find?_insert]
  by_cases same : target = scriptHash ∧ key' = key
  · rw [if_pos same, if_pos (Prod.ext same.1 same.2)]
    rfl
  · rw [if_neg same, if_neg fun h => same ⟨congrArg Prod.fst h, congrArg Prod.snd h⟩]

/-! ## Reading and writing through a context -/

theorem read_eq {node : Node} {height : Nat} (context : StorageContext) (key : Bytes) :
    overlay.read node height context key =
      match written overlay context.scriptHash key with
      | some value => pure value
      | none => node.storage context.scriptHash key height := by
  rw [read, written]
  cases overlay.find? (context.scriptHash, key) with
  | none => rfl
  | some row => rfl

theorem write_of_readOnly {context : StorageContext} (h : context.readOnly = true)
    (key value : Bytes) : overlay.write context key value = .error .readOnly := by
  rw [write, if_pos h]

theorem write_of_not_readOnly {context : StorageContext} (h : context.readOnly = false)
    (key value : Bytes) :
    overlay.write context key value = .ok (overlay.insert ((context.scriptHash, key), value)) := by
  rw [write, h]
  rfl

/-! ## All values of a contract -/

theorem mem_ofContract :
    (key, value) ∈ overlay.ofContract scriptHash ↔ written overlay scriptHash key = some value := by
  rw [ofContract, List.mem_filterMap, written, Option.map_eq_some_iff]
  constructor
  · rintro ⟨⟨⟨owner, k⟩, v⟩, mem, h⟩
    dsimp only at h
    split at h
    · next own =>
      cases h
      exact ⟨((owner, key), value), (Table.find?_eq_some_iff _).2 ⟨mem, by rw [own]⟩, rfl⟩
    · cases h
  · rintro ⟨⟨owned, v⟩, found, rfl⟩
    obtain ⟨mem, hk⟩ := (Table.find?_eq_some_iff _).1 found
    refine ⟨_, mem, ?_⟩
    dsimp only at hk
    subst hk
    exact if_pos rfl

/-- The overlay in which values are put under one contract, each computed from another value. -/
def putAll (overlay : StorageOverlay) (target : Bytes) (f : Bytes → Bytes)
    (entries : List (Bytes × Bytes)) : StorageOverlay :=
  entries.foldl (fun overlay entry => overlay.insert ((target, entry.1), f entry.2)) overlay

section

variable {target : Bytes} {f : Bytes → Bytes} {entries : List (Bytes × Bytes)}

theorem putAll_cons (entry : Bytes × Bytes) : overlay.putAll target f (entry :: entries) =
    putAll (overlay.insert ((target, entry.1), f entry.2)) target f entries := rfl

theorem written_putAll_of_ne (h : target ≠ scriptHash) :
    written (overlay.putAll target f entries) scriptHash key = written overlay scriptHash key := by
  induction entries generalizing overlay with
  | nil => rfl
  | cons entry rest ih =>
    rw [putAll_cons, ih, written_insert, if_neg fun same => h same.1]

theorem written_putAll_of_not_mem (h : ∀ value, (key, value) ∉ entries) :
    written (overlay.putAll target f entries) target key = written overlay target key := by
  induction entries generalizing overlay with
  | nil => rfl
  | cons entry rest ih =>
    have other : entry.1 ≠ key := fun same => h entry.2 (by rw [← same]; exact List.mem_cons_self)
    rw [putAll_cons, ih fun value mem => h value (List.mem_cons_of_mem _ mem), written_insert,
      if_neg fun same => other same.2]

theorem written_putAll_of_mem (mem : (key, value) ∈ entries)
    (unique : ∀ v, (key, v) ∈ entries → v = value) :
    written (overlay.putAll target f entries) target key = some (f value) := by
  induction entries generalizing overlay with
  | nil => cases mem
  | cons entry rest ih =>
    have unique' (v : Bytes) (hv : (key, v) ∈ rest) : v = value :=
      unique v (List.mem_cons_of_mem entry hv)
    rw [putAll_cons]
    by_cases later : (key, value) ∈ rest
    · exact ih later unique'
    · rcases List.mem_cons.1 mem with rfl | mem
      · rw [written_putAll_of_not_mem fun v hv => later (unique' v hv ▸ hv), written_insert,
          if_pos ⟨rfl, rfl⟩]
      · exact absurd mem later

theorem written_putAll_ofContract (source : Bytes) :
    written (overlay.putAll target f (overlay.ofContract source)) target key =
      ((written overlay source key).map f).or (written overlay target key) := by
  cases found : written overlay source key with
  | none =>
    refine written_putAll_of_not_mem fun value mem => ?_
    rw [mem_ofContract, found] at mem
    cases mem
  | some value =>
    refine written_putAll_of_mem (mem_ofContract.2 found) fun v mem => ?_
    rw [mem_ofContract, found] at mem
    exact (Option.some.inj mem).symm

end

/-- **Copying** puts what is written under the source under the target, over what was there, and
leaves all other contracts alone. -/
theorem written_copy (source target : Bytes) :
    written (overlay.copy source target) scriptHash key =
      if target = scriptHash then (written overlay source key).or (written overlay target key)
      else written overlay scriptHash key := by
  have copy : overlay.copy source target =
      overlay.putAll target id (overlay.ofContract source) := rfl
  rw [copy]
  split
  · next same =>
    rw [← same, written_putAll_ofContract, Option.map_id, id]
  · next other => exact written_putAll_of_ne other

/-- **Wiping** deletes every key written under a contract and leaves all others alone. -/
theorem written_wipe (wiped : Bytes) :
    written (overlay.wipe wiped) scriptHash key =
      if wiped = scriptHash then (written overlay wiped key).map fun _ => []
      else written overlay scriptHash key := by
  have wipe : overlay.wipe wiped =
      overlay.putAll wiped (fun _ => []) (overlay.ofContract wiped) := rfl
  rw [wipe]
  split
  · next same =>
    rw [← same, written_putAll_ofContract]
    cases written overlay wiped key with
    | none => rfl
    | some value => rfl
  · next other => exact written_putAll_of_ne other

end StorageOverlay

end DryRun
