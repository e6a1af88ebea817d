import DryRun.Proofs.Run.History

/-!
# Storage after a destruction

Whoever destroys a contract in a run deletes what the run has written into its storage.  What the
node has there is not deleted: a key under which the run has not written anything is still asked
for at the node.

* `Machine.Offers` — a right to read the storage of a contract and a key are on top of the stack.
* `Exec.get_of_offers` — what reading a value comes to then.
* `storage_after_destruction` — what reading comes to after a destruction, as long as nothing is put
  under the key.
-/

set_option autoImplicit false

namespace DryRun

open StorageOverlay (written)

variable {setting : Setting} {limit : GasLimit} {m : Machine World}

/-- A context for the storage of a contract and a key are on top of the stack, above the rest. -/
def Machine.Offers (m : Machine World) (scriptHash key : Bytes) (rest : List Item) : Prop :=
  ∃ handle readOnly item, m.stack.items = .handle handle :: item :: rest ∧
    m.heap.object? handle = some (.storageContext ⟨scriptHash, readOnly⟩) ∧ item.toBytes = .ok key

namespace Exec

/-- **Reading a value** comes to what the run has written under the key, and only if it has written
nothing there to what the node has. -/
theorem get_of_offers {scriptHash key : Bytes} {rest : List Item}
    (offers : m.Offers scriptHash key rest) :
    storage setting .get m =
      match written m.world.storage scriptHash key with
      | some value => .ok () (m.withItems (.ofBytes value :: rest))
      | none =>
        (do pushBytes (← asking (setting.node.storage scriptHash key setting.height)))
          (m.withItems rest) := by
  obtain ⟨handle, readOnly, item, items, found, read⟩ := offers
  rw [storage, bind_eq, popContext_of_items items found]
  dsimp only
  rw [bind_eq, popBytes_of_items rfl read]
  dsimp only
  rw [get_bind, StorageOverlay.read_eq]
  show (asking _ >>= pushBytes) (m.withItems rest) = _
  dsimp only [Machine.world_withItems]
  cases written m.world.storage scriptHash key <;> rfl

end Exec

/-! ## Whole runs -/

section

variable (setting : Setting) (limit : GasLimit) (start : Machine World) (n : Nat)
  (scriptHash key : Bytes)

/-- Before some time of a run a contract was destroyed, and nothing was put under a key since.  What
was done before the destruction is `earlier`. -/
def DestroyedAfter (earlier : List Change) : Prop :=
  ∃ later, start.history setting limit n = later ++ .destroyed scriptHash :: earlier ∧
    ¬ Rewrites (Stores.empty.after (.destroyed scriptHash :: earlier)) scriptHash key later

/-- What reading from the storage of a contract comes to at some time of a run if the contract was
destroyed before and nothing was put under the key since. -/
structure AfterDestruction : Prop where
  /-- A script that asks for its destruction is destroyed, if there is a contract of its name. -/
  destroyed : ∀ k < n, ∀ m,
    (start.runFor (setting.host limit) k).call? setting limit = some (.contract .destroy, m) →
    ∀ found m', Exec.findContract setting scriptHash m = .ok (some found) m' →
    m.executing = scriptHash → .destroyed scriptHash ∈ start.history setting limit n
  /-- A script that migrates is destroyed, after the deployment of the one that takes its place. -/
  replaced : ∀ k < n, ∀ m,
    (start.runFor (setting.host limit) k).call? setting limit = some (.contract .migrate, m) →
    ∀ new m₁, Exec.deployNew setting m = .ok new m₁ →
    ∀ found m', Exec.findContract setting scriptHash m₁ = .ok (some found) m' →
    m.executing = scriptHash → .destroyed scriptHash ∈ start.history setting limit n
  /-- A contract is destroyed by itself, in one of these two calls. -/
  own : .destroyed scriptHash ∈ start.history setting limit n → ∃ k < n,
    (start.runFor (setting.host limit) k).Executes scriptHash ∧ ∃ call m,
      (start.runFor (setting.host limit) k).call? setting limit = some (call, m) ∧
      (call = .contract .destroy ∨ call = .contract .migrate)
  /-- Where the run had written something, the empty value is read and the node is not asked. -/
  emptied : ∀ earlier, DestroyedAfter setting limit start n scriptHash key earlier →
    written (Stores.empty.after earlier).storage scriptHash key ≠ none →
    ∀ m rest, m.world.storage = (start.runFor (setting.host limit) n).world.storage →
      m.Offers scriptHash key rest →
      Exec.storage setting .get m = .ok () (m.withItems (.ofBytes [] :: rest))
  /-- Where it had not, what the node has is read, as if there had been no destruction. -/
  spared : ∀ earlier, DestroyedAfter setting limit start n scriptHash key earlier →
    written (Stores.empty.after earlier).storage scriptHash key = none →
    ∀ m rest, m.world.storage = (start.runFor (setting.host limit) n).world.storage →
      m.Offers scriptHash key rest →
      Exec.storage setting .get m =
        (do Exec.pushBytes (← Exec.asking (setting.node.storage scriptHash key setting.height)))
          (m.withItems rest)

end

section

variable {start : Machine World} {n : Nat} {scriptHash key : Bytes}

theorem mem_history_of_call {k : Nat} (hk : k < n) {call : Syscall} {change : Change}
    (made : (start.runFor (setting.host limit) k).call? setting limit = some (call, m))
    (mem : change ∈ call.changes setting m) : change ∈ start.history setting limit n := by
  refine Machine.mem_history.2 ⟨k, hk, ?_⟩
  rwa [Machine.changes, made]

theorem exists_destroying_call (mem : .destroyed scriptHash ∈ start.history setting limit n) :
    ∃ k < n, (start.runFor (setting.host limit) k).Executes scriptHash ∧ ∃ call m,
      (start.runFor (setting.host limit) k).call? setting limit = some (call, m) ∧
      (call = .contract .destroy ∨ call = .contract .migrate) := by
  obtain ⟨k, hk, mem⟩ := Machine.mem_history.1 mem
  obtain ⟨signed, executes⟩ := Machine.by_of_mem_changes mem
  obtain ⟨call, m, made, mem⟩ := Machine.exists_call_of_mem_changes mem
  have own : scriptHash = _ := signed
  exact ⟨k, hk, own ▸ executes, call, m, made, call.eq_of_destroyed_mem mem⟩

/-- What is written under the key is the empty value, if anything was written before. -/
theorem written_of_destroyedAfter {earlier : List Change} (fresh : start.world.stores = .empty)
    (destroyed : DestroyedAfter setting limit start n scriptHash key earlier) :
    written (start.runFor (setting.host limit) n).world.storage scriptHash key =
      (written (Stores.empty.after earlier).storage scriptHash key).map fun _ => [] := by
  obtain ⟨later, history, still⟩ := destroyed
  have stores := (Machine.makes_runFor setting limit start n).stores
  rw [fresh, history, Stores.after_append] at stores
  exact (congrArg (fun s => written s.storage scriptHash key) stores).trans
    (written_after_destroyed still)

end

/-- **Storage after a destruction.**  Whatever the script, the contracts and the node are: under a
key of a contract that was destroyed in the run the empty value is read until something is put
there, if the run had written something under the key before the destruction.  Otherwise what the
node has is read. -/
theorem storage_after_destruction (setting : Setting) (limit : GasLimit) (script : Bytes)
    (dynamicInvoke : Bool) (link : Link) (n : Nat) (scriptHash key : Bytes) :
    AfterDestruction setting limit (.load script dynamicInvoke (.fresh link)) n scriptHash key where
  destroyed k hk m made found m' stands executing := by
    subst executing
    exact mem_history_of_call hk made (Exec.destroyed_mem_destroyChanges stands)
  replaced k hk m made new m₁ comes found m' stands executing := by
    subst executing
    exact mem_history_of_call hk made (Exec.destroyed_mem_migrateChanges comes stands)
  own := exists_destroying_call
  emptied earlier destroyed before m rest same offers := by
    obtain ⟨value, before⟩ := Option.ne_none_iff_exists'.1 before
    rw [Exec.get_of_offers offers, same, written_of_destroyedAfter rfl destroyed, before]
    rfl
  spared earlier destroyed before m rest same offers := by
    rw [Exec.get_of_offers offers, same, written_of_destroyedAfter rfl destroyed, before]
    rfl

end DryRun
