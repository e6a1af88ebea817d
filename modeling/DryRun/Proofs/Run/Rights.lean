import DryRun.Proofs.Run.History

/-!
# Rights to write cannot be forged

The right to write into the storage of a contract is an object.  Handles to it can be copied, put
into collections and left to other contracts, but the object itself is made by two system calls
only, and it is never changed.  So it does not matter where a script has got a handle from: what
counts is who was running when the object was made.

* `Machine.HandsOut` — in the next step the right to write into the storage of a contract is handed
  out, to the contract itself or to the script that has deployed it.
* `Machine.Step.handsOut` — rights that are new after a step were handed out in it.
* `rights_are_handed_out` — so every right that there is in a run was handed out, it stays what it
  is, and what is written through a handle is written with a right to write on top of the stack.
-/

set_option autoImplicit false

namespace DryRun

open Machine (Discreet ItemBlind ObjectBlind Outward SameStores SameControl Step StoreBlind)
open StorageOverlay (written)

variable {setting : Setting} {limit : GasLimit} {scriptHash : Bytes} {m m' : Machine World}

namespace Machine

/-! ## Objects in a step -/

/-- No right to write is handed out, and nothing is done to those that there are. -/
def Evolves (m m' : Machine World) : Prop := m.heap.Evolves m'.heap

instance : Outward Evolves where
  trans := Heap.Evolves.trans
  of_same _ objects := .of_objects objects

instance : Discreet Evolves where
  asked _ _ _ := Exec.keeps_asking _ fun m _ => .refl m.heap
  announced _ := Exec.keeps_modify fun m => .refl m.heap
  evolved _ _ h := h

instance : StoreBlind Evolves where
  stored m _ := .refl m.heap
  deployed _ m _ _ := .refl m.heap
  destroyed m _ := .refl m.heap

/-- In the next step the right to write into the storage of a contract is handed out. -/
inductive HandsOut (setting : Setting) (limit : GasLimit) (m : Machine World)
    (scriptHash : Bytes) : Prop where
  /-- The contract is running and asks for it. -/
  | own {m₁ : Machine World} (call : m.call? setting limit = some (.storage .getContext, m₁))
    (executes : m.Executes scriptHash)
  /-- The script that is recorded as the creator of the contract is running and asks for it. -/
  | deployed {m₁ : Machine World} {creator : Bytes}
    (call : m.call? setting limit = some (.contract .getStorageContext, m₁))
    (recorded : m.world.contracts.creatorOf scriptHash = some creator)
    (executes : m.Executes creator)

end Machine

namespace Exec

/-- What asking for the right to the storage of a deployed contract does to the objects. -/
theorem wp_contractStorage :
    wp contractStorage
      (fun _ m' => ∃ scriptHash, m.world.contracts.creatorOf scriptHash = some m.executing ∧
        m'.heap.objects = m.heap.objects.push (.storageContext ⟨scriptHash, false⟩))
      (fun m' => m'.heap.objects = m.heap.objects) m := by
  refine wp_bind.2 ((keeps_popObject (R := Machine.OnlyItems) _ _ m).mono ?_ fun _ h => h.objects)
  intro contract m₁ items
  refine wp_bind.2 (wp_bind.2 ?_)
  show wp (if m₁.world.contracts.creatorOf contract.scriptHash ≠ some m₁.executing then _ else _)
    _ _ m₁
  split
  · exact items.objects
  · next created =>
    have created := Decidable.of_not_not created
    have control : SameControl m m₁ := ItemBlind.of_onlyItems items
    rw [items.world, control.executing] at created
    refine ⟨contract.scriptHash, created, ?_⟩
    show m₁.heap.objects.push _ = _
    rw [items.objects]

end Exec

namespace Machine

/-- **Rights that are new after a step were handed out in it.** -/
theorem Step.handsOut (step : Step (setting.host limit) m m') {id : Nat}
    (fresh : m.heap.objects.size ≤ id)
    (found : m'.heap.objects[id]? = some (.storageContext ⟨scriptHash, false⟩)) :
    HandsOut setting limit m scriptHash := by
  have not_evolves : ¬ m.Evolves m' := fun evolves =>
    Bool.false_ne_true (evolves.new id _ fresh found)
  cases made : m.call? setting limit with
  | none =>
    exact absurd (step.keeps_of_call?_eq_none (R := Evolves) made fun name =>
      Exec.keeps_findCallee name) not_evolves
  | some call =>
    obtain ⟨call, m₁⟩ := call
    have begins := begins_of_call? made
    have pushed {target : Bytes} (objects : m'.heap.objects =
        m₁.heap.objects.push (.storageContext ⟨target, false⟩)) : target = scriptHash := by
      rw [objects, begins.heap, Array.getElem?_push] at found
      split at found
      · cases found
        rfl
      · rw [Array.getElem?_eq_none fresh] at found
        cases found
    cases grants : call.grants with
    | false =>
      refine absurd ?_ not_evolves
      have kept : Exec.Keeps Evolves (call.run setting) :=
        Syscall.keeps_run_of_not_grants setting grants
      have evolves : m₁.Evolves m' := step.of_call? made (kept m₁) fun _ _ h => h
      rwa [Evolves, begins.heap] at evolves
    | true =>
      cases call with
      | contract call =>
        cases call with
        | getStorageContext =>
          have outcome := step.of_call? made
            (P := fun m' => (∃ target, m₁.world.contracts.creatorOf target = some m₁.executing ∧
              m'.heap.objects = m₁.heap.objects.push (.storageContext ⟨target, false⟩)) ∨
              m'.heap.objects = m₁.heap.objects)
            (Exec.wp_contractStorage.mono (fun _ _ => .inl) fun _ => .inr) fun _ _ h => h
          rcases outcome with ⟨target, recorded, objects⟩ | objects
          · obtain rfl := pushed objects
            rw [begins.world, begins.executing] at recorded
            exact .deployed made recorded begins.executes
          · rw [begins.heap] at objects
            exact absurd (.of_objects objects) not_evolves
        | create | migrate | destroy | getScript | isPayable => cases grants
      | storage call =>
        cases call with
        | getContext =>
          have objects := step.of_call? made
            (P := fun m' => m'.heap.objects =
              m₁.heap.objects.push (.storageContext ⟨m₁.executing, false⟩)) rfl fun _ _ h => h
          obtain rfl := pushed objects
          rw [begins.executing]
          exact .own made begins.executes
        | getReadOnlyContext | get | put | putEx | delete | find | asReadOnly => cases grants
      | _ => cases grants

end Machine

/-! ## Giving up the right to write -/

/-- A context without the right to write is made of another one, and gives the same storage to
read. -/
theorem Exec.asReadOnly_eq_ok (h : storage setting .asReadOnly m = .ok () m') :
    ∃ handle context rest handle', m.stack.items = .handle handle :: rest ∧
      m.heap.object? handle = some (.storageContext context) ∧
      m'.stack.items = .handle handle' :: rest ∧
      m'.heap.object? handle' = some (.storageContext ⟨context.scriptHash, true⟩) := by
  obtain ⟨context, _, rest, items, ⟨handle, rfl, found⟩, h⟩ := takes_popContext.of_bind h
  cases h
  exact ⟨handle, context, rest, ⟨m.heap.objects.size, []⟩, items, found, rfl,
    Array.getElem?_push_size⟩

/-! ## Whole runs -/

section

variable (setting : Setting) (limit : GasLimit) (start : Machine World) (n : Nat)

/-- Rights to write are not forged before some time of a run, and not used by others in the next
step. -/
structure Unforged : Prop where
  /-- Every right to write was handed out, when there was no such object yet.  This is about all
  handles, wherever a script may get them from. -/
  granted : ∀ handle scriptHash,
    (start.runFor (setting.host limit) n).heap.object? handle =
      some (.storageContext ⟨scriptHash, false⟩) →
    ∃ k < n, (start.runFor (setting.host limit) k).heap.objects.size ≤ handle.root ∧
      (start.runFor (setting.host limit) (k + 1)).heap.object? handle =
        some (.storageContext ⟨scriptHash, false⟩) ∧
      (start.runFor (setting.host limit) k).HandsOut setting limit scriptHash
  /-- Whoever is recorded as the creator of a contract has deployed it, and what was deployed still
  stands. -/
  recorded : ∀ scriptHash creator,
    (start.runFor (setting.host limit) n).world.contracts.creatorOf scriptHash = some creator →
    ∃ d, fate (start.history setting limit n) scriptHash = some (some (d, creator)) ∧
      ∃ k < n, .deployed d creator ∈ (start.runFor (setting.host limit) k).changes setting limit ∧
        (start.runFor (setting.host limit) k).Executes creator
  /-- A context stays what it is, with or without the right to write. -/
  kept : ∀ k ≤ n, ∀ handle context,
    (start.runFor (setting.host limit) k).heap.object? handle = some (.storageContext context) →
    (start.runFor (setting.host limit) n).heap.object? handle = some (.storageContext context)
  /-- The one system call that makes a context of another one makes one without the right. -/
  weakened : ∀ m m', Exec.storage setting .asReadOnly m = .ok () m' →
    ∃ handle context rest handle', m.stack.items = .handle handle :: rest ∧
      m.heap.object? handle = some (.storageContext context) ∧
      m'.stack.items = .handle handle' :: rest ∧
      m'.heap.object? handle' = some (.storageContext ⟨context.scriptHash, true⟩)
  /-- A call on storage changes what is written under a contract only if a right to write there is
  on top of the stack. -/
  writes : ∀ call m₁,
    (start.runFor (setting.host limit) n).call? setting limit = some (.storage call, m₁) →
    ∀ scriptHash key,
      written (start.runFor (setting.host limit) (n + 1)).world.storage scriptHash key ≠
        written (start.runFor (setting.host limit) n).world.storage scriptHash key →
      ∃ handle rest,
        (start.runFor (setting.host limit) n).stack.items = .handle handle :: rest ∧
        (start.runFor (setting.host limit) n).heap.object? handle =
          some (.storageContext ⟨scriptHash, false⟩)

end

section

variable {start : Machine World}

/-- What leads to a context leads to it directly, as long as the objects are still there. -/
theorem Heap.Retains.object? {a b : Heap} (h : Retains a b) {handle : Handle}
    {context : StorageContext} (found : a.object? handle = some (.storageContext context)) :
    b.object? handle = some (.storageContext context) := by
  have root := Heap.objects_of_object? (Object.whole_storageContext context) found
  rw [Heap.object?, h.storageContext root]
  rwa [Heap.object?, root] at found

theorem exists_handsOut (empty : start.heap.objects = #[]) {n : Nat} {handle : Handle}
    (found : (start.runFor (setting.host limit) n).heap.object? handle =
      some (.storageContext ⟨scriptHash, false⟩)) :
    ∃ k < n, (start.runFor (setting.host limit) k).heap.objects.size ≤ handle.root ∧
      (start.runFor (setting.host limit) (k + 1)).heap.object? handle =
        some (.storageContext ⟨scriptHash, false⟩) ∧
      (start.runFor (setting.host limit) k).HandsOut setting limit scriptHash := by
  induction n with
  | zero =>
    have root := Heap.objects_of_object? (Object.whole_storageContext _) found
    rw [Machine.runFor_zero, empty] at root
    cases root
  | succ n ih =>
    have step := Machine.step_runFor (setting.host limit) start n
    have root := Heap.objects_of_object? (Object.whole_storageContext _) found
    rcases Nat.lt_or_ge handle.root
      (start.runFor (setting.host limit) n).heap.objects.size with inside | fresh
    · have before := step.makes.retains.storageContext_of_lt inside root
      obtain ⟨k, hk, granted⟩ := ih (by
        rw [Heap.object?, before]
        rwa [Heap.object?, root] at found)
      exact ⟨k, Nat.lt_succ_of_lt hk, granted⟩
    · exact ⟨n, Nat.lt_succ_self n, fresh, found, step.handsOut fresh root⟩

/-- What a call on storage changes it changes by a right that lies on top of the stack. -/
theorem Machine.Step.exists_right (step : Step (setting.host limit) m m') {call : StorageCall}
    {m₁ : Machine World} (made : m.call? setting limit = some (.storage call, m₁)) {key : Bytes}
    (changed : written m'.world.storage scriptHash key ≠ written m.world.storage scriptHash key) :
    ∃ handle rest, m.stack.items = .handle handle :: rest ∧
      m.heap.object? handle = some (.storageContext ⟨scriptHash, false⟩) := by
  have stores := step.makes.stores
  rw [Machine.changes, made] at stores
  have after : m'.world.storage =
      (m.world.stores.after (Syscall.changes setting (.storage call) m₁)).storage :=
    congrArg Stores.storage stores
  rw [after] at changed
  obtain ⟨change, mem, reason⟩ := exists_change_of_written_ne changed
  obtain ⟨handle, rest, target, key', value, items, found, rfl⟩ :=
    Syscall.offered_of_mem_changes mem
  have begins := Machine.begins_of_call? made
  rw [begins.stack] at items
  rw [begins.heap] at found
  rcases reason with gone | ⟨earlier, rfl, -⟩
  · cases gone
  · exact ⟨handle, rest, items, found⟩

end

/-- **Rights to write cannot be forged.**  Whatever the script, the contracts and the node are,
every right to write into the storage of a contract was handed out to the contract itself while it
was running, or to the script that had deployed it while that one was running. -/
theorem rights_are_handed_out (setting : Setting) (limit : GasLimit) (script : Bytes)
    (dynamicInvoke : Bool) (link : Link) (n : Nat) :
    Unforged setting limit (.load script dynamicInvoke (.fresh link)) n where
  granted handle scriptHash found := exists_handsOut rfl found
  recorded scriptHash creator recorded := by
    have knows := knows_history setting limit script dynamicInvoke link n
    obtain ⟨d, stands⟩ := knows.fate_of_creatorOf recorded
    exact ⟨d, stands, exists_deployment stands⟩
  kept k hk handle context found := by
    have retains := (Machine.makes_runFor setting limit
      ((Machine.load script dynamicInvoke (.fresh link)).runFor (setting.host limit) k)
      (n - k)).retains
    rw [← Machine.runFor_add, Nat.add_sub_of_le hk] at retains
    exact retains.object? found
  weakened m m' := Exec.asReadOnly_eq_ok
  writes call m₁ made scriptHash key changed :=
    (Machine.step_runFor _ _ n).exists_right made changed

end DryRun
