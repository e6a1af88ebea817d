import DryRun.Machine.Step
import DryRun.Proofs.Heap.Entries
import DryRun.Proofs.Heap.Struct
import DryRun.Proofs.Machine.Items
import DryRun.Proofs.Machine.Operands

/-!
# Instructions on maps

An instruction on a map makes one call on its entries.  It takes the operands from the stack, pushes
the answer, and leaves all other maps alone; where the call fails, so does the instruction, and the
map stays as it was.  Structs are copied on their way into a map and out of it, so the call stores,
and the machine receives, what `Heap.clone` makes of an item.

* `Exec.follows_collection` — an instruction does what its call does.
* `Exec.keys_of_map`, `Exec.values_of_map` — what lists keys and values.
* `map_is_dictionary` — together with what calls do, all that maps do.
-/

set_option autoImplicit false

namespace DryRun

variable {σ : Type}

namespace Entries

/-- The operation on collections that makes a call. -/
def Call.op : Call → CollectionOp
  | .set _ _ => .setItem
  | .remove _ => .remove
  | .get _ => .pickItem
  | .has _ => .hasKey

/-- The operands of a call on the map of a number, top first. -/
def Call.operands (id : Nat) : Call → List Item
  | .set key value => [value, key, .map id]
  | .remove key | .get key | .has key => [key, .map id]

/-- The call with a copy of the value that it stores. -/
def Call.stored (heap : Heap) : Call → Call
  | .set key value => .set key (heap.clone value).2
  | call => call

/-- What is pushed for an answer: a copy of a value. -/
def Answer.pushed (heap : Heap) : Answer → List Item
  | .done => []
  | .value item => [(heap.clone item).2]
  | .truth b => [.ofBool b]

end Entries

open Entries (Call Answer)

/-- The maps of a heap are still what they were, but for one, which has these entries. -/
def Heap.MapBecomes (heap : Heap) (id : Nat) (entries : Entries) (after : Heap) : Prop :=
  ∀ id', heap.Has (.map id') →
    after.entries id' = if id' = id then entries else heap.entries id'

theorem Heap.Grows.maps_entries {heap after : Heap} (h : heap.Grows after) (id : Nat) :
    heap.MapBecomes id (heap.entries id) after := by
  intro id' made
  rw [h.entries id' made]
  split
  · next same => rw [same]
  · rfl

theorem Heap.maps_setEntries {heap middle : Heap} (h : heap.Grows middle) (id : Nat)
    (entries : Entries) : heap.MapBecomes id entries (middle.setEntries id entries) := by
  intro id' made
  rw [entries_setEntries]
  by_cases same : id' = id
  · subst same
    rw [if_pos ⟨rfl, h.has made⟩, if_pos rfl]
  · rw [if_neg fun h => same h.1, if_neg same, h.entries id' made]

namespace Exec

variable {m : Machine σ} {id : Nat} {rest : List Item} {call : Call}

/-- An instruction has done what its call has done. -/
def Follows (m : Machine σ) (id : Nat) (rest : List Item) :
    Except ItemFault (Answer × Entries) → EStateM.Result Fault (Machine σ) Unit → Prop
  | .ok (answer, entries), outcome => ∃ m', outcome = .ok () m' ∧
      m'.stack.items = answer.pushed m.heap ++ rest ∧ m.heap.MapBecomes id entries m'.heap
  | .error cause, outcome => ∃ m', outcome = .error (.item cause) m' ∧
      m.heap.MapBecomes id (m.heap.entries id) m'.heap

theorem liftItem_bind {α β : Type} (r : Except ItemFault α) (f : α → Exec σ β) (m : Machine σ) :
    ((liftM r : Exec σ α) >>= f) m = match r with
      | .ok a => f a m
      | .error cause => .error (.item cause) m := by
  cases r <;> rfl

theorem follows_setItem {key value : Item}
    (items : m.stack.items = value :: key :: .map id :: rest) (made : m.heap.Has (.map id)) :
    Follows m id rest
      ((m.heap.entries id).perform (.set key (m.heap.clone value).2)) (setItem m) := by
  have grown := m.heap.grows_clone value
  have copied : popCopy m = .ok (m.heap.clone value).2
      ({ m with heap := (m.heap.clone value).1 }.withItems (key :: .map id :: rest)) := by
    rw [popCopy, bind_eq, pop_of_items items]
    rfl
  rw [setItem, bind_eq, copied]
  dsimp only
  rw [bind_eq, pop_of_items rfl]
  dsimp only
  rw [bind_eq, pop_of_items rfl]
  dsimp only
  rw [get_bind, Machine.heap_withItems, Machine.heap_withItems, Machine.heap_withItems]
  dsimp only
  rw [grown.entries id made, liftItem_bind, Entries.perform]
  cases (m.heap.entries id).set key (m.heap.clone value).2 with
  | ok entries => exact ⟨_, rfl, rfl, Heap.maps_setEntries grown id entries⟩
  | error cause => exact ⟨_, rfl, grown.maps_entries id⟩

theorem follows_removeItem {key : Item} (items : m.stack.items = key :: .map id :: rest) :
    Follows m id rest ((m.heap.entries id).perform (.remove key)) (removeItem m) := by
  rw [removeItem, bind_eq, pop_of_items items]
  dsimp only
  rw [bind_eq, pop_of_items rfl]
  dsimp only
  rw [get_bind, liftItem_bind, Entries.perform]
  dsimp only [Machine.heap_withItems]
  cases (m.heap.entries id).remove key with
  | ok entries => exact ⟨_, rfl, rfl, Heap.maps_setEntries (.refl m.heap) id entries⟩
  | error cause => exact ⟨_, rfl, (Heap.Grows.refl m.heap).maps_entries id⟩

theorem follows_pickItem {key : Item} (items : m.stack.items = key :: .map id :: rest) :
    Follows m id rest ((m.heap.entries id).perform (.get key)) (pickItem m) := by
  rw [pickItem, bind_eq, pop_of_items items]
  dsimp only
  rw [bind_eq, pop_of_items rfl]
  dsimp only
  rw [get_bind, liftItem_bind, Entries.perform]
  dsimp only [Machine.heap_withItems]
  cases (m.heap.entries id).get key with
  | ok value => exact ⟨_, rfl, rfl, (m.heap.grows_clone value).maps_entries id⟩
  | error cause => exact ⟨_, rfl, (Heap.Grows.refl m.heap).maps_entries id⟩

theorem follows_hasKey {key : Item} (items : m.stack.items = key :: .map id :: rest) :
    Follows m id rest ((m.heap.entries id).perform (.has key)) (hasKey m) := by
  rw [hasKey, bind_eq, pop_of_items items]
  dsimp only
  rw [bind_eq, pop_of_items rfl]
  dsimp only
  rw [get_bind, liftItem_bind, Entries.perform]
  dsimp only [Machine.heap_withItems]
  cases (m.heap.entries id).has key with
  | ok b => exact ⟨_, rfl, rfl, (Heap.Grows.refl m.heap).maps_entries id⟩
  | error cause => exact ⟨_, rfl, (Heap.Grows.refl m.heap).maps_entries id⟩

/-- **An instruction on a map does what its call does.** -/
theorem follows_collection (items : m.stack.items = call.operands id ++ rest)
    (made : m.heap.Has (.map id)) :
    Follows m id rest ((m.heap.entries id).perform (call.stored m.heap))
      (collection call.op m) := by
  cases call with
  | set key value => exact follows_setItem items made
  | remove key => exact follows_removeItem items
  | get key => exact follows_pickItem items
  | has key => exact follows_hasKey items

/-! ## Whole maps -/

/-- A new array, of which `P` holds, has been pushed, and no map has changed. -/
def PushesArray (m : Machine σ) (rest : List Item) (P : List Item → Prop)
    (outcome : EStateM.Result Fault (Machine σ) Unit) : Prop :=
  ∃ m' s, outcome = .ok () m' ∧ m'.stack.items = .seq s :: rest ∧ P (m'.heap.elements s) ∧
    ∀ id, m.heap.Has (.map id) → m'.heap.entries id = m.heap.entries id

theorem pushesArray_pushSequence {middle : Heap} {stack : List Item} {P : List Item → Prop}
    {l : List Item} (grown : m.heap.Grows middle) (h : P l) :
    PushesArray m stack P
      (pushSequence .array l ({ m with heap := middle }.withItems stack)) := by
  refine ⟨_, _, rfl, rfl, ?_, fun id made => ?_⟩
  · show P ((middle.makeSequence .array l).1.elements (middle.makeSequence .array l).2)
    rwa [Heap.makeSequence_snd, Heap.elements_makeSequence, if_pos rfl]
  · exact ((grown.trans (.makeSequence middle .array l)).entries id made)

/-- Keys are listed as they were given. -/
theorem keys_of_map (items : m.stack.items = .map id :: rest) :
    PushesArray m rest (· = (m.heap.entries id).keys) (keys m) := by
  rw [keys, bind_eq, pop_of_items items]
  exact pushesArray_pushSequence (.refl m.heap) rfl

/-- A copy of an item is the item itself, unless it is a struct. -/
def IsCopy (item copy : Item) : Prop :=
  (∀ id, item ≠ .seq ⟨.struct, id⟩) → copy = item

theorem copyEach_eq (l : List Item) : ∀ m : Machine σ, ∃ copies after,
    (l.mapM copy) m = .ok copies { m with heap := after } ∧ m.heap.Grows after ∧
      List.Forall₂ IsCopy l copies := by
  induction l with
  | nil => exact fun m => ⟨[], m.heap, rfl, .refl m.heap, .nil⟩
  | cons item l ih =>
    intro m
    obtain ⟨copies, after, done, grown, each⟩ := ih { m with heap := (m.heap.clone item).1 }
    have first : copy item m = .ok (m.heap.clone item).2 { m with heap := (m.heap.clone item).1 } :=
      rfl
    refine ⟨(m.heap.clone item).2 :: copies, after, ?_, (m.heap.grows_clone item).trans grown,
      .cons (fun other => ?_) each⟩
    · rw [List.mapM_cons, bind_eq, first]
      dsimp only
      rw [bind_eq, done]
      rfl
    · rw [Heap.clone, Heap.cloneWithin_of_not_struct other]
      rfl

/-- Values are listed in the order of the keys. -/
theorem values_of_map (items : m.stack.items = .map id :: rest) :
    PushesArray m rest (List.Forall₂ IsCopy (m.heap.entries id).values) (values m) := by
  obtain ⟨copies, after, done, grown, each⟩ :=
    copyEach_eq (m.heap.entries id).values (m.withItems rest)
  rw [values, bind_eq, pop_of_items items]
  dsimp only
  rw [get_bind, bind_eq]
  dsimp only [Machine.heap_withItems]
  rw [done]
  exact pushesArray_pushSequence grown each

theorem arraySize_of_map (items : m.stack.items = .map id :: rest) :
    arraySize m = .ok () (m.withItems (.ofInt (m.heap.entries id).size :: rest)) := by
  rw [arraySize, bind_eq, pop_of_items items]
  rfl

/-- A new map is empty, and no other map has changed. -/
theorem newMap_eq (m : Machine σ) : ∃ m' id, collection .newMap m = .ok () m' ∧
    m'.stack.items = .map id :: m.stack.items ∧ ¬m.heap.Has (.map id) ∧
    m'.heap.entries id = Entries.Course.new.entries ∧
    ∀ id', m.heap.Has (.map id') → m'.heap.entries id' = m.heap.entries id' := by
  refine ⟨_, m.heap.maps.size, rfl, rfl, Nat.lt_irrefl _, ?_, fun id' made => ?_⟩
  · exact (Heap.entries_makeMap m.heap .empty _).trans (if_pos rfl)
  · exact (Heap.Grows.makeMap m.heap .empty).entries id' made

end Exec

/-! ## The laws -/

/-- What maps do. -/
structure Exec.MapLaws (host : Host σ) (frame : Frame) : Prop where
  /-- After any calls a map holds what its history says. -/
  dictionary : ∀ calls, Entries.Dictionary (Entries.Course.of calls).history
    (Entries.Course.of calls).entries
  /-- A call with a key that is not primitive fails and says so. -/
  refused : ∀ (entries : Entries) call, (∀ p, Call.key call ≠ .prim p) →
    entries.perform call = .error (.notKey call.key.kind)
  /-- A call that fails, for whatever cause, leaves the map as it was. -/
  unchanged : ∀ calls call cause, (Entries.Course.of calls).entries.perform call = .error cause →
    Entries.Course.of (calls ++ [call]) = Entries.Course.of calls
  /-- A map begins empty. -/
  new : ∀ (i : Instruction) (m : Machine σ), i.opcode = .collection .newMap →
    ∃ m' id, Exec.execute host frame i m = .ok () m' ∧ m'.stack.items = .map id :: m.stack.items ∧
      ¬m.heap.Has (.map id) ∧ m'.heap.entries id = Entries.Course.new.entries ∧
      ∀ id', m.heap.Has (.map id') → m'.heap.entries id' = m.heap.entries id'
  /-- An instruction does to its map what the call does, and nothing to any other map. -/
  call : ∀ (i : Instruction) (m : Machine σ) call id rest, i.opcode = .collection (Call.op call) →
    m.stack.items = call.operands id ++ rest → m.heap.Has (.map id) →
    Exec.Follows m id rest ((m.heap.entries id).perform (call.stored m.heap))
      (Exec.execute host frame i m)
  /-- The history of a map goes on from instruction to instruction, whether they fail or not. -/
  course : ∀ (i : Instruction) (m : Machine σ) calls call id rest,
    i.opcode = .collection (Call.op call) → m.stack.items = call.operands id ++ rest →
    m.heap.Has (.map id) → m.heap.entries id = (Entries.Course.of calls).entries →
    Exec.wp (Exec.execute host frame i)
      (fun _ m' => m'.heap.entries id =
        (Entries.Course.of (calls ++ [call.stored m.heap])).entries)
      (fun m' => m'.heap.entries id =
        (Entries.Course.of (calls ++ [call.stored m.heap])).entries) m
  /-- The keys of a map are listed in order, as they were given. -/
  keys : ∀ (i : Instruction) (m : Machine σ) id rest, i.opcode = .collection .keys →
    m.stack.items = .map id :: rest →
    Exec.PushesArray m rest (· = (m.heap.entries id).keys) (Exec.execute host frame i m)
  /-- The values of a map are listed in the order of its keys, and those that are no structs are
  shared. -/
  values : ∀ (i : Instruction) (m : Machine σ) id rest, i.opcode = .collection .values →
    m.stack.items = .map id :: rest →
    Exec.PushesArray m rest (List.Forall₂ Exec.IsCopy (m.heap.entries id).values)
      (Exec.execute host frame i m)
  /-- The size of a map is the number of its entries. -/
  size : ∀ (i : Instruction) (m : Machine σ) id rest, i.opcode = .collection .arraySize →
    m.stack.items = .map id :: rest →
    Exec.execute host frame i m = .ok () (m.withItems (.ofInt (m.heap.entries id).size :: rest))

/-- The map of an instruction goes on with its history. -/
theorem Exec.Follows.course {m : Machine σ} {id : Nat} {rest : List Item} {calls : List Call}
    {call : Call} {c : Exec σ Unit} (made : m.heap.Has (.map id))
    (same : m.heap.entries id = (Entries.Course.of calls).entries)
    (h : Exec.Follows m id rest ((m.heap.entries id).perform call) (c m)) :
    Exec.wp c (fun _ m' => m'.heap.entries id = (Entries.Course.of (calls ++ [call])).entries)
      (fun m' => m'.heap.entries id = (Entries.Course.of (calls ++ [call])).entries) m := by
  rw [Entries.Course.of_concat, Entries.Course.next, ← same, Exec.wp]
  cases result : (m.heap.entries id).perform call with
  | ok pair =>
    rw [result] at h
    obtain ⟨m', done, -, maps⟩ := h
    rw [done]
    exact (maps id made).trans (if_pos rfl)
  | error cause =>
    rw [result] at h
    obtain ⟨m', failed, maps⟩ := h
    rw [failed]
    exact ((maps id made).trans (if_pos rfl)).trans same

/-- **A map is a dictionary** that remembers in which order its keys were put. -/
theorem map_is_dictionary (host : Host σ) (frame : Frame) : Exec.MapLaws host frame where
  dictionary := Entries.dictionary_course
  refused entries call plain := Entries.perform_of_not_prim plain entries
  unchanged calls call cause failed := by
    rw [Entries.Course.of_concat, Entries.Course.next, failed]
  new i m code := by
    rw [Exec.execute, code]
    exact Exec.newMap_eq m
  call i m call id rest code items made := by
    rw [Exec.execute, code]
    exact Exec.follows_collection items made
  course i m calls call id rest code items made same := by
    rw [Exec.execute, code]
    exact (Exec.follows_collection items made).course made same
  keys i m id rest code items := by
    rw [Exec.execute, code]
    exact Exec.keys_of_map items
  values i m id rest code items := by
    rw [Exec.execute, code]
    exact Exec.values_of_map items
  size i m id rest code items := by
    rw [Exec.execute, code]
    exact Exec.arraySize_of_map items

end DryRun
