import DryRun.Proofs.Heap.Change
import DryRun.Proofs.Machine.Flow
import DryRun.Proofs.Machine.Safe

/-!
# What a step writes into

Only four instructions write into a sequence that is there, and each of them finds it on the stack.
`Machine.target?` reads off a machine which sequence its next instruction writes into, and
`Machine.Step.heap_changes` says that the step changes no other one (`Heap.Changes`).  It supposes a
host whose answers and system calls write into none (`Host.Sparing`).

The four instructions are gone through one by one (`Exec.changes_append` and the like), since what
they write is put together from what was there and a copy.  What `append` and `setItem` write is
said apart from that (`Exec.wp_append`, `Exec.wp_setItem`).  For everything else
`Machine.SameSequences` is a relation that does not look at collections that are made
(`Machine.GrowthBlind`).
-/

set_option autoImplicit false

namespace DryRun

variable {σ : Type}

/-! ## The sequence that is written into -/

/-- The sequence that an instruction on collections writes into, given what lies on the stack. -/
def CollectionOp.target? : CollectionOp → List Item → Option Sequence
  | .append, _ :: .seq s :: _ => some s
  | .setItem, _ :: _ :: .seq s :: _ => some s
  | .remove, _ :: .seq s :: _ => some s
  | .reverse, .seq s :: _ => some s
  | _, _ => none

/-- The sequence that an instruction writes into, given what lies on the stack. -/
def Instruction.target? (i : Instruction) (items : List Item) : Option Sequence :=
  match i.opcode with
  | .collection op => op.target? items
  | _ => none

/-- The sequence that the next step of a machine writes into, if it goes well. -/
def Machine.target? (m : Machine σ) : Option Sequence :=
  match m.status, m.frames with
  | .running, frame :: _ =>
    match Instruction.fetch frame.script frame.position with
    | .ok i _ => i.target? m.stack.items
    | .error _ _ => none
  | _, _ => none

namespace Machine

theorem Reads.target?_eq {m : Machine σ} {frame : Frame} {i : Instruction} {next : Nat}
    (reads : Reads m frame i next) : m.target? = i.target? m.stack.items := by
  rw [target?, reads.running, reads.frames]
  dsimp only
  rw [reads.fetched]

/-- No sequence that was there has changed. -/
def SameSequences (m m' : Machine σ) : Prop := m.heap.Extends m'.heap

instance : OrderBlind (SameSequences (σ := σ)) where
  trans := Heap.Extends.trans
  of_onlyGrowth h := .of_grows h.heap
  of_sameHeap {a b} h := by
    rw [SameSequences, h.heap]
    exact .refl a.heap

end Machine

/-- The host's answers and system calls write into no sequence that is there. -/
structure Host.Sparing (host : Host σ) : Prop where
  /-- Finding a contract does not. -/
  contract : ∀ name, Exec.Keeps Machine.SameSequences (host.contract name)
  /-- No system call does. -/
  syscall : ∀ id call, host.syscall id = some call → Exec.Keeps Machine.SameSequences call

/-! ## The copy that is written -/

/-- If a copy is a struct, it is new with all that is nested in it. -/
theorem Heap.Sound.clone_new {heap : Heap} {value : Primitive → Prop} (h : heap.Sound value)
    {item : Item} (made : heap.Has item) {c : Nat}
    (copy : (heap.clone item).2 = .seq ⟨.struct, c⟩) :
    ∀ b ∈ (heap.clone item).1.nest c, ¬ heap.Has (.seq ⟨.struct, b⟩) :=
  (copies_clone h.nesting h.names made).new (copy ▸ List.mem_singleton_self _)

namespace Exec

open Heap (Changes Extends)

variable {std : Machine.Standard σ} {m : Machine σ}

/-- However a computation ends, the heap has changed only at `target`. -/
def ChangesFrom (heap : Heap) (target : Option Sequence) {α : Type} (c : Exec σ α) (m : Machine σ) :
    Prop :=
  wp c (fun _ m' => heap.Changes target m'.heap) (fun m' => heap.Changes target m'.heap) m

/-! ## The four instructions -/

/-- Where it goes well, a copy of the item on top is written behind the elements of the sequence
below it; otherwise there may be a copy that is written nowhere. -/
theorem wp_append : wp append
    (fun _ m' => ∃ value s rest, m.stack.items = value :: .seq s :: rest ∧
      m'.heap = (m.heap.clone value).1.setElements s
        ((m.heap.clone value).1.elements s ++ [(m.heap.clone value).2]))
    (fun m' => m.heap.Grows m'.heap) m := by
  refine wp_bind.2 (wp_bind.2 (wp_pop (fun value rest items => ?_) (.refl m.heap)))
  have grown := m.heap.grows_clone value
  refine wp_bind.2 (wp_pop (fun item rest' items' => ?_) grown)
  change rest.items = item :: rest'.items at items'
  cases item with
  | seq s =>
    refine wp_get_bind.2 ?_
    dsimp only
    split
    · exact grown
    · exact ⟨value, s, rest'.items, by rw [items, items'], rfl⟩
  | prim | map | handle => exact grown

/-- What becomes of the heap where an item has been set. -/
inductive Sets (m m' : Machine σ) : Prop where
  /-- A copy has taken the place of an element. -/
  | element {value key : Item} {s : Sequence} {rest : List Item} {index : Nat}
    (items : m.stack.items = value :: key :: .seq s :: rest) (read : key.toInt = .ok (index : Int))
    (inside : index < ((m.heap.clone value).1.elements s).length)
    (heap : m'.heap = (m.heap.clone value).1.setElements s
      (((m.heap.clone value).1.elements s).set index (m.heap.clone value).2))
  /-- A copy has been put under a key. -/
  | entry {value key : Item} {id : Nat} {rest : List Item} {entries : Entries}
    (items : m.stack.items = value :: key :: .map id :: rest)
    (put : ((m.heap.clone value).1.entries id).set key (m.heap.clone value).2 = .ok entries)
    (heap : m'.heap = (m.heap.clone value).1.setEntries id entries)

theorem wp_setItem :
    wp setItem (fun _ m' => Sets m m') (fun m' => m.heap.Grows m'.heap) m := by
  refine wp_bind.2 (wp_bind.2 (wp_pop (fun value rest items => ?_) (.refl m.heap)))
  have grown := m.heap.grows_clone value
  refine wp_bind.2 (wp_pop (fun key rest' items' => ?_) grown)
  refine wp_bind.2 (wp_pop (fun item rest'' items'' => ?_) grown)
  change rest.items = key :: rest'.items at items'
  change rest'.items = item :: rest''.items at items''
  rw [items', items''] at items
  cases item with
  | seq s =>
    refine wp_get_bind.2 (wp_bind.2 (wp_elementIndex _ _ _ (fun index read inside => ?_) grown))
    exact .element items read inside rfl
  | map id =>
    refine wp_get_bind.2 (wp_bind.2 (wp_liftItem (fun entries put => ?_) grown))
    exact .entry items put rfl
  | prim | handle => exact grown

theorem changes_append (sound : m.Sound std) :
    ChangesFrom m.heap (CollectionOp.target? .append m.stack.items) append m := by
  refine wp_append.mono ?_ fun _ grown => (Extends.of_grows grown).changes _
  rintro _ m' ⟨value, s, rest, items, heap⟩
  have fit := sound.stack
  rw [items, List.forall_mem_cons, List.forall_mem_cons] at fit
  have grown := m.heap.grows_clone value
  have made : m.heap.Has (.seq s) := fit.2.1.has
  rw [items, heap]
  refine Changes.store grown made fun j mem => ?_
  rcases List.mem_append.1 mem with old | new
  · exact .inl (grown.elements s made ▸ old)
  · exact .inr (sound.heap.clone_new fit.1.has (List.mem_singleton.1 new).symm)

theorem changes_setItem (sound : m.Sound std) :
    ChangesFrom m.heap (CollectionOp.target? .setItem m.stack.items) setItem m := by
  refine wp_setItem.mono (fun _ m' sets => ?_) fun _ grown => (Extends.of_grows grown).changes _
  have fit := sound.stack
  cases sets with
  | @element value key s rest index items read inside heap =>
    rw [items, List.forall_mem_cons, List.forall_mem_cons, List.forall_mem_cons] at fit
    have grown := m.heap.grows_clone value
    have made : m.heap.Has (.seq s) := fit.2.2.1.has
    rw [items, heap]
    refine Changes.store grown made fun j mem => ?_
    rcases List.mem_or_eq_of_mem_set mem with old | new
    · exact .inl (grown.elements s made ▸ old)
    · exact .inr (sound.heap.clone_new fit.1.has new.symm)
  | @entry value key id rest entries items put heap =>
    have stored : (m.heap.clone value).1.Extends ((m.heap.clone value).1.setEntries id entries) :=
      ⟨Heap.le_setEntries _ id entries, fun s _ => Heap.elements_setEntries _ entries id s⟩
    rw [heap]
    exact ((Extends.of_grows (m.heap.grows_clone value)).trans stored).changes _

theorem changes_removeItem (sound : m.Sound std) :
    ChangesFrom m.heap (CollectionOp.target? .remove m.stack.items) removeItem m := by
  have still := (Extends.refl m.heap).changes (CollectionOp.target? .remove m.stack.items)
  refine wp_bind.2 (wp_pop (fun key rest items => ?_) still)
  refine wp_bind.2 (wp_pop (fun item rest' items' => ?_) still)
  change rest.items = item :: rest'.items at items'
  cases item with
  | seq s =>
    have there : .seq s ∈ m.stack.items := by
      rw [items, items']
      exact List.mem_cons_of_mem _ List.mem_cons_self
    refine wp_get_bind.2 (wp_bind.2 (wp_elementIndex _ _ _ (fun index _ _ => ?_) still))
    rw [items, items']
    exact Changes.store (.refl m.heap) (sound.stack _ there).has fun j mem =>
      .inl (List.mem_of_mem_eraseIdx mem)
  | map id =>
    refine wp_get_bind.2 (wp_bind.2 (wp_liftItem (fun entries _ => ?_) still))
    exact Extends.changes ⟨m.heap.le_setEntries id entries,
      fun s _ => m.heap.elements_setEntries entries id s⟩ _
  | prim | handle => exact still

theorem changes_reverse (sound : m.Sound std) :
    ChangesFrom m.heap (CollectionOp.target? .reverse m.stack.items) reverse m := by
  have still := (Extends.refl m.heap).changes (CollectionOp.target? .reverse m.stack.items)
  refine wp_bind.2 (wp_pop (fun item rest items => ?_) still)
  cases item with
  | seq s =>
    have there : .seq s ∈ m.stack.items := items ▸ List.mem_cons_self
    rw [items]
    exact Changes.store (.refl m.heap) (sound.stack _ there).has fun j mem =>
      .inl (List.mem_reverse.1 mem)
  | prim | map | handle => exact still

/-! ## All instructions -/

theorem changes_collection (sound : m.Sound std) (op : CollectionOp) :
    ChangesFrom m.heap (op.target? m.stack.items) (collection op) m := by
  cases writes : op.writes with
  | false =>
    exact (keeps_collection_of_not_writes (R := Machine.SameSequences) writes m).mono
      (fun _ _ h => h.changes _) fun _ h => h.changes _
  | true =>
    cases op with
    | append => exact changes_append sound
    | setItem => exact changes_setItem sound
    | remove => exact changes_removeItem sound
    | reverse => exact changes_reverse sound
    | _ => cases writes

/-- **An instruction** changes no sequence but the one that it writes into. -/
theorem changes_execute {host : Host σ} (sparing : host.Sparing) (sound : m.Sound std)
    {frame : Frame} (i : Instruction) :
    ChangesFrom m.heap (i.target? m.stack.items) (execute host frame i) m := by
  by_cases onCollections : ∃ op, i.opcode = .collection op
  · obtain ⟨op, code⟩ := onCollections
    rw [Instruction.target?, execute, code]
    exact changes_collection sound op
  · have keeps : Keeps Machine.SameSequences (execute host frame i) :=
      keeps_execute_of_collection (fun op code => absurd ⟨op, code⟩ onCollections)
        sparing.contract fun _ => sparing.syscall _
    exact (keeps m).mono (fun _ _ h => h.changes _) fun _ h => h.changes _

end Exec

/-! ## Steps -/

/-- **A step** changes no sequence but the one that it writes into. -/
theorem Machine.Step.heap_changes {host : Host σ} {std : Standard σ} {m m' : Machine σ}
    (sparing : host.Sparing) (sound : m.Sound std) (step : Step host m m') :
    m.heap.Changes m.target? m'.heap := by
  have still := (Heap.Extends.refl m.heap).changes m.target?
  have does {frame : Frame} {i : Instruction} {next : Nat} {due : Option Int}
      (pays : Pays host m frame i next due) :
      Exec.ChangesFrom m.heap m.target? (Exec.execute host frame i) (m.ready next due) := by
    have ready : (m.ready next due).Sound std := sound.of_items (m.stack_ready next due)
      (m.alt_ready next due) (m.heap_ready next due) (m.world_ready next due)
    rw [pays.toReads.target?_eq, ← m.heap_ready next due, ← m.stack_ready next due]
    exact Exec.changes_execute sparing ready i
  cases step with
  | still | empty => exact still
  | @unread _ _ next => exact (m.heap_moveTo next).symm ▸ still
  | @unpriced _ _ next => exact (m.heap_moveTo next).symm ▸ still
  | @overdrawn _ _ next amount => exact (m.heap_ready next (some amount)).symm ▸ still
  | @failed _ _ _ _ _ m' pays failed =>
    have changed : m.heap.Changes m.target? m'.heap := (does pays).error failed
    exact changed
  | @overfull _ _ _ _ m' pays done =>
    have changed : m.heap.Changes m.target? m'.heap := (does pays).ok done
    exact changed
  | done pays done => exact (does pays).ok done

end DryRun
