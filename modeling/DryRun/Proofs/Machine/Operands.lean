import DryRun.Machine.Crypto
import DryRun.Proofs.Attempts
import DryRun.Proofs.Exec
import DryRun.Syscall.Contract
import DryRun.Syscall.Runtime

/-!
# Operands

What a computation takes from the evaluation stack is found out by reading its successes backwards.
`Exec.Takes heap P c` says that `c`, where it succeeds, has taken some items off the top of the
stack and done nothing else, and that `P` relates these items to its answer.  What follows in a
computation begins with what is left, so the items that two parts take stand next to each other on
the stack that the first part began with (`Takes.bind`).

The operands of an instruction are described by the same items wherever they are read, so whoever
looks at them before they are taken finds what is taken later.
-/

set_option autoImplicit false

namespace DryRun

variable {σ α β : Type}

namespace Machine

/-- The machine with other items on its evaluation stack. -/
def withItems (m : Machine σ) (items : List Item) : Machine σ :=
  { m with stack := { m.stack with items } }

variable (m : Machine σ) (items : List Item)

@[simp] theorem items_withItems : (m.withItems items).stack.items = items := rfl

@[simp] theorem heap_withItems : (m.withItems items).heap = m.heap := rfl

@[simp] theorem world_withItems : (m.withItems items).world = m.world := rfl

@[simp] theorem withItems_withItems (items' : List Item) :
    (m.withItems items).withItems items' = m.withItems items' := rfl

end Machine

/-! ## What items stand for -/

/-- The item is a text, once what is not UTF-8 in it is replaced. -/
def Item.Spells (item : Item) (text : String) : Prop :=
  ∃ b, item.toBytes = .ok b ∧ text = Utf8.decodeLossy b

/-- The items that describe a contract, in the order in which they are taken. -/
def Contract.Describes (contract : Contract) : List Item → Prop
  | [script, paramList, returnType, properties, name, codeVersion, author, email, description] =>
    script.toBytes = .ok contract.script ∧
    paramList.toBytes = .ok contract.paramList ∧
    returnType.toInt = .ok (contract.returnType.toNat : Int) ∧
    properties.toInt = .ok (contract.properties.toNat : Int) ∧
    name.Spells contract.name ∧ codeVersion.Spells contract.codeVersion ∧
    author.Spells contract.author ∧ email.Spells contract.email ∧
    description.Spells contract.description
  | _ => False

theorem Contract.Describes.properties {contract : Contract} {operands : List Item}
    (h : contract.Describes operands) :
    ∃ item, operands[3]? = some item ∧ item.toInt = .ok (contract.properties.toNat : Int) := by
  rw [Describes.eq_def] at h
  split at h
  · exact ⟨_, rfl, h.2.2.2.1⟩
  · exact h.elim

/-- The items that are a group of byte strings: a sequence of them, or their number and then the
members one by one. -/
inductive Heap.Groups (heap : Heap) (members : List Bytes) : List Item → Prop where
  /-- A sequence. -/
  | sequence {s : Sequence} (elements : (heap.elements s).mapM Item.toBytes = .ok members) :
    Groups heap members [.seq s]
  /-- A number and as many items. -/
  | counted {count : Item} {items : List Item} (plain : ∀ s, count ≠ .seq s)
    (number : count.toInt = .ok (members.length : Int))
    (reads : items.mapM Item.toBytes = .ok members) : Groups heap members (count :: items)

namespace Exec

/-! ## Taking items -/

/-- Where it succeeds on a heap it has taken some items, which `P` relates to the answer, and
nothing else has changed. -/
def Takes (heap : Heap) (P : List Item → α → Prop) (c : Exec σ α) : Prop :=
  ∀ m a m', m.heap = heap → c m = .ok a m' →
    ∃ operands rest, m.stack.items = operands ++ rest ∧ P operands a ∧ m' = m.withItems rest

section

variable {heap : Heap} {P : List Item → α → Prop} {Q : List Item → β → Prop}

theorem takes_pure {a : α} (h : P [] a) : Takes heap P (pure a : Exec σ α) := by
  intro m b m' _ ok
  cases ok
  exact ⟨[], m.stack.items, rfl, h, rfl⟩

theorem takes_fail (cause : MachineFault) : Takes heap P (fail cause : Exec σ α) := by
  intro m a m' _ ok
  cases ok

theorem takes_refuse (cause : SyscallFault) : Takes heap P (refuse cause : Exec World α) := by
  intro m a m' _ ok
  cases ok

theorem Takes.bind {c : Exec σ α} {f : α → Exec σ β} (hc : Takes heap P c)
    (hf : ∀ a operands, P operands a → Takes heap (fun more => Q (operands ++ more)) (f a)) :
    Takes heap Q (c >>= f) := by
  intro m b m' same ok
  obtain ⟨a, m₁, first, second⟩ := bind_eq_ok ok
  obtain ⟨operands, rest, items, holds, rfl⟩ := hc m a m₁ same first
  obtain ⟨more, rest', items', holds', rfl⟩ :=
    hf a operands holds (m.withItems rest) b m' same second
  rw [Machine.items_withItems] at items'
  exact ⟨operands ++ more, rest', by rw [items, items', List.append_assoc], holds', rfl⟩

/-- Behind a check that fails where `p` holds, `p` does not hold. -/
theorem Takes.guarded {p : Prop} [Decidable p] {c : Exec σ Unit} {f : Unit → Exec σ α}
    (hc : Takes heap (fun _ _ => False) c) (hf : ¬p → Takes heap P (f ())) :
    Takes heap P (if p then c >>= f else f ()) := by
  split
  · exact hc.bind fun _ _ never => never.elim
  · next h => exact hf h

theorem takes_get_bind {f : Machine σ → Exec σ α}
    (hf : ∀ m, m.heap = heap → Takes heap P (f m)) : Takes heap P (get >>= f) :=
  fun m a m' same ok => hf m same m a m' same ok

theorem takes_liftItem {x : Except ItemFault α} (h : ∀ a, x = .ok a → P [] a) :
    Takes heap P (liftM x : Exec σ α) := by
  cases x with
  | ok a => exact takes_pure (h a rfl)
  | error cause =>
    intro m a m' _ ok
    cases ok

end

/-- What follows the taking begins with what is left. -/
theorem Takes.of_bind {c : Exec σ α} {f : α → Exec σ β} {P : List Item → α → Prop}
    {m m' : Machine σ} {b : β} (hc : Takes m.heap P c) (h : (c >>= f) m = .ok b m') :
    ∃ a operands rest, m.stack.items = operands ++ rest ∧ P operands a ∧
      f a (m.withItems rest) = .ok b m' := by
  obtain ⟨a, m₁, first, second⟩ := bind_eq_ok h
  obtain ⟨operands, rest, items, holds, rfl⟩ := hc m a m₁ rfl first
  exact ⟨a, operands, rest, items, holds, second⟩

theorem fail_ne_ok {m m' : Machine σ} (cause : MachineFault) (a : α) :
    (fail cause : Exec σ α) m ≠ .ok a m' := fun h => by cases h

theorem refuse_ne_ok {m m' : Machine World} (cause : SyscallFault) (a : α) :
    (refuse cause : Exec World α) m ≠ .ok a m' := fun h => by cases h

/-- What stands behind a check that is passed. -/
theorem eq_ok_of_guarded {p : Prop} [Decidable p] {c : Exec σ Unit} {f : Unit → Exec σ β}
    {m m' : Machine σ} {b : β} (never : ∀ u m', c m ≠ .ok u m')
    (h : (if p then c >>= f else f ()) m = .ok b m') : ¬p ∧ f () m = .ok b m' := by
  split at h
  · obtain ⟨u, m₁, first, -⟩ := bind_eq_ok h
    exact absurd first (never u m₁)
  · next passed => exact ⟨passed, h⟩

/-! ## Single operands -/

variable {heap : Heap}

theorem takes_pop : Takes heap (fun operands a => operands = [a]) (pop : Exec σ Item) := by
  intro m a m' _ ok
  obtain ⟨_, _, got, popped⟩ := bind_eq_ok ok
  cases got
  cases taken : m.stack.pop with
  | error cause =>
    rw [taken] at popped
    cases popped
  | ok found =>
    rw [taken] at popped
    cases popped
    rw [Stack.pop] at taken
    split at taken
    · next top rest items =>
      cases taken
      exact ⟨[top], rest, items, rfl, rfl⟩
    · cases taken

/-- One item, which `P` relates to the answer. -/
def Single (P : Item → α → Prop) (operands : List Item) (a : α) : Prop :=
  ∃ item, operands = [item] ∧ P item a

theorem takes_popBytes :
    Takes heap (Single fun item b => item.toBytes = .ok b) (popBytes : Exec σ Bytes) :=
  takes_pop.bind fun item _ same => takes_liftItem fun _ read => ⟨item, by rw [same]; rfl, read⟩

theorem takes_popInt :
    Takes heap (Single fun item v => item.toInt = .ok v) (popInt : Exec σ Int) :=
  takes_pop.bind fun item _ same => takes_liftItem fun _ read => ⟨item, by rw [same]; rfl, read⟩

/-- A handle stands for an object of the class. -/
theorem takes_popHandle (expected : String) (select : Object → Option α) :
    Takes heap (fun operands found => operands = [.handle found.1] ∧
      (heap.object? found.1).bind select = some found.2) (popHandle expected select) := by
  refine takes_pop.bind fun item operands same => takes_get_bind fun m atHeap => ?_
  subst same
  rw [atHeap]
  cases item with
  | handle handle =>
    dsimp only
    cases selected : (heap.object? handle).bind select with
    | some value => exact takes_pure ⟨rfl, selected⟩
    | none => exact takes_refuse _
  | _ => exact takes_refuse _

theorem takes_popObject (expected : String) (select : Object → Option α) :
    Takes heap (fun operands a => ∃ handle, operands = [.handle handle] ∧
      (heap.object? handle).bind select = some a) (popObject expected select) := by
  rw [popObject, map_eq_pure_bind]
  exact (takes_popHandle expected select).bind fun found operands ⟨same, selected⟩ =>
    takes_pure ⟨found.1, by rw [same]; rfl, selected⟩

/-- An object that was selected for being of a class. -/
theorem object?_of_bind {object : Option Object} {select : Object → Option α} {a : α}
    (make : α → Object) (class_ : ∀ o a, select o = some a → o = make a)
    (h : object.bind select = some a) : object = some (make a) := by
  obtain ⟨o, found, selected⟩ := Option.bind_eq_some_iff.1 h
  rw [found, class_ o a selected]

theorem takes_popContext :
    Takes heap (fun operands context => ∃ handle, operands = [.handle handle] ∧
      heap.object? handle = some (.storageContext context)) popContext := by
  intro m context m' same ok
  obtain ⟨operands, rest, items, ⟨handle, taken, selected⟩, left⟩ :=
    takes_popObject "StorageContext" _ m context m' same ok
  refine ⟨operands, rest, items, ⟨handle, taken, ?_⟩, left⟩
  refine object?_of_bind .storageContext (fun o c same => ?_) selected
  cases o <;> cases same
  rfl

/-! ## What lies on top

The other way round, an item that stands for something is taken as that. -/

section

variable {m : Machine σ} {item : Item} {rest : List Item}

theorem pop_of_items (items : m.stack.items = item :: rest) :
    pop m = .ok item (m.withItems rest) := by
  obtain ⟨frames, ⟨name, others⟩, alt, heap, gas, status, world⟩ := m
  cases items
  rfl

theorem popBytes_of_items {b : Bytes} (items : m.stack.items = item :: rest)
    (read : item.toBytes = .ok b) : popBytes m = .ok b (m.withItems rest) := by
  rw [popBytes, bind_eq, pop_of_items items]
  dsimp only
  rw [read]
  rfl

theorem popInt_of_items {v : Int} (items : m.stack.items = item :: rest)
    (read : item.toInt = .ok v) : popInt m = .ok v (m.withItems rest) := by
  rw [popInt, bind_eq, pop_of_items items]
  dsimp only
  rw [read]
  rfl

theorem popBool_of_items (items : m.stack.items = item :: rest) :
    popBool m = .ok item.toBool (m.withItems rest) := by
  rw [popBool, bind_eq, pop_of_items items]
  rfl

theorem popIndex_of_items {n : Nat} (items : m.stack.items = item :: rest)
    (read : item.toInt = .ok (n : Int)) : popIndex m = .ok n (m.withItems rest) := by
  rw [popIndex, bind_eq, popInt_of_items items read]
  exact congrFun (if_neg (Int.not_lt.2 (Int.natCast_nonneg n))) _

theorem popHash_of_items {m : Machine World} {hash : Bytes} {size : Nat}
    (items : m.stack.items = item :: rest) (read : item.toBytes = .ok hash)
    (length : hash.length = size) : popHash size m = .ok hash (m.withItems rest) := by
  rw [popHash, bind_eq, popBytes_of_items items read]
  dsimp only
  rw [if_neg (not_not_intro length)]
  rfl

theorem popObject_of_items {m : Machine World} {expected : String} {select : Object → Option α}
    {handle : Handle} {object : Object} {a : α} (items : m.stack.items = .handle handle :: rest)
    (found : m.heap.object? handle = some object) (selected : select object = some a) :
    popObject expected select m = .ok a (m.withItems rest) := by
  rw [popObject, map_eq_pure_bind, popHandle, bind_eq, bind_eq, pop_of_items items]
  dsimp only
  rw [get_bind, Machine.heap_withItems, found, Option.bind_some, selected]
  rfl

theorem popContext_of_items {m : Machine World} {handle : Handle} {context : StorageContext}
    (items : m.stack.items = .handle handle :: rest)
    (found : m.heap.object? handle = some (.storageContext context)) :
    popContext m = .ok context (m.withItems rest) :=
  popObject_of_items items found rfl

theorem popContract_of_items {m : Machine World} {handle : Handle} {c : Contract}
    (items : m.stack.items = .handle handle :: rest)
    (found : m.heap.object? handle = some (.contract c)) :
    popContract m = .ok c (m.withItems rest) :=
  popObject_of_items items found rfl

end

/-! ## Several operands -/

theorem takes_popField (limit : Nat) (what : String) :
    Takes heap (Single fun item b => item.toBytes = .ok b) (popField limit what) :=
  takes_popBytes.bind fun b operands ⟨item, same, read⟩ =>
    (takes_refuse _).guarded fun _ => takes_pure ⟨item, by rw [same]; rfl, read⟩

theorem takes_popText (limit : Nat) (what : String) :
    Takes heap (Single Item.Spells) (popText limit what) :=
  (takes_popField limit what).bind fun b operands ⟨item, same, read⟩ =>
    takes_pure ⟨item, by rw [same]; rfl, b, read, rfl⟩

theorem takes_popByte (cause : Int → SyscallFault) :
    Takes heap (Single fun item b => item.toInt = .ok (b.toNat : Int)) (popByte cause) := by
  refine takes_popInt.bind fun v operands ⟨item, same, read⟩ =>
    (takes_refuse _).guarded fun inside => takes_pure ⟨item, by rw [same]; rfl, ?_⟩
  have byte : ((UInt8.ofNat v.toNat).toNat : Int) = v := by
    rw [UInt8.toNat_ofNat']
    omega
  show item.toInt = _
  rw [byte]
  exact read

theorem takes_popNewContract :
    Takes heap (fun operands contract => contract.Describes operands) popNewContract := by
  refine (takes_popField _ _).bind fun script _ ⟨i₁, s₁, h₁⟩ => ?_
  refine (takes_popField _ _).bind fun paramList _ ⟨i₂, s₂, h₂⟩ => ?_
  refine (takes_popByte _).bind fun returnType _ ⟨i₃, s₃, h₃⟩ => ?_
  refine (takes_popByte _).bind fun properties _ ⟨i₄, s₄, h₄⟩ => ?_
  refine (takes_popText _ _).bind fun name _ ⟨i₅, s₅, h₅⟩ => ?_
  refine (takes_popText _ _).bind fun codeVersion _ ⟨i₆, s₆, h₆⟩ => ?_
  refine (takes_popText _ _).bind fun author _ ⟨i₇, s₇, h₇⟩ => ?_
  refine (takes_popText _ _).bind fun email _ ⟨i₈, s₈, h₈⟩ => ?_
  refine (takes_popText _ _).bind fun description _ ⟨i₉, s₉, h₉⟩ => ?_
  subst s₁ s₂ s₃ s₄ s₅ s₆ s₇ s₈ s₉
  exact takes_pure ⟨h₁, h₂, h₃, h₄, h₅, h₆, h₇, h₈, h₉⟩

/-- The byte strings of items that are not on the stack. -/
theorem takes_readEach (l : List Item) :
    Takes heap (fun operands members => operands = [] ∧ l.mapM Item.toBytes = .ok members)
      (l.mapM fun item => (liftM item.toBytes : Exec σ Bytes)) := by
  induction l with
  | nil => exact takes_pure ⟨rfl, rfl⟩
  | cons item l ih =>
    rw [List.mapM_cons (m := Exec σ)]
    refine (takes_liftItem (P := fun operands b => operands = [] ∧ item.toBytes = .ok b)
      fun _ read => ⟨rfl, read⟩).bind fun b _ ⟨first, read⟩ => ?_
    refine ih.bind fun members _ ⟨more, reads⟩ => takes_pure ?_
    subst first more
    refine ⟨rfl, ?_⟩
    rw [List.mapM_cons, read, reads]
    rfl

/-- As many byte strings as a list has members. -/
theorem takes_popEach {γ : Type} (l : List γ) :
    Takes heap (fun operands members => operands.mapM Item.toBytes = .ok members ∧
      members.length = l.length) (l.mapM fun _ => (popBytes : Exec σ Bytes)) := by
  induction l with
  | nil => exact takes_pure ⟨rfl, rfl⟩
  | cons x l ih =>
    rw [List.mapM_cons]
    refine takes_popBytes.bind fun b _ ⟨item, same, read⟩ => ?_
    refine ih.bind fun members more ⟨reads, length⟩ => takes_pure ?_
    subst same
    refine ⟨?_, by rw [List.length_cons, List.length_cons, length]⟩
    rw [List.append_nil, List.singleton_append, List.mapM_cons, read, reads]
    rfl

theorem takes_popGroup (group : SignatureGroup) :
    Takes heap (fun operands members => heap.Groups members operands)
      (popGroup group : Exec σ (List Bytes)) := by
  rw [popGroup]
  refine takes_pop.bind fun item operands same => ?_
  subst same
  have counted (item : Item) (plain : ∀ s, item ≠ .seq s) :
      Takes heap (fun more members => heap.Groups members ([item] ++ more)) (do
        let count ← (item.toInt : Except ItemFault Int)
        if count < 1 ∨ count > (← get).stack.depth then fail (.groupCount group count)
        (List.replicate count.toNat ()).mapM fun _ => (popBytes : Exec σ Bytes)) := by
    refine (takes_liftItem (P := fun operands count => operands = [] ∧ item.toInt = .ok count)
      fun _ read => ⟨rfl, read⟩).bind fun count _ ⟨nothing, number⟩ => ?_
    subst nothing
    refine takes_get_bind fun m _ => (takes_fail _).guarded fun inside => ?_
    refine fun m a m' same ok => ?_
    obtain ⟨operands, rest, items, ⟨reads, length⟩, rfl⟩ := takes_popEach _ m a m' same ok
    refine ⟨operands, rest, items, .counted plain ?_ reads, rfl⟩
    rw [number, length, List.length_replicate]
    congr 1
    omega
  cases item with
  | seq s =>
    refine takes_get_bind fun m atHeap => ?_
    rw [atHeap]
    intro m members m' same ok
    obtain ⟨_, rest, items, ⟨rfl, reads⟩, rfl⟩ := takes_readEach _ m members m' same ok
    exact ⟨[], rest, items, .sequence reads, rfl⟩
  | prim p => exact counted _ nofun
  | map id => exact counted _ nofun
  | handle h => exact counted _ nofun

end Exec

end DryRun
