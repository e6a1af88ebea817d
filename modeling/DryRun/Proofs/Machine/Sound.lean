import DryRun.Proofs.Exec
import DryRun.Proofs.Heap.Sound

/-!
# Computations on sound machines

A machine is sound if its heap is, if the items on its stacks may be held by the heap, and if the
world keeps to a rule of its own.  Which plain values there may be and what the rule of the world
is are the parts of a `Machine.Standard`; the rule must not break when the heap gets more.

A computation is described by what it does to sound machines.  Since nothing is ever removed from a
heap, it is enough to remember of an earlier heap which names had been made in it:

* `Exec.Yields std old Q c` — from every sound machine whose heap has what `old` has, `c` gets to a
  sound machine however it ends, and if it returns a value then one in `Q`;
* `Exec.Safe std old c` — the same without a word on the value.

What is in a heap stays in it, so facts about earlier items are carried through any number of steps
by `Heap.Admits.mono`, and the rules below (`Yields.bind` and its like) never speak of two heaps.
-/

set_option autoImplicit false

namespace DryRun

variable {σ α β : Type}

namespace Machine

/-- Which plain values a run works on, and what the world keeps to. -/
structure Standard (σ : Type) where
  /-- The plain values. -/
  value : Primitive → Prop
  /-- The rule of the world, which may speak of what was made. -/
  world : Heap → σ → Prop
  /-- The plain values form a standard. -/
  values : Primitive.Standard value
  /-- The world keeps to the rule when more is made. -/
  mono : ∀ {a b : Heap} {w : σ}, a.Le b → world a w → world b w

attribute [instance] Standard.values

/-- The heap is sound, it may hold what is on the stacks, and the world keeps to its rule. -/
structure Sound (std : Standard σ) (m : Machine σ) : Prop where
  /-- The heap. -/
  heap : m.heap.Sound std.value
  /-- The evaluation stack. -/
  stack : ∀ item ∈ m.stack.items, m.heap.Admits std.value item
  /-- The alternative stack. -/
  alt : ∀ item ∈ m.alt.items, m.heap.Admits std.value item
  /-- The world. -/
  world : std.world m.heap m.world

variable {std : Standard σ} {m : Machine σ}

/-- The frames, the gas and the status do not matter. -/
theorem Sound.of_items {m' : Machine σ} (h : m.Sound std) (stack : m'.stack = m.stack)
    (alt : m'.alt = m.alt) (heap : m'.heap = m.heap) (world : m'.world = m.world) :
    m'.Sound std :=
  ⟨by rw [heap]; exact h.heap, by rw [heap, stack]; exact h.stack,
    by rw [heap, alt]; exact h.alt, by rw [heap, world]; exact h.world⟩

theorem Sound.stop (h : m.Sound std) (fault : Fault) : (m.stop fault).Sound std :=
  h.of_items rfl rfl rfl rfl

theorem Sound.withStack (h : m.Sound std) {stack : Stack}
    (fit : ∀ item ∈ stack.items, m.heap.Admits std.value item) :
    Machine.Sound std { m with stack } :=
  ⟨h.heap, fit, h.alt, h.world⟩

theorem Sound.withAlt (h : m.Sound std) {alt : Stack}
    (fit : ∀ item ∈ alt.items, m.heap.Admits std.value item) :
    Machine.Sound std { m with alt } :=
  ⟨h.heap, h.stack, fit, h.world⟩

/-- Another heap that is sound and has all that the first one has. -/
theorem Sound.withHeap (h : m.Sound std) {heap : Heap} (sound : heap.Sound std.value)
    (le : m.heap.Le heap) : Machine.Sound std { m with heap } :=
  ⟨sound, fun item mem => (h.stack item mem).mono le, fun item mem => (h.alt item mem).mono le,
    std.mono le h.world⟩

end Machine

open Machine (Standard)

/-! ## Access to stacks -/

namespace Stack

theorem mem_of_peek {s : Stack} {n : Int} {item : Item} (h : s.peek n = .ok item) :
    item ∈ s.items := by
  rw [peek] at h
  split at h
  · cases h
    exact List.getElem_mem _
  · cases h

theorem pop_eq_ok {s rest : Stack} {item : Item} (h : s.pop = .ok (item, rest)) :
    s.items = item :: rest.items := by
  rw [pop] at h
  split at h
  · next first others items =>
    cases h
    exact items
  · cases h

theorem remove_eq_ok {s rest : Stack} {n : Int} {item : Item}
    (h : s.remove n = .ok (item, rest)) : item ∈ s.items ∧ rest.items ⊆ s.items := by
  rw [remove] at h
  cases found : s.peek n with
  | error cause => rw [found] at h; cases h
  | ok top =>
    rw [found] at h
    cases h
    exact ⟨mem_of_peek found, List.eraseIdx_subset⟩

theorem mem_of_insert {s after : Stack} {n : Int} {item other : Item}
    (h : s.insert n item = .ok after) (mem : other ∈ after.items) :
    other = item ∨ other ∈ s.items := by
  rw [insert] at h
  split at h
  · cases h
    exact List.eq_or_mem_of_mem_insertIdx mem
  · cases h

theorem mem_of_set {s after : Stack} {n : Int} {item other : Item}
    (h : s.set n item = .ok after) (mem : other ∈ after.items) :
    other = item ∨ other ∈ s.items := by
  rw [set] at h
  split at h
  · cases h
    exact (List.mem_or_eq_of_mem_set mem).symm
  · cases h

end Stack

namespace Exec

/-! ## The two judgements -/

/-- From every sound machine whose heap has what `old` has, the computation gets to a sound machine
with no less in its heap, and returns, if it does, a value in `Q`. -/
def Yields (std : Standard σ) (old : Heap) (Q : α → Heap → Prop) (c : Exec σ α) : Prop :=
  ∀ m : Machine σ, old.Le m.heap → m.Sound std →
    wp c (fun a m' => m'.Sound std ∧ m.heap.Le m'.heap ∧ Q a m'.heap) (Machine.Sound std) m

/-- From every sound machine whose heap has what `old` has, the computation gets to a sound machine
with no less in its heap. -/
def Safe (std : Standard σ) (old : Heap) (c : Exec σ α) : Prop :=
  Yields std old (fun _ _ => True) c

variable {std : Standard σ} {old : Heap} {Q : α → Heap → Prop} {R : β → Heap → Prop}

theorem Yields.mono {Q' : α → Heap → Prop} {c : Exec σ α} (h : Yields std old Q c)
    (hQ : ∀ a heap, old.Le heap → Q a heap → Q' a heap) : Yields std old Q' c :=
  fun m le sound => (h m le sound).mono
    (fun a _ ⟨sound', le', ha⟩ => ⟨sound', le', hQ a _ (le.trans le') ha⟩) fun _ sound' => sound'

theorem Yields.safe {c : Exec σ α} (h : Yields std old Q c) : Safe std old c :=
  h.mono fun _ _ _ _ => trivial

theorem Safe.wp {c : Exec σ α} {m : Machine σ} (h : Safe std m.heap c) (sound : m.Sound std) :
    wp c (fun _ m' => m'.Sound std) (Machine.Sound std) m :=
  (h m (.refl m.heap) sound).mono (fun _ _ done => done.1) fun _ failed => failed

theorem yields_pure {a : α} (h : ∀ heap, old.Le heap → Q a heap) :
    Yields std old Q (pure a : Exec σ α) :=
  fun m le sound => ⟨sound, .refl m.heap, h m.heap le⟩

theorem safe_pure (a : α) : Safe std old (pure a : Exec σ α) := yields_pure fun _ _ => trivial

theorem yields_throw (fault : Fault) : Yields std old Q (throw fault : Exec σ α) :=
  fun _ _ sound => sound

theorem yields_fail (cause : MachineFault) : Yields std old Q (fail cause : Exec σ α) :=
  yields_throw _

theorem Yields.bind {c : Exec σ α} {f : α → Exec σ β} (hc : Yields std old Q c)
    (hf : ∀ a heap, old.Le heap → Q a heap → Yields std heap R (f a)) :
    Yields std old R (c >>= f) := by
  intro m le sound
  refine wp_bind.2 ((hc m le sound).mono ?_ fun _ sound' => sound')
  rintro a m₁ ⟨sound₁, le₁, ha⟩
  refine (hf a m₁.heap (le.trans le₁) ha m₁ (.refl _) sound₁).mono ?_ fun _ sound' => sound'
  exact fun b m₂ ⟨sound₂, le₂, hb⟩ => ⟨sound₂, le₁.trans le₂, hb⟩

theorem Yields.map {c : Exec σ α} (f : α → β) (hc : Yields std old (fun a heap => R (f a) heap) c) :
    Yields std old R (f <$> c) := by
  intro m le sound
  rw [map_eq_pure_bind]
  exact wp_bind.2 (hc m le sound)

/-- The machine that is read is a sound one. -/
theorem yields_get_bind {f : Machine σ → Exec σ β}
    (hf : ∀ m : Machine σ, old.Le m.heap → m.Sound std → Yields std m.heap R (f m)) :
    Yields std old R (get >>= f) :=
  fun m le sound => wp_get_bind.2 (hf m le sound m (.refl m.heap) sound)

theorem Yields.ite {p : Prop} [Decidable p] {c d : Exec σ α} (hc : p → Yields std old Q c)
    (hd : ¬p → Yields std old Q d) : Yields std old Q (if p then c else d) := by
  split
  · next h => exact hc h
  · next h => exact hd h

/-- Behind a check that fails where `p` holds, `p` does not hold. -/
theorem Yields.guarded {p : Prop} [Decidable p] {fault : Fault} {f : Unit → Exec σ α}
    (hf : ¬p → Yields std old Q (f ())) :
    Yields std old Q (if p then throw fault >>= f else f ()) :=
  .ite (fun _ => (yields_throw (Q := fun _ _ => False) fault).bind fun _ _ _ no => no.elim) hf

/-- Doing something with each member of a list, where what is known of an answer stays true. -/
theorem Yields.mapM {γ : Type} {f : γ → Exec σ α} {l : List γ}
    (stays : ∀ a x y, Heap.Le x y → Q a x → Q a y)
    (hf : ∀ x ∈ l, ∀ heap, old.Le heap → Yields std heap Q (f x)) :
    Yields std old (fun as heap => as.length = l.length ∧ ∀ a ∈ as, Q a heap) (l.mapM f) := by
  induction l generalizing old with
  | nil => exact yields_pure fun _ _ => ⟨rfl, fun _ mem => absurd mem List.not_mem_nil⟩
  | cons x l ih =>
    rw [List.forall_mem_cons] at hf
    rw [List.mapM_cons]
    refine (hf.1 old (.refl old)).bind fun a heap le ha => ?_
    refine (ih fun y mem heap' le' => hf.2 y mem heap' (le.trans le')).bind fun as heap' le' has =>
      yields_pure fun heap'' le'' => ?_
    -- the first answer is older than the others, so it has to stay true while they are found
    refine ⟨congrArg (· + 1) has.1, List.forall_mem_cons.2 ⟨?_, fun b mem => ?_⟩⟩
    · exact stays a _ _ (le'.trans le'') ha
    · exact stays b _ _ le'' (has.2 b mem)

theorem Safe.mapM {γ : Type} {f : γ → Exec σ α} (l : List γ)
    (hf : ∀ x heap, Safe std heap (f x)) : Safe std old (l.mapM f) :=
  (Yields.mapM (fun _ _ _ _ _ => trivial) fun x _ heap _ => hf x heap).safe

theorem Safe.forM {γ : Type} {f : γ → Exec σ Unit} {l : List γ}
    (hf : ∀ x ∈ l, ∀ heap, old.Le heap → Safe std heap (f x)) : Safe std old (l.forM f) := by
  induction l generalizing old with
  | nil => exact safe_pure ()
  | cons x l ih =>
    rw [List.forall_mem_cons] at hf
    exact (hf.1 old (.refl old)).bind fun _ heap le _ =>
      ih fun y mem heap' le' => hf.2 y mem heap' (le.trans le')

/-! ### Causes from below -/

theorem yields_liftItem (x : Except ItemFault α) :
    Yields std old (fun a _ => x = .ok a) (liftM x : Exec σ α) := by
  cases x with
  | ok a => exact yields_pure fun _ _ => rfl
  | error cause => exact yields_throw (.item cause)

theorem yields_liftStack (x : Except StackFault α) :
    Yields std old (fun a _ => x = .ok a) (liftM x : Exec σ α) := by
  cases x with
  | ok a => exact yields_pure fun _ _ => rfl
  | error cause => exact yields_throw (.stack cause)

theorem yields_liftMachine (x : Except MachineFault α) :
    Yields std old (fun a _ => x = .ok a) (liftM x : Exec σ α) := by
  cases x with
  | ok a => exact yields_pure fun _ _ => rfl
  | error cause => exact yields_throw (.machine cause)

/-! ## The stacks -/

theorem safe_modifyStack {stack : Stack} (fit : ∀ item ∈ stack.items, old.Admits std.value item) :
    Safe std old (modify fun m => { m with stack } : Exec σ Unit) :=
  fun m le sound =>
    ⟨sound.withStack fun item mem => (fit item mem).mono le, .refl m.heap, trivial⟩

theorem safe_modifyAlt {alt : Stack} (fit : ∀ item ∈ alt.items, old.Admits std.value item) :
    Safe std old (modify fun m => { m with alt } : Exec σ Unit) :=
  fun m le sound =>
    ⟨sound.withAlt fun item mem => (fit item mem).mono le, .refl m.heap, trivial⟩

theorem safe_push {item : Item} (fit : old.Admits std.value item) :
    Safe std old (push item : Exec σ Unit) :=
  fun m le sound =>
    ⟨sound.withStack (List.forall_mem_cons.2 ⟨fit.mono le, sound.stack⟩), .refl m.heap, trivial⟩

theorem safe_pushBytes {b : Bytes} (fit : std.value (.bytes b)) :
    Safe std old (pushBytes b : Exec σ Unit) :=
  have admitted : old.Admits std.value (.ofBytes b) := fit
  safe_push admitted

theorem safe_pushInt {v : Int} (fit : std.value (.int v)) :
    Safe std old (pushInt v : Exec σ Unit) :=
  have admitted : old.Admits std.value (.ofInt v) := fit
  safe_push admitted

theorem safe_pushBool (b : Bool) : Safe std old (pushBool b : Exec σ Unit) :=
  have admitted : old.Admits std.value (.ofBool b) := Primitive.Standard.bool b
  safe_push admitted

/-- A byte string that is short enough for an item may be pushed. -/
theorem safe_pushShort {b : Bytes} (short : b.length ≤ maxItemSize) :
    Safe std old (pushBytes b : Exec σ Unit) :=
  safe_pushBytes (std.values.of_limited short)

/-- A number of things of which there are not too many may be pushed. -/
theorem safe_pushCount {n : Nat} (h : n ≤ maxItemSize) :
    Safe std old (pushInt n : Exec σ Unit) :=
  safe_pushInt (std.values.of_limited (Primitive.limited_count h))

theorem yields_pop :
    Yields std old (fun item heap => heap.Admits std.value item) (pop : Exec σ Item) := by
  refine yields_get_bind fun m le sound => ?_
  refine (yields_liftStack _).bind fun popped heap le' taken => ?_
  have items := Stack.pop_eq_ok taken
  have fit := sound.stack
  rw [items, List.forall_mem_cons] at fit
  refine (safe_modifyStack fun item mem => (fit.2 item mem).mono le').bind fun _ heap' le'' _ => ?_
  exact yields_pure fun heap'' le''' => fit.1.mono (le'.trans (le''.trans le'''))

theorem yields_popBytes :
    Yields std old (fun b _ => std.value (.bytes b)) (popBytes : Exec σ Bytes) := by
  refine yields_pop.bind fun item heap le fit =>
    (yields_liftItem _).mono fun b heap' le' taken => ?_
  cases item with
  | prim p =>
    cases taken
    exact std.values.toBytes fit
  | seq s => cases taken
  | map id => cases taken
  | handle h => cases taken

theorem safe_popInt : Safe std old (popInt : Exec σ Int) :=
  yields_pop.bind fun _ _ _ _ => (yields_liftItem _).safe

theorem safe_popBool : Safe std old (popBool : Exec σ Bool) :=
  yields_pop.bind fun _ _ _ _ => safe_pure _

theorem safe_popIndex : Safe std old (popIndex : Exec σ Nat) :=
  safe_popInt.bind fun _ _ _ _ => .guarded fun _ => safe_pure _

theorem yields_peek (n : Nat) :
    Yields std old (fun item heap => heap.Admits std.value item) (peek n : Exec σ Item) :=
  yields_get_bind fun _ _ sound => (yields_liftStack _).mono fun item _ le found =>
    (sound.stack item (Stack.mem_of_peek found)).mono le

theorem yields_remove (n : Nat) :
    Yields std old (fun item heap => heap.Admits std.value item) (remove n : Exec σ Item) := by
  refine yields_get_bind fun m le sound => ?_
  refine (yields_liftStack _).bind fun removed heap le' taken => ?_
  obtain ⟨there, left⟩ := Stack.remove_eq_ok taken
  have fit := sound.stack
  refine (safe_modifyStack fun item mem => (fit item (left mem)).mono le').bind
    fun _ heap' le'' _ => ?_
  exact yields_pure fun heap'' le''' => (fit _ there).mono (le'.trans (le''.trans le'''))

theorem safe_insert (n : Nat) {item : Item} (fit : old.Admits std.value item) :
    Safe std old (insert n item : Exec σ Unit) := by
  refine yields_get_bind fun m le sound => (yields_liftStack _).bind fun stack heap le' put => ?_
  refine safe_modifyStack fun other mem => ?_
  rcases Stack.mem_of_insert put mem with rfl | mem
  · exact fit.mono (le.trans le')
  · exact (sound.stack other mem).mono le'

theorem safe_replace (n : Nat) {item : Item} (fit : old.Admits std.value item) :
    Safe std old (replace n item : Exec σ Unit) := by
  refine yields_get_bind fun m le sound => (yields_liftStack _).bind fun stack heap le' put => ?_
  refine safe_modifyStack fun other mem => ?_
  rcases Stack.mem_of_set put mem with rfl | mem
  · exact fit.mono (le.trans le')
  · exact (sound.stack other mem).mono le'

/-! ## The heap -/

theorem yields_onHeap {f : Heap → Heap × α}
    (h : ∀ heap : Heap, old.Le heap → heap.Sound std.value →
      (f heap).1.Sound std.value ∧ heap.Le (f heap).1 ∧ Q (f heap).2 (f heap).1) :
    Yields std old Q (onHeap f : Exec σ α) := by
  intro m le sound
  obtain ⟨sound', le', hQ⟩ := h m.heap le sound.heap
  exact ⟨sound.withHeap sound' le', le', hQ⟩

theorem safe_modifyHeap {f : Heap → Heap}
    (h : ∀ heap : Heap, old.Le heap → heap.Sound std.value →
      (f heap).Sound std.value ∧ heap.Le (f heap)) :
    Safe std old (modifyHeap f : Exec σ Unit) :=
  yields_onHeap fun heap le sound => ⟨(h heap le sound).1, (h heap le sound).2, trivial⟩

theorem safe_pushSequence (kind : SequenceKind) {items : List Item}
    (fit : old.AdmitsElements std.value items) :
    Safe std old (pushSequence kind items : Exec σ Unit) := by
  have made : Yields std old (fun s heap => heap.Has (.seq s))
      (onHeap (·.makeSequence kind items) : Exec σ Sequence) := by
    refine yields_onHeap fun heap le sound => ?_
    refine ⟨sound.makeSequence kind (fit.mono le), (Heap.Grows.makeSequence heap kind items).le, ?_⟩
    rw [Heap.makeSequence_snd, Heap.has_makeSequence]
    exact .inr rfl
  exact made.bind fun s heap le has => safe_push has

theorem safe_pushMap {entries : Entries} (fit : old.AdmitsEntries std.value entries) :
    Safe std old (pushMap entries : Exec σ Unit) := by
  have made : Yields std old (fun id heap => heap.Has (.map id))
      (onHeap (·.makeMap entries) : Exec σ Nat) :=
    yields_onHeap fun heap le sound => ⟨sound.makeMap (fit.mono le),
      (Heap.Grows.makeMap heap entries).le, (Heap.has_makeMap heap entries _).2 (.inr rfl)⟩
  exact made.bind fun id heap le has => safe_push has

theorem yields_makeObject {object : Object} (fit : object.Sound old std.value) :
    Yields std old (fun handle heap => ∀ path, heap.Has (.handle { handle with path }))
      (onHeap (·.makeObject object) : Exec σ Handle) :=
  yields_onHeap fun heap le sound => ⟨sound.makeObject (fit.mono le), heap.le_makeObject object,
    fun path => (Heap.has_makeObject heap object _).2 (.inr ⟨path, rfl⟩)⟩

theorem safe_pushObject {object : Object} (fit : object.Sound old std.value) :
    Safe std old (pushObject object : Exec σ Unit) :=
  (yields_makeObject fit).bind fun handle _ _ has => safe_push (has handle.path)

/-! ## Frames -/

/-- A change of frames, gas and status. -/
theorem safe_modify_of_items {f : Machine σ → Machine σ}
    (h : ∀ m, (f m).stack = m.stack ∧ (f m).alt = m.alt ∧ (f m).heap = m.heap ∧
      (f m).world = m.world) :
    Safe std old (modify f : Exec σ Unit) := by
  intro m le sound
  obtain ⟨stack, alt, heap, world⟩ := h m
  refine ⟨sound.of_items stack alt heap world, ?_, trivial⟩
  rw [heap]
  exact .refl m.heap

theorem safe_goTo (position : Nat) : Safe std old (goTo position : Exec σ Unit) := by
  refine safe_modify_of_items fun m => ?_
  split
  · exact ⟨rfl, rfl, rfl, rfl⟩
  · exact ⟨rfl, rfl, rfl, rfl⟩

theorem safe_leave : Safe std old (leave : Exec σ Unit) :=
  safe_modify_of_items fun _ => ⟨rfl, rfl, rfl, rfl⟩

theorem safe_enter (frame : Frame) : Safe std old (enter frame : Exec σ Unit) :=
  yields_get_bind fun _ _ _ => .guarded fun _ =>
    safe_modify_of_items fun _ => ⟨rfl, rfl, rfl, rfl⟩

end Exec

end DryRun
