import DryRun.Machine.State
import DryRun.Proofs.Heap.Growth
import DryRun.Proofs.Returns

/-!
# What a computation does to the machine

A computation on the machine leaves a machine behind whether it succeeds or fails, and what it did
before a failure stays done.  Two kinds of statements follow from that, and every later file is
written in terms of them.

* `Exec.wp c Q E m` — run from `m`, the computation `c` either succeeds with a value and a machine
  in `Q`, or fails and leaves a machine in `E`.  `wp_bind` is the rule for `do`.
* `Exec.Keeps R c` — wherever `c` begins and however it ends, the machine it leaves stands in the
  relation `R` to the one it found.

Most of the machine is of no concern to most of the instructions: they move items between the two
stacks and the collections of the heap.  `Machine.OnlyItems` is the relation that says so, and
`Machine.ItemBlind` the class of the relations that do not look at items at all.  Most of them do
not even change a collection that is there: they move items between the stacks and make collections,
which is `Machine.OnlyGrowth` and no change to the relations of the class `Machine.GrowthBlind`.
Everything that the primitives do to items is settled here once, for all relations of these classes.
-/

set_option autoImplicit false

namespace DryRun

variable {σ α β : Type}

/-! ## Relations between machines -/

/-- Nothing but items has been moved: the stacks and the collections may differ, while the frames,
the gas, the status, the world and the objects behind handles are the same. -/
structure Machine.OnlyItems (m m' : Machine σ) : Prop where
  /-- The frames are the same. -/
  frames : m'.frames = m.frames
  /-- The gas is the same. -/
  gas : m'.gas = m.gas
  /-- The status is the same. -/
  status : m'.status = m.status
  /-- The world is the same. -/
  world : m'.world = m.world
  /-- The objects are the same. -/
  objects : m'.heap.objects = m.heap.objects

namespace Machine

theorem OnlyItems.refl (m : Machine σ) : OnlyItems m m := ⟨rfl, rfl, rfl, rfl, rfl⟩

theorem OnlyItems.trans {a b c : Machine σ} (h : OnlyItems a b) (k : OnlyItems b c) :
    OnlyItems a c :=
  ⟨k.frames.trans h.frames, k.gas.trans h.gas, k.status.trans h.status, k.world.trans h.world,
    k.objects.trans h.objects⟩

/-- A relation that does not look at items: it can be followed through any number of steps, and no
movement of items leaves it. -/
class ItemBlind (R : Machine σ → Machine σ → Prop) : Prop where
  /-- One change after another is a change. -/
  trans : ∀ {a b c}, R a b → R b c → R a c
  /-- Moving items is no change. -/
  of_onlyItems : ∀ {a b}, OnlyItems a b → R a b

instance : ItemBlind (OnlyItems (σ := σ)) := ⟨OnlyItems.trans, id⟩

theorem ItemBlind.refl (R : Machine σ → Machine σ → Prop) [ItemBlind R] (m : Machine σ) : R m m :=
  of_onlyItems (.refl m)

/-- Nothing has been done but to move items on the stacks and to make collections. -/
structure OnlyGrowth (m m' : Machine σ) : Prop where
  /-- The frames are the same. -/
  frames : m'.frames = m.frames
  /-- The gas is the same. -/
  gas : m'.gas = m.gas
  /-- The status is the same. -/
  status : m'.status = m.status
  /-- The world is the same. -/
  world : m'.world = m.world
  /-- The heap has grown. -/
  heap : m.heap.Grows m'.heap

theorem OnlyGrowth.refl (m : Machine σ) : OnlyGrowth m m := ⟨rfl, rfl, rfl, rfl, .refl m.heap⟩

theorem OnlyGrowth.trans {a b c : Machine σ} (h : OnlyGrowth a b) (k : OnlyGrowth b c) :
    OnlyGrowth a c :=
  ⟨k.frames.trans h.frames, k.gas.trans h.gas, k.status.trans h.status, k.world.trans h.world,
    h.heap.trans k.heap⟩

theorem OnlyGrowth.onlyItems {m m' : Machine σ} (h : OnlyGrowth m m') : OnlyItems m m' :=
  ⟨h.frames, h.gas, h.status, h.world, h.heap.objects⟩

/-- A relation that looks neither at the stacks nor at collections that are made. -/
class GrowthBlind (R : Machine σ → Machine σ → Prop) : Prop where
  /-- One change after another is a change. -/
  trans : ∀ {a b c}, R a b → R b c → R a c
  /-- Moving items on the stacks and making collections is no change. -/
  of_onlyGrowth : ∀ {a b}, OnlyGrowth a b → R a b

instance : GrowthBlind (OnlyGrowth (σ := σ)) := ⟨OnlyGrowth.trans, id⟩

instance {R : Machine σ → Machine σ → Prop} [ItemBlind R] : GrowthBlind R where
  trans := ItemBlind.trans
  of_onlyGrowth h := ItemBlind.of_onlyItems h.onlyItems

theorem GrowthBlind.refl (R : Machine σ → Machine σ → Prop) [GrowthBlind R] (m : Machine σ) :
    R m m :=
  of_onlyGrowth (.refl m)

end Machine

open Machine (OnlyItems ItemBlind OnlyGrowth GrowthBlind)

namespace Exec

/-! ## Outcomes -/

theorem bind_eq (c : Exec σ α) (f : α → Exec σ β) (m : Machine σ) :
    (c >>= f) m =
      match c m with
      | .ok a m' => f a m'
      | .error fault m' => .error fault m' := by
  show EStateM.bind c f m = _
  rw [EStateM.bind]
  cases c m <;> rfl

/-- Both parts of what succeeds have succeeded. -/
theorem bind_eq_ok {c : Exec σ α} {f : α → Exec σ β} {m m' : Machine σ} {b : β}
    (h : (c >>= f) m = .ok b m') : ∃ a m₁, c m = .ok a m₁ ∧ f a m₁ = .ok b m' := by
  rw [bind_eq] at h
  cases hc : c m with
  | ok a m₁ =>
    rw [hc] at h
    exact ⟨a, m₁, rfl, h⟩
  | error fault m₁ =>
    rw [hc] at h
    cases h

theorem get_bind (f : Machine σ → Exec σ α) (m : Machine σ) :
    (get >>= f : Exec σ α) m = f m m := rfl

/-- Run from `m`, a computation either succeeds in `Q` or fails in `E`. -/
def wp (c : Exec σ α) (Q : α → Machine σ → Prop) (E : Machine σ → Prop) (m : Machine σ) : Prop :=
  match c m with
  | .ok a m' => Q a m'
  | .error _ m' => E m'

/-- However a computation ends, the machine it leaves stands in `R` to the one it found. -/
def Keeps (R : Machine σ → Machine σ → Prop) (c : Exec σ α) : Prop :=
  ∀ m, wp c (fun _ => R m) (R m) m

section

variable {c : Exec σ α} {Q : α → Machine σ → Prop} {E : Machine σ → Prop} {m m' : Machine σ}

theorem wp.ok {a : α} (h : wp c Q E m) (he : c m = .ok a m') : Q a m' := by
  rwa [wp, he] at h

theorem wp.error {fault : Fault} (h : wp c Q E m) (he : c m = .error fault m') : E m' := by
  rwa [wp, he] at h

/-- What every outcome satisfies can be weakened. -/
theorem wp.mono {Q' : α → Machine σ → Prop} {E' : Machine σ → Prop} (h : wp c Q E m)
    (hQ : ∀ a m', Q a m' → Q' a m') (hE : ∀ m', E m' → E' m') : wp c Q' E' m := by
  rw [wp] at h ⊢
  cases hc : c m with
  | ok a m' => rw [hc] at h; exact hQ a m' h
  | error e m' => rw [hc] at h; exact hE m' h

/-- Two facts about the same outcome. -/
theorem wp.and {Q' : α → Machine σ → Prop} {E' : Machine σ → Prop} (h : wp c Q E m)
    (h' : wp c Q' E' m) : wp c (fun a m' => Q a m' ∧ Q' a m') (fun m' => E m' ∧ E' m') m := by
  rw [wp] at *
  cases hc : c m with
  | ok a m' => rw [hc] at h h'; exact ⟨h, h'⟩
  | error e m' => rw [hc] at h h'; exact ⟨h, h'⟩

/-- **The rule for `do`**: the second part begins where the first one has succeeded. -/
theorem wp_bind {f : α → Exec σ β} {Q : β → Machine σ → Prop} :
    wp (c >>= f) Q E m ↔ wp c (fun a => wp (f a) Q E) E m := by
  rw [wp, wp, bind_eq]
  cases c m <;> rfl

end

theorem wp_of_returns {P : α → Prop} {c : Exec σ α} (h : Returns P c) (m : Machine σ) :
    wp c (fun a _ => P a) (fun _ => True) m := by
  rw [wp]
  cases he : c m with
  | ok a m' => exact h _ _ _ he
  | error fault m' => exact trivial

theorem wp_get_bind {f : Machine σ → Exec σ β} {Q : β → Machine σ → Prop}
    {E : Machine σ → Prop} {m : Machine σ} : wp (get >>= f) Q E m ↔ wp (f m) Q E m := by
  rw [wp, wp, get_bind]

variable {R S : Machine σ → Machine σ → Prop}

theorem Keeps.ok {c : Exec σ α} {a : α} {m m' : Machine σ} (h : Keeps R c)
    (he : c m = .ok a m') : R m m' :=
  (h m).ok he

theorem Keeps.error {c : Exec σ α} {fault : Fault} {m m' : Machine σ} (h : Keeps R c)
    (he : c m = .error fault m') : R m m' :=
  (h m).error he

theorem Keeps.mono {c : Exec σ α} (h : Keeps R c) (hRS : ∀ {m m'}, R m m' → S m m') : Keeps S c :=
  fun m => (h m).mono (fun _ _ => hRS) fun _ => hRS

theorem keeps_modify {f : Machine σ → Machine σ} (h : ∀ m, R m (f m)) :
    Keeps R (modify f : Exec σ Unit) := h

theorem Keeps.ite {p : Prop} [Decidable p] {c d : Exec σ α} (hc : Keeps R c) (hd : Keeps R d) :
    Keeps R (if p then c else d) := by
  split
  · exact hc
  · exact hd

/-! ## Keeping a relation -/

variable [GrowthBlind R]

theorem keeps_pure (a : α) : Keeps R (pure a : Exec σ α) := GrowthBlind.refl R

theorem keeps_throw (fault : Fault) : Keeps R (throw fault : Exec σ α) := GrowthBlind.refl R

theorem keeps_fail (cause : MachineFault) : Keeps R (fail cause : Exec σ α) := keeps_throw _

theorem keeps_get : Keeps R (get : Exec σ (Machine σ)) := GrowthBlind.refl R

theorem Keeps.bind {c : Exec σ α} {f : α → Exec σ β} (hc : Keeps R c) (hf : ∀ a, Keeps R (f a)) :
    Keeps R (c >>= f) := fun m =>
  wp_bind.2 <| (hc m).mono
    (fun a m₁ h₁ => (hf a m₁).mono (fun _ _ h₂ => GrowthBlind.trans h₁ h₂)
      fun _ h₂ => GrowthBlind.trans h₁ h₂)
    fun _ h => h

/-- The second part may rely on what the first one returns from `m`. -/
theorem Keeps.bind_at {c : Exec σ α} {P : α → Prop} {f : α → Exec σ β} {m : Machine σ}
    (hc : Keeps R c) (hP : wp c (fun a _ => P a) (fun _ => True) m)
    (hf : ∀ a, P a → Keeps R (f a)) : wp (c >>= f) (fun _ => R m) (R m) m :=
  wp_bind.2 <| (hP.and (hc m)).mono
    (fun a m₁ h₁ => (hf a h₁.1 m₁).mono (fun _ _ h₂ => GrowthBlind.trans h₁.2 h₂)
      fun _ h₂ => GrowthBlind.trans h₁.2 h₂)
    fun _ h => h.2

/-- The second part may rely on what the first one returns anywhere. -/
theorem Keeps.bind_of_returns {c : Exec σ α} {P : α → Prop} {f : α → Exec σ β} (hc : Keeps R c)
    (hP : Returns P c) (hf : ∀ a, P a → Keeps R (f a)) : Keeps R (c >>= f) :=
  fun m => hc.bind_at (wp_of_returns hP m) hf

theorem Keeps.map {c : Exec σ α} (f : α → β) (hc : Keeps R c) : Keeps R (f <$> c) := by
  rw [map_eq_pure_bind]
  exact hc.bind fun _ => keeps_pure _

/-- A computation behind a check: where the check says so, a fault comes first. -/
theorem Keeps.guarded {p : Prop} [Decidable p] {c : Exec σ Unit} {f : Unit → Exec σ α}
    (hc : Keeps R c) (hf : ∀ u, Keeps R (f u)) : Keeps R (if p then c >>= f else f ()) := by
  split
  · exact hc.bind hf
  · exact hf ()

theorem Keeps.mapM {γ : Type} {f : γ → Exec σ α} (hf : ∀ x, Keeps R (f x)) :
    ∀ l : List γ, Keeps R (l.mapM f)
  | [] => keeps_pure _
  | x :: l => by
    rw [List.mapM_cons]
    exact (hf x).bind fun _ => (Keeps.mapM hf l).bind fun _ => keeps_pure _

theorem Keeps.forM {γ : Type} {f : γ → Exec σ Unit} (hf : ∀ x, Keeps R (f x)) :
    ∀ l : List γ, Keeps R (l.forM f)
  | [] => keeps_pure _
  | x :: l => (hf x).bind fun _ => Keeps.forM hf l

/-! ### Causes from below

A fault of an item, of a stack or of the machine itself becomes a fault of the computation. -/

theorem keeps_liftItem (x : Except ItemFault α) : Keeps R (liftM x : Exec σ α) := by
  cases x with
  | ok a => exact keeps_pure a
  | error cause => exact keeps_throw (.item cause)

theorem keeps_liftStack (x : Except StackFault α) : Keeps R (liftM x : Exec σ α) := by
  cases x with
  | ok a => exact keeps_pure a
  | error cause => exact keeps_throw (.stack cause)

theorem keeps_liftMachine (x : Except MachineFault α) : Keeps R (liftM x : Exec σ α) := by
  cases x with
  | ok a => exact keeps_pure a
  | error cause => exact keeps_throw (.machine cause)

/-! ### The stacks -/

theorem keeps_modifyStack (f : Machine σ → Stack) :
    Keeps R (modify fun m => { m with stack := f m } : Exec σ Unit) :=
  keeps_modify fun m => GrowthBlind.of_onlyGrowth ⟨rfl, rfl, rfl, rfl, .refl m.heap⟩

theorem keeps_modifyAlt (f : Machine σ → Stack) :
    Keeps R (modify fun m => { m with alt := f m } : Exec σ Unit) :=
  keeps_modify fun m => GrowthBlind.of_onlyGrowth ⟨rfl, rfl, rfl, rfl, .refl m.heap⟩

theorem keeps_push (item : Item) : Keeps R (push item : Exec σ Unit) := keeps_modifyStack _

theorem keeps_pushBytes (b : Bytes) : Keeps R (pushBytes b : Exec σ Unit) := keeps_push _

theorem keeps_pushInt (v : Int) : Keeps R (pushInt v : Exec σ Unit) := keeps_push _

theorem keeps_pushBool (b : Bool) : Keeps R (pushBool b : Exec σ Unit) := keeps_push _

theorem keeps_pop : Keeps R (pop : Exec σ Item) :=
  keeps_get.bind fun _ => (keeps_liftStack _).bind fun _ =>
    (keeps_modifyStack _).bind fun _ => keeps_pure _

theorem keeps_popBytes : Keeps R (popBytes : Exec σ Bytes) :=
  keeps_pop.bind fun _ => keeps_liftItem _

theorem keeps_popInt : Keeps R (popInt : Exec σ Int) :=
  keeps_pop.bind fun _ => keeps_liftItem _

theorem keeps_popBool : Keeps R (popBool : Exec σ Bool) :=
  keeps_pop.bind fun _ => keeps_pure _

theorem keeps_popIndex : Keeps R (popIndex : Exec σ Nat) :=
  keeps_popInt.bind fun _ => (keeps_fail _).guarded fun _ => keeps_pure _

theorem keeps_peek (n : Nat) : Keeps R (peek n : Exec σ Item) :=
  keeps_get.bind fun _ => keeps_liftStack _

theorem keeps_remove (n : Nat) : Keeps R (remove n : Exec σ Item) :=
  keeps_get.bind fun _ => (keeps_liftStack _).bind fun _ =>
    (keeps_modifyStack _).bind fun _ => keeps_pure _

theorem keeps_insert (n : Nat) (item : Item) : Keeps R (insert n item : Exec σ Unit) :=
  keeps_get.bind fun _ => (keeps_liftStack _).bind fun _ => keeps_modifyStack _

theorem keeps_replace (n : Nat) (item : Item) : Keeps R (replace n item : Exec σ Unit) :=
  keeps_get.bind fun _ => (keeps_liftStack _).bind fun _ => keeps_modifyStack _

/-! ### The collections -/

/-- A heap may grow. -/
theorem keeps_onHeap_of_grows {f : Heap → Heap × α} (h : ∀ heap : Heap, heap.Grows (f heap).1) :
    Keeps R (onHeap f : Exec σ α) := fun m =>
  GrowthBlind.of_onlyGrowth ⟨rfl, rfl, rfl, rfl, h m.heap⟩

theorem keeps_pushSequence (kind : SequenceKind) (items : List Item) :
    Keeps R (pushSequence kind items : Exec σ Unit) :=
  (keeps_onHeap_of_grows fun heap => .makeSequence heap kind items).bind fun _ => keeps_push _

theorem keeps_pushMap (entries : Entries) : Keeps R (pushMap entries : Exec σ Unit) :=
  (keeps_onHeap_of_grows fun heap => .makeMap heap entries).bind fun _ => keeps_push _

section

omit [GrowthBlind R]
variable [ItemBlind R]

/-- A change of the heap that leaves the objects alone moves only items. -/
theorem keeps_onHeap {f : Heap → Heap × α} (h : ∀ heap, (f heap).1.objects = heap.objects) :
    Keeps R (onHeap f : Exec σ α) := fun m =>
  ItemBlind.of_onlyItems ⟨rfl, rfl, rfl, rfl, h m.heap⟩

theorem keeps_modifyHeap {f : Heap → Heap} (h : ∀ heap, (f heap).objects = heap.objects) :
    Keeps R (modifyHeap f : Exec σ Unit) :=
  keeps_onHeap h

theorem keeps_setElements (s : Sequence) (items : List Item) :
    Keeps R (modifyHeap (·.setElements s items) : Exec σ Unit) :=
  keeps_modifyHeap fun heap => heap.objects_setElements s items

end

end Exec

end DryRun
