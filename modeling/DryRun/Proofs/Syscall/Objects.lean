import DryRun.Proofs.Syscall.Calls
import DryRun.Proofs.Syscall.Charge

/-!
# What a step does to objects

Objects are made and stay.  Only two calls change an object that is there, and only a few others
make iterators; all other steps leave the objects alone, but for making some that are no iterators
(`Heap.Quiet`).  `Machine.Step.touches` says so: it lists what a step can do to objects, and what
is said of iterators and of assets later is read off this list.

* `Machine.moves?` — the iterator that is moved in the next step.
* `Machine.renewal?` — the asset that is renewed in the next step, and for how many years.
* `Step.forward` — a step moves iterators forward only.
* `Step.moved` — what a step does that moves an iterator.
* `Step.grounded` — iterators stay built from older ones.
* `Step.iterator?` — a step that moves no iterator does nothing to those that there are.
-/

set_option autoImplicit false

namespace DryRun

open Machine (Begins ContractBlind CreationBlind GrantBlind GrowthBlind OnlyItems Outward QueryBlind
  Step)

variable {setting : Setting} {limit : GasLimit} {m m₁ m₂ m' : Machine World}

/-! ## Objects that stay -/

namespace Heap

variable {a b c heap : Heap} {id : Nat}

/-- Objects other than iterators were made, and nothing was done to those that there were. -/
structure Quiet (a b : Heap) : Prop where
  /-- What there was is the same. -/
  old : ∀ (id : Nat) object, a.objects[id]? = some object → b.objects[id]? = some object
  /-- The iterators are those that there were. -/
  new : ∀ (id : Nat) it, b.objects[id]? = some (.iterator it) → a.objects[id]? = some (.iterator it)

namespace Quiet

theorem of_objects (h : b.objects = a.objects) : Quiet a b :=
  ⟨fun id object found => by rwa [h], fun id it found => by rwa [← h]⟩

theorem trans (h : Quiet a b) (k : Quiet b c) : Quiet a c :=
  ⟨fun id object found => k.old id object (h.old id object found),
    fun id it found => h.new id it (k.new id it found)⟩

/-- Making an object that is no iterator. -/
theorem makeObject {object : Object} (other : ∀ it, object ≠ .iterator it) (heap : Heap) :
    Quiet heap (heap.makeObject object).1 where
  old id object' found := by
    have inside := (Array.getElem?_eq_some_iff.1 found).1
    show (heap.objects.push object)[id]? = _
    rw [Array.getElem?_push, if_neg (Nat.ne_of_lt inside), found]
  new id it found := by
    rw [Heap.makeObject, Array.getElem?_push] at found
    split at found
    · cases found
      exact absurd rfl (other it)
    · exact found

theorem iterator? (h : Quiet a b) (id : Nat) : b.iterator? id = a.iterator? id := by
  cases found : a.iterator? id with
  | some it => exact iterator?_of_objects (h.old id _ (objects_of_iterator? found))
  | none =>
    cases found' : b.iterator? id with
    | none => rfl
    | some it =>
      rw [iterator?_of_objects (h.new id it (objects_of_iterator? found'))] at found
      cases found

end Quiet

/-- An iterator was made, from iterators that there were. -/
structure Gains (it : Iterator) (a b : Heap) : Prop where
  /-- What it is built from. -/
  parts : ∀ part ∈ it.parts, ∃ it', a.iterator? part = some it'
  /-- It has the next number, and nothing else was done. -/
  objects : b.objects = a.objects.push (.iterator it)

/-- Renewing an asset does nothing to iterators. -/
theorem iterator?_setAsset {asset : Asset} (there : heap.objects[id]? = some (.asset asset))
    (renewed : Asset) (other : Nat) :
    (heap.setObject id (.asset renewed)).iterator? other = heap.iterator? other := by
  by_cases same : id = other
  · subst same
    have inside := (Array.getElem?_eq_some_iff.1 there).1
    rw [iterator?, iterator?, there, setObject, Array.getElem?_setIfInBounds_self, if_pos inside]
  · refine iterator?_congr ?_
    show (heap.objects.setIfInBounds id _)[other]? = _
    rw [Array.getElem?_setIfInBounds_ne same]

end Heap

namespace Machine

/-- Nothing was done to the objects, but that some were made that are no iterators. -/
def Quiet (m m' : Machine World) : Prop := m.heap.Quiet m'.heap

instance : Outward Quiet where
  trans := Heap.Quiet.trans
  of_same _ objects := .of_objects objects

instance : CreationBlind Quiet where
  announced _ := Exec.keeps_modify fun _ => .of_objects rfl
  made plain m := .makeObject (fun _ same => by subst same; exact plain) m.heap

instance (height : Nat) : QueryBlind height Quiet where
  asked _ _ _ _ := Exec.keeps_asking _ fun _ _ => .of_objects rfl

instance : ContractBlind Quiet where
  stored _ _ := .of_objects rfl
  deployed _ _ _ _ := .of_objects rfl
  destroyed _ _ := .of_objects rfl

instance : GrantBlind Quiet where
  granted context m := .makeObject (fun _ same => by cases same) m.heap

theorem OnlyItems.quiet (h : OnlyItems m m') : Quiet m m' := .of_objects h.objects

end Machine

/-! ## Popping iterators -/

theorem Object.whole_iterator (it : Iterator) : (Object.iterator it).Whole := by
  intro owner part
  rw [part?.eq_def]
  split <;> simp

namespace Exec

variable {heap : Heap} {keyed : Bool} {id : Nat} {it : Iterator} {rest : List Item}

/-- What is popped is an iterator that there is, with keys if they are asked for. -/
theorem takes_popIterator (keyed : Bool) :
    Takes heap (fun operands id => ∃ handle it, operands = [.handle handle] ∧ handle.root = id ∧
      heap.iterator? id = some it ∧ (keyed = true → it.hasKeys = true)) (popIterator keyed) := by
  refine (takes_popHandle _ _).bind fun found operands ⟨same, selected⟩ => takes_pure ?_
  obtain ⟨object, behind, selected⟩ := Option.bind_eq_some_iff.1 selected
  subst same
  cases object with
  | iterator it =>
    have there := Heap.objects_of_object? (Object.whole_iterator it) behind
    refine ⟨found.1, it, rfl, rfl, Heap.iterator?_of_objects there, fun asked => ?_⟩
    subst asked
    cases has : it.hasKeys with
    | true => rfl
    | false => simp [has] at selected
  | _ => cases selected

theorem exists_of_popIterator (popped : popIterator keyed m = .ok id m') :
    ∃ it rest, m.heap.iterator? id = some it ∧ m' = m.withItems rest := by
  obtain ⟨-, rest, -, ⟨-, it, -, -, found, -⟩, left⟩ := takes_popIterator keyed m id m' rfl popped
  exact ⟨it, rest, found, left⟩

/-- An iterator that lies on top of the stack is popped. -/
theorem popIterator_of_items (items : m.stack.items = .handle ⟨id, []⟩ :: rest)
    (found : m.heap.iterator? id = some it) (keys : keyed = true → it.hasKeys = true) :
    popIterator keyed m = .ok id (m.withItems rest) := by
  have behind : m.heap.object? ⟨id, []⟩ = some (.iterator it) := Heap.objects_of_iterator? found
  have selected : (if keyed && !it.hasKeys then none else some it) = some it := by
    rw [if_neg]
    cases keyed with
    | false => nofun
    | true => simp [keys rfl]
  rw [popIterator, bind_eq, popHandle, bind_eq, pop_of_items items]
  dsimp only
  rw [get_bind, Machine.heap_withItems, behind, Option.bind_some]
  dsimp only
  rw [selected]
  rfl

/-! ## Calls on iterators -/

theorem iterator_next_eq (popped : popIterator false m = .ok id m₁) :
    iterator .next m = .ok () { m₁ with
      heap := (m₁.heap.advance id).1
      stack := m₁.stack.push (.ofBool (m₁.heap.advance id).2) } := by
  rw [iterator, bind_eq, popped]
  rfl

/-- Pushing a new iterator. -/
theorem wp_pushIterator {a b : Machine World} (items : OnlyItems a b)
    (parts : ∀ part ∈ it.parts, ∃ it', a.heap.iterator? part = some it') :
    wp (pushObject (.iterator it)) (fun _ m' => a.heap.Gains it m'.heap)
      (Machine.Quiet a) b := by
  refine ⟨parts, ?_⟩
  rw [← items.objects]

theorem wp_popIterator (keyed : Bool) (a b : Machine World) (items : OnlyItems a b) :
    wp (popIterator keyed) (fun id m' => OnlyItems a m' ∧ ∃ it, a.heap.iterator? id = some it)
      (OnlyItems a) b := by
  rw [wp]
  have kept : Keeps OnlyItems (popIterator keyed) := keeps_popIterator keyed
  cases popped : popIterator keyed b with
  | ok id m' =>
    obtain ⟨it, rest, found, -⟩ := exists_of_popIterator popped
    refine ⟨items.trans (kept.ok popped), it, ?_⟩
    rwa [← Heap.iterator?_congr (by rw [items.objects])]
  | error fault m' => exact items.trans (kept.error popped)

/-- **Making an iterator** makes one that is built from those that there are. -/
theorem wp_makeIterator {call : IteratorCall} (makes : (Syscall.iterator call).changesObject = true)
    (other : call ≠ .next) (m : Machine World) :
    wp (iterator call) (fun _ m' => ∃ it, m.heap.Gains it m'.heap) (Machine.Quiet m) m := by
  have refl := OnlyItems.refl m
  have create (walk : Heap → Item → Except ItemFault Iterator)
      (starts : ∀ heap item it, walk heap item = .ok it → it.parts = []) :
      wp (do
        let item ← pop
        pushObject (.iterator (← walk (← get).heap item)))
        (fun _ m' => ∃ it, m.heap.Gains it m'.heap) (Machine.Quiet m) m := by
    refine wp_bind.2 ((keeps_pop (R := OnlyItems) m).mono ?_ fun _ items => items.quiet)
    intro item m₁ items
    refine wp_get_bind.2 ?_
    cases walks : walk m₁.heap item with
    | error cause => exact items.quiet
    | ok it =>
      refine (wp_pushIterator items fun part mem => ?_).mono (fun _ m' gains => ⟨it, gains⟩)
        fun _ quiet => quiet
      rw [starts _ _ _ walks] at mem
      cases mem
  have concat (keyed : Bool) : wp (concatIterators keyed)
      (fun _ m' => ∃ it, m.heap.Gains it m'.heap) (Machine.Quiet m) m := by
    refine wp_bind.2 ((wp_popIterator keyed m m refl).mono ?_ fun _ items => items.quiet)
    rintro first m₁ ⟨items, one⟩
    refine wp_bind.2 ((wp_popIterator keyed m m₁ items).mono ?_ fun _ items => items.quiet)
    rintro second m₂ ⟨items, two⟩
    refine (wp_pushIterator items ?_).mono (fun _ m' gains => ⟨_, gains⟩) fun _ quiet => quiet
    intro part mem
    rcases List.mem_cons.1 mem with rfl | mem
    · exact one
    · cases List.mem_singleton.1 mem
      exact two
  have view (wrap : Nat → Iterator) (parts : ∀ id, (wrap id).parts = [id]) :
      wp (do pushObject (.iterator (wrap (← popIterator true))))
        (fun _ m' => ∃ it, m.heap.Gains it m'.heap) (Machine.Quiet m) m := by
    refine wp_bind.2 ((wp_popIterator true m m refl).mono ?_ fun _ items => items.quiet)
    rintro id m₁ ⟨items, there⟩
    refine (wp_pushIterator items fun part mem => ?_).mono (fun _ m' gains => ⟨_, gains⟩)
      fun _ quiet => quiet
    rw [parts] at mem
    cases List.mem_singleton.1 mem
    exact there
  cases call with
  | createEnumerator =>
    refine create Heap.enumerate fun heap item it walks => ?_
    cases item <;> cases walks
    rfl
  | createIterator =>
    refine create Heap.iterate fun heap item it walks => ?_
    cases item <;> cases walks <;> rfl
  | next => exact absurd rfl other
  | concatEnumerators => exact concat false
  | concatIterators => exact concat true
  | keys => exact view .keys fun _ => rfl
  | values => exact view .values fun _ => rfl
  | value | key => cases makes

/-! ## Renewals -/

/-- A renewal that fails has renewed nothing. -/
theorem wp_renewAsset (m : Machine World) :
    wp (renewAsset setting) (fun _ _ => True) (Machine.Quiet m) m := by
  refine wp_bind.2 ((keeps_popHandle (R := OnlyItems) _ _ m).mono ?_ fun _ items => items.quiet)
  rintro ⟨handle, asset⟩ m₁ items
  refine wp_bind.2 ((keeps_popInt (R := OnlyItems) m₁).mono ?_
    fun _ more => (items.trans more).quiet)
  intro years m₂ more
  dsimp only
  split
  · exact (items.trans more).quiet
  · exact trivial

end Exec

/-! ## Steps -/

namespace Machine

section

variable (setting : Setting) (limit : GasLimit)

/-- The iterator that is moved in the next step, if one is. -/
def moves? (m : Machine World) : Option Nat :=
  match m.call? setting limit with
  | some (.iterator .next, m₁) =>
    match Exec.popIterator false m₁ with
    | .ok id _ => some id
    | .error _ _ => none
  | _ => none

/-- The object of an asset that is renewed in the next step, and for how many years, if one is. -/
def renewal? (m : Machine World) : Option (Nat × Nat) :=
  match m.call? setting limit with
  | some (.asset .renew, m₁) =>
    match Exec.renewAsset setting m₁, m₁.stack.items with
    | .ok _ _, .handle handle :: years :: _ =>
      match years.toInt with
      | .ok years => some (handle.root, years.toNat)
      | .error _ => none
    | _, _ => none
  | _ => none

/-- What a step can do to objects. -/
inductive Touches (m m' : Machine World) : Prop where
  /-- Nothing is done to those that there are, and none that is made is an iterator. -/
  | quiet (still : m.moves? setting limit = none) (lasts : m.renewal? setting limit = none)
    (quiet : m.heap.Quiet m'.heap)
  /-- An iterator is made. -/
  | makes {it : Iterator} (still : m.moves? setting limit = none)
    (lasts : m.renewal? setting limit = none) (gains : m.heap.Gains it m'.heap)
  /-- An iterator is moved, and it is said whether it stands on an entry then. -/
  | moves {id : Nat} {rest : List Item} (moves : m.moves? setting limit = some id)
    (lasts : m.renewal? setting limit = none) (there : ∃ it, m.heap.iterator? id = some it)
    (heap : m'.heap = (m.heap.advance id).1)
    (items : m'.stack.items = .ofBool (m.heap.advance id).2 :: rest)
  /-- An asset is renewed, and it is said how long it lasts then. -/
  | renews {id years : Nat} {asset : Asset} {rest : List Item}
    (still : m.moves? setting limit = none)
    (renewal : m.renewal? setting limit = some (id, years)) (few : years ≤ 255)
    (there : m.heap.objects[id]? = some (.asset asset))
    (heap : m'.heap = m.heap.setObject id (.asset (asset.renew setting.height years)))
    (items : m'.stack.items =
      .ofInt (asset.renew setting.height years).expiration.toNat :: rest)

end

theorem Touches.of_same {m'' : Machine World} (h : Touches setting limit m m')
    (heap : m''.heap = m'.heap) (stack : m''.stack = m'.stack) : Touches setting limit m m'' := by
  cases h with
  | quiet still lasts quiet => exact .quiet still lasts (by rwa [heap])
  | makes still lasts gains => exact .makes still lasts (by rwa [heap])
  | moves moves lasts there heap' items =>
    exact .moves moves lasts there (heap.trans heap') (by rwa [stack])
  | renews still renewal few there heap' items =>
    exact .renews still renewal few there (heap.trans heap') (by rwa [stack])

variable {call : Syscall}

theorem moves?_of_call? (h : m.call? setting limit = some (call, m₁))
    (other : call ≠ .iterator .next) : m.moves? setting limit = none := by
  rw [moves?, h]
  split
  · next same =>
    cases same
    exact absurd rfl other
  · rfl

theorem renewal?_of_call? (h : m.call? setting limit = some (call, m₁))
    (other : call ≠ .asset .renew) : m.renewal? setting limit = none := by
  rw [renewal?, h]
  split
  · next same =>
    cases same
    exact absurd rfl other
  · rfl

/-- What moving an iterator does. -/
theorem touches_next (h : m.call? setting limit = some (.iterator .next, m₁)) :
    Exec.wp (Exec.iterator .next) (fun _ => Touches setting limit m) (Touches setting limit m)
      m₁ := by
  have lasts : m.renewal? setting limit = none := renewal?_of_call? h nofun
  have begins := begins_of_call? h
  cases popped : Exec.popIterator false m₁ with
  | ok id m₂ =>
    have moves : m.moves? setting limit = some id := by
      rw [moves?, h]
      dsimp only
      rw [popped]
    rw [Exec.wp, Exec.iterator_next_eq popped]
    obtain ⟨it, rest, found, rfl⟩ := Exec.exists_of_popIterator popped
    rw [begins.heap] at found
    have items : (.ofBool (m.heap.advance id).2 :: rest) =
        ((m₁.withItems rest).stack.push (.ofBool (m₁.heap.advance id).2)).items := by
      rw [begins.heap]
      rfl
    exact .moves moves lasts ⟨it, found⟩ (by rw [← begins.heap]; rfl) items.symm
  | error fault m₂ =>
    have still : m.moves? setting limit = none := by
      rw [moves?, h]
      dsimp only
      rw [popped]
    have items : OnlyItems m₁ m₂ := (Exec.keeps_popIterator false).error popped
    refine Exec.wp_bind.2 ?_
    rw [Exec.wp, popped]
    refine .quiet still lasts ?_
    rw [← begins.heap]
    exact items.quiet

/-- What a renewal does. -/
theorem touches_renew (h : m.call? setting limit = some (.asset .renew, m₁)) :
    Exec.wp (Exec.renewAsset setting) (fun _ => Touches setting limit m)
      (Touches setting limit m) m₁ := by
  have still : m.moves? setting limit = none := moves?_of_call? h nofun
  have begins := begins_of_call? h
  rw [Exec.wp]
  cases renewed : Exec.renewAsset setting m₁ with
  | ok u m₂ =>
    obtain ⟨handle, asset, yearsItem, years, rest, items, found, read, few, heap, pushed⟩ :=
      Exec.renewAsset_eq_ok renewed
    have renewal : m.renewal? setting limit = some (handle.root, years) := by
      rw [renewal?, h]
      dsimp only
      rw [renewed, items]
      dsimp only
      rw [read]
      rfl
    rw [begins.heap] at found heap
    exact .renews still renewal few (Heap.objects_of_object? (Object.whole_asset asset) found) heap
      pushed
  | error fault m₂ =>
    have lasts : m.renewal? setting limit = none := by
      rw [renewal?, h]
      dsimp only
      rw [renewed]
    refine .quiet still lasts ?_
    rw [← begins.heap]
    exact (Exec.wp_renewAsset m₁).error renewed

/-- **What a step can do to objects.** -/
theorem Step.touches (step : Step (setting.host limit) m m') : Touches setting limit m m' := by
  cases made : m.call? setting limit with
  | none =>
    refine .quiet (by rw [moves?, made]) (by rw [renewal?, made]) ?_
    exact step.keeps_of_call?_eq_none (R := Quiet) made fun name => Exec.keeps_findCallee name
  | some found =>
    obtain ⟨call, m₁⟩ := found
    have begins := begins_of_call? made
    refine step.of_call? made (P := Touches setting limit m) ?_ fun m₂ fault h => h.of_same rfl rfl
    cases changes : call.changesObject with
    | false =>
      have still : m.moves? setting limit = none :=
        moves?_of_call? made fun same => by subst same; cases changes
      have lasts : m.renewal? setting limit = none :=
        renewal?_of_call? made fun same => by subst same; cases changes
      have kept := Syscall.keeps_run_of_changes_no_object (R := Quiet) setting changes m₁
      have quiet (m₂ : Machine World) (h : Quiet m₁ m₂) : Touches setting limit m m₂ :=
        .quiet still lasts (by rw [← begins.heap]; exact h)
      exact kept.mono (fun _ => quiet) quiet
    | true =>
      cases call with
      | asset call =>
        cases call with
        | renew => exact touches_renew made
        | _ => cases changes
      | iterator call =>
        by_cases next : call = .next
        · subst next
          exact touches_next made
        · have still : m.moves? setting limit = none :=
            moves?_of_call? made fun same => next (by cases same; rfl)
          have lasts : m.renewal? setting limit = none := renewal?_of_call? made nofun
          refine (Exec.wp_makeIterator changes next m₁).mono ?_ fun m₂ quiet => ?_
          · rintro _ m₂ ⟨it, gains⟩
            exact .makes still lasts (by rwa [← begins.heap])
          · refine .quiet still lasts ?_
            rw [← begins.heap]
            exact quiet
      | _ => cases changes

/-! ## Iterators in a step -/

/-- **A step that moves no iterator** does nothing to those that there are. -/
theorem Step.iterator? (step : Step (setting.host limit) m m')
    (still : m.moves? setting limit = none) {id : Nat} {it : Iterator}
    (found : m.heap.iterator? id = some it) : m'.heap.iterator? id = some it := by
  cases step.touches with
  | quiet _ _ quiet => rwa [quiet.iterator?]
  | makes _ _ gains =>
    rwa [Heap.iterator?_of_push gains.objects,
      if_neg (Nat.ne_of_lt (Heap.lt_size_of_iterator? found))]
  | moves moves => cases still.symm.trans moves
  | renews _ _ _ there heap _ => rwa [heap, Heap.iterator?_setAsset there]

/-- **A step that moves an iterator** says whether it stands on an entry then. -/
theorem Step.moved (step : Step (setting.host limit) m m') {id : Nat}
    (moves : m.moves? setting limit = some id) :
    (∃ it, m.heap.iterator? id = some it) ∧ m'.heap = (m.heap.advance id).1 ∧
      ∃ rest, m'.stack.items = .ofBool (m.heap.advance id).2 :: rest := by
  cases step.touches with
  | moves moves' _ there heap items =>
    cases moves.symm.trans moves'
    exact ⟨there, heap, _, items⟩
  | quiet still | makes still | renews still => cases still.symm.trans moves

/-- **Iterators move forward.** -/
theorem Step.forward (step : Step (setting.host limit) m m') : m.heap.Forward m'.heap := by
  cases moves : m.moves? setting limit with
  | none => exact fun id it found => ⟨it, step.iterator? moves found, .refl it⟩
  | some id =>
    rw [(step.moved moves).2.1]
    exact .advance m.heap id

/-- **Iterators stay built from older ones.** -/
theorem Step.grounded (step : Step (setting.host limit) m m') (h : m.heap.Grounded) :
    m'.heap.Grounded := by
  have forward := step.forward
  cases step.touches with
  | quiet _ _ quiet =>
    exact h.of_forward forward fun id it found => ⟨it, by rwa [← quiet.iterator?]⟩
  | @makes it _ _ gains =>
    have new := Heap.iterator?_of_push gains.objects
    intro id it' found part mem
    rw [new] at found
    obtain ⟨below, old, there⟩ : part < id ∧ ∃ old, m.heap.iterator? part = some old := by
      split at found
      · next same =>
        cases found
        obtain ⟨old, there⟩ := gains.parts part mem
        exact ⟨same ▸ Heap.lt_size_of_iterator? there, old, there⟩
      · exact h id it' found part mem
    refine ⟨below, old, ?_⟩
    rwa [new, if_neg (Nat.ne_of_lt (Heap.lt_size_of_iterator? there))]
  | @moves id _ _ _ _ heap _ =>
    rw [heap]
    exact h.advanceWithin (id + 1) id
  | renews _ _ _ there heap _ =>
    exact h.of_forward forward fun id it found =>
      ⟨it, by rwa [heap, Heap.iterator?_setAsset there] at found⟩

end Machine

end DryRun
