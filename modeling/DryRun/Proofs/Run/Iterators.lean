import DryRun.Proofs.Heap.Walk
import DryRun.Proofs.Run.Order
import DryRun.Proofs.Syscall.Objects

/-!
# Iterators in a run

A script makes an iterator from a collection and builds others from it, at any depth.  What it walks
over is settled when the walks begin: what is done to the collections later does not matter.
`Built run t asm` says that at the time `t` of a run the last part of an assembly has just been
made, and that nothing that any of its parts is in was moved before.

As long as nothing is moved but the whole, all parts are where its moves have brought them
(`Assembly.Stands.runFor`), and that is all that the answers depend on.  `iterators_walk_in_order`
says what they are.  Where parts are used twice one thing remains: an iterator that has come to its
end stays there.
-/

set_option autoImplicit false

namespace DryRun

open Machine (Step)

variable {setting : Setting} {limit : GasLimit} {m : Machine World}

/-! ## Calls on iterators -/

namespace Machine

/-- The next step makes a call on iterators, and these are its operands. -/
def Iterates (setting : Setting) (limit : GasLimit) (m : Machine World) (call : IteratorCall)
    (operands rest : List Item) : Prop :=
  (∃ m₁, m.call? setting limit = some (.iterator call, m₁)) ∧ m.stack.items = operands ++ rest

/-- The run goes on with an item on top of the stack. -/
structure GoesOn (m : Machine World) (item : Item) (rest : List Item) : Prop where
  /-- The item. -/
  items : m.stack.items = item :: rest
  /-- The run goes on. -/
  running : m.status = .running

/-- While the machine is running, there are no more items on the stacks than there may be. -/
def HasRoom (m : Machine World) : Prop :=
  m.status = .running → m.stack.depth + m.alt.depth ≤ maxStackItems

section

variable {call : IteratorCall} {operands rest : List Item} {item : Item}

/-- A call that leaves an item in place of its operands. -/
theorem Iterates.goesOn (h : m.Iterates setting limit call operands rest) (room : m.HasRoom)
    (taken : operands ≠ []) (heap : Heap)
    (done : ∀ m₁ : Machine World, m₁.heap = m.heap → m₁.stack.items = operands ++ rest →
      Exec.iterator call m₁ = .ok () { m₁.withItems (item :: rest) with heap }) :
    (m.step (setting.host limit)).GoesOn item rest ∧
      (m.step (setting.host limit)).heap = heap := by
  obtain ⟨⟨m₁, made⟩, items⟩ := h
  have begins := begins_of_call? made
  have run : (Syscall.iterator call).run setting m₁ = _ :=
    done m₁ begins.heap (by rw [begins.stack, items])
  have fits : ¬ (item :: rest).length + m₁.alt.depth > maxStackItems := by
    have before := room begins.executes.1
    have some := List.length_pos_iff.2 taken
    rw [Stack.depth, items, List.length_append] at before
    rw [begins.alt, List.length_cons]
    omega
  rw [step_of_call? made, run]
  dsimp only
  rw [if_neg (by exact fits)]
  have running := status_of_call? made
  exact ⟨⟨rfl, running⟩, rfl⟩

/-- **A call that makes an iterator** leaves a handle to it. -/
theorem Iterates.makes (h : m.Iterates setting limit call operands rest) (room : m.HasRoom)
    (taken : operands ≠ []) (it : Iterator)
    (made : ∀ m₁ : Machine World, m₁.heap = m.heap → m₁.stack.items = operands ++ rest →
      Exec.iterator call m₁ = Exec.pushObject (.iterator it) (m₁.withItems rest)) :
    (m.step (setting.host limit)).GoesOn (.handle ⟨m.heap.objects.size, []⟩) rest ∧
      (m.step (setting.host limit)).heap.objects = m.heap.objects.push (.iterator it) := by
  have done (m₁ : Machine World) (same : m₁.heap = m.heap)
      (items : m₁.stack.items = operands ++ rest) : Exec.iterator call m₁ =
        .ok () { m₁.withItems (.handle ⟨m.heap.objects.size, []⟩ :: rest) with
          heap := (m.heap.makeObject (.iterator it)).1 } := by
    rw [made m₁ same items, ← same]
    rfl
  obtain ⟨goesOn, heap⟩ := h.goesOn room taken _ done
  exact ⟨goesOn, by rw [heap]; rfl⟩

/-- A call that fails. -/
theorem Iterates.fails (h : m.Iterates setting limit call operands rest) {fault : Fault}
    (failed : ∀ m₁ : Machine World, m₁.heap = m.heap → m₁.stack.items = operands ++ rest →
      ∃ m₂, Exec.iterator call m₁ = .error fault m₂) :
    (m.step (setting.host limit)).status = .faulted fault := by
  obtain ⟨⟨m₁, made⟩, items⟩ := h
  have begins := begins_of_call? made
  obtain ⟨m₂, run⟩ := failed m₁ begins.heap (by rw [begins.stack, items])
  have run : (Syscall.iterator call).run setting m₁ = _ := run
  rw [step_of_call? made, run]
  rfl

end

end Machine

namespace Exec

variable {m₁ : Machine World} {rest : List Item} {id : Nat} {it : Iterator}

/-- A walk over a sequence. -/
theorem createSequence_eq {call : IteratorCall} {s : Sequence}
    (creates : call = .createEnumerator ∨ call = .createIterator)
    (items : m₁.stack.items = .seq s :: rest) :
    iterator call m₁ =
      pushObject (.iterator (.ofElements (m₁.heap.elements s))) (m₁.withItems rest) := by
  rcases creates with rfl | rfl
  · rw [iterator, bind_eq, pop_of_items items]
    rfl
  · rw [iterator, bind_eq, pop_of_items items]
    rfl

/-- A walk over a map. -/
theorem createMap_eq (items : m₁.stack.items = .map id :: rest) :
    iterator .createIterator m₁ =
      pushObject (.iterator (.ofEntries (m₁.heap.entries id))) (m₁.withItems rest) := by
  rw [iterator, bind_eq, pop_of_items items]
  rfl

/-- One walk after another. -/
theorem concatIterators_eq {keyed : Bool} {first second : Nat} {it₁ it₂ : Iterator}
    (items : m₁.stack.items = .handle ⟨first, []⟩ :: .handle ⟨second, []⟩ :: rest)
    (found₁ : m₁.heap.iterator? first = some it₁) (found₂ : m₁.heap.iterator? second = some it₂)
    (keys₁ : keyed = true → it₁.hasKeys = true) (keys₂ : keyed = true → it₂.hasKeys = true) :
    concatIterators keyed m₁ =
      pushObject (.iterator (.concat keyed first second false)) (m₁.withItems rest) := by
  have next : popIterator keyed (m₁.withItems (.handle ⟨second, []⟩ :: rest)) =
      .ok second (m₁.withItems rest) := popIterator_of_items rfl found₂ keys₂
  rw [concatIterators, bind_eq, popIterator_of_items items found₁ keys₁]
  dsimp only
  rw [bind_eq, next]

/-- The keys or the values of another. -/
theorem viewIterator_eq (wrap : Nat → Iterator)
    (items : m₁.stack.items = .handle ⟨id, []⟩ :: rest)
    (found : m₁.heap.iterator? id = some it) (keys : it.hasKeys = true) :
    (do pushObject (.iterator (wrap (← popIterator true))) : Exec World Unit) m₁ =
      pushObject (.iterator (wrap id)) (m₁.withItems rest) := by
  rw [bind_eq, popIterator_of_items items found fun _ => keys]

/-- Reading from an iterator. -/
theorem readIterator_eq {keyed : Bool} (read : Heap → Nat → Except ItemFault Item)
    (items : m₁.stack.items = .handle ⟨id, []⟩ :: rest)
    (found : m₁.heap.iterator? id = some it) (keys : keyed = true → it.hasKeys = true) :
    (do
      let id ← popIterator keyed
      push (← read (← get).heap id) : Exec World Unit) m₁ =
      match read m₁.heap id with
      | .ok item => .ok () (m₁.withItems (item :: rest))
      | .error cause => .error (.item cause) (m₁.withItems rest) := by
  rw [bind_eq, popIterator_of_items items found keys]
  dsimp only
  rw [get_bind, Machine.heap_withItems]
  cases read m₁.heap id with
  | ok item => rfl
  | error cause => rfl

end Exec

/-! ## Assemblies in a run -/

/-- The next step moves nothing that a part of the assembly is in. -/
def Machine.LetsBe (setting : Setting) (limit : GasLimit) (m : Machine World) (asm : Assembly) :
    Prop :=
  ∀ id, m.moves? setting limit = some id → ∀ i ∈ asm.ids, ¬ m.heap.Involves id i

/-- **A step that moves nothing else** brings an assembly to where the moves of the whole bring
it. -/
theorem Assembly.Stands.step {m' : Machine World} {asm : Assembly} {k : Nat}
    (h : asm.Stands m.heap k) (sound : asm.Sound) (step : Step (setting.host limit) m m')
    (alone : m.moves? setting limit = some asm.root ∨ m.LetsBe setting limit asm) :
    asm.Stands m'.heap (k + if m.moves? setting limit = some asm.root then 1 else 0) := by
  cases moves : m.moves? setting limit with
  | none =>
    rw [if_neg nofun]
    refine h.congr fun i mem => ?_
    obtain ⟨it, found⟩ := h.exists_of_mem i mem
    rw [found]
    exact step.iterator? moves found
  | some id =>
    have heap := (step.moved moves).2.1
    by_cases whole : id = asm.root
    · subst whole
      rw [if_pos rfl, heap]
      exact (h.advance sound).stands
    · rw [if_neg fun same => whole (Option.some.inj same), heap]
      refine h.congr fun i mem => Heap.advance_of_not_involves ?_
      rcases alone with alone | letsBe
      · exact absurd (Option.some.inj (moves.symm.trans alone)) whole
      · exact letsBe id moves i mem

section

variable (setting : Setting) (limit : GasLimit) (run : Nat → Machine World)

/-- How often an iterator is moved in some steps from a time on. -/
def moveCount (id t : Nat) : Nat → Nat
  | 0 => 0
  | n + 1 => moveCount id t n + if (run (t + n)).moves? setting limit = some id then 1 else 0

/-- At some time of a run an assembly has just been built, and nothing that a part of it is in was
moved before. -/
inductive Built : Nat → Assembly → Prop where
  /-- A walk over the elements of a sequence.  The keys are the positions. -/
  | sequence {t : Nat} {call : IteratorCall} {s : Sequence} {rest : List Item}
    (creates : call = .createEnumerator ∨ call = .createIterator)
    (called : (run t).Iterates setting limit call [.seq s] rest) :
    Built (t + 1) (.walk (run t).heap.objects.size .sequence
      (((run t).heap.elements s).zipIdx.map fun (item, i) => (.ofInt i, item)))
  /-- A walk over the entries of a map. -/
  | map {t id : Nat} {rest : List Item}
    (called : (run t).Iterates setting limit .createIterator [.map id] rest) :
    Built (t + 1) (.walk (run t).heap.objects.size .map
      (((run t).heap.entries id).rows.map fun (key, value) => (.prim key, value)))
  /-- One after another. -/
  | concat {t t₁ t₂ : Nat} {keyed : Bool} {first second : Assembly} {rest : List Item}
    (built₁ : Built t₁ first) (before₁ : t₁ ≤ t)
    (rests₁ : ∀ k, t₁ ≤ k → k < t → (run k).LetsBe setting limit first)
    (built₂ : Built t₂ second) (before₂ : t₂ ≤ t)
    (rests₂ : ∀ k, t₂ ≤ k → k < t → (run k).LetsBe setting limit second)
    (apart : ∀ i ∈ first.ids, i ∉ second.ids)
    (keys : keyed = true → first.hasKeys = true ∧ second.hasKeys = true)
    (called : (run t).Iterates setting limit
      (if keyed then .concatIterators else .concatEnumerators)
      [.handle ⟨first.root, []⟩, .handle ⟨second.root, []⟩] rest) :
    Built (t + 1) (.concat (run t).heap.objects.size keyed first second)
  /-- The keys of another. -/
  | keys {t t₁ : Nat} {source : Assembly} {rest : List Item}
    (built : Built t₁ source) (before : t₁ ≤ t)
    (rests : ∀ k, t₁ ≤ k → k < t → (run k).LetsBe setting limit source)
    (keys : source.hasKeys = true)
    (called : (run t).Iterates setting limit .keys [.handle ⟨source.root, []⟩] rest) :
    Built (t + 1) (.keys (run t).heap.objects.size source)
  /-- The values of another. -/
  | values {t t₁ : Nat} {source : Assembly} {rest : List Item}
    (built : Built t₁ source) (before : t₁ ≤ t)
    (rests : ∀ k, t₁ ≤ k → k < t → (run k).LetsBe setting limit source)
    (keys : source.hasKeys = true)
    (called : (run t).Iterates setting limit .values [.handle ⟨source.root, []⟩] rest) :
    Built (t + 1) (.values (run t).heap.objects.size source)

/-- From a time on, some steps move nothing that a part of an assembly is in, but for the whole. -/
def MovesWhole (asm : Assembly) (t n : Nat) : Prop :=
  ∀ k, t ≤ k → k < t + n →
    (run k).moves? setting limit = some asm.root ∨ (run k).LetsBe setting limit asm

end

section

variable {run : Nat → Machine World} {asm : Assembly} {t n : Nat}

theorem moveCount_eq_zero
    (rests : ∀ k, t ≤ k → k < t + n → (run k).LetsBe setting limit asm) :
    moveCount setting limit run asm.root t n = 0 := by
  induction n with
  | zero => rfl
  | succ n ih =>
    have still := rests (t + n) (Nat.le_add_right t n) (Nat.lt_succ_self _)
    rw [moveCount, ih fun k low high => rests k low (Nat.lt_succ_of_lt high), if_neg]
    exact fun moves => still _ moves _ asm.root_mem_ids (.self _)

variable (steps : ∀ k, run (k + 1) = (run k).step (setting.host limit))

include steps

/-- The steps of a run are steps. -/
theorem Machine.step_of_steps (k : Nat) : Step (setting.host limit) (run k) (run (k + 1)) := by
  rw [steps]
  exact step_spec _ _

/-- **An assembly stands where the moves of the whole have brought it.** -/
theorem Assembly.Stands.runFor (h : asm.Stands (run t).heap 0) (sound : asm.Sound)
    (alone : MovesWhole setting limit run asm t n) :
    asm.Stands (run (t + n)).heap (moveCount setting limit run asm.root t n) := by
  induction n with
  | zero => exact h
  | succ n ih =>
    have before := ih fun k low high => alone k low (Nat.lt_succ_of_lt high)
    exact before.step sound (Machine.step_of_steps steps (t + n))
      (alone (t + n) (Nat.le_add_right t n) (Nat.lt_succ_self _))

/-- An assembly that is let be stands as it stood. -/
theorem Assembly.Stands.rests (h : asm.Stands (run t).heap 0) (sound : asm.Sound) {k : Nat}
    (later : t ≤ k) (rests : ∀ j, t ≤ j → j < k → (run j).LetsBe setting limit asm) :
    asm.Stands (run k).heap 0 := by
  obtain ⟨n, rfl⟩ := Nat.exists_eq_add_of_le later
  have stands := h.runFor steps sound fun j low high => .inr (rests j low high)
  rwa [moveCount_eq_zero rests] at stands

/-- An assembly has just been built, and the handle to the whole is on top of the stack. -/
structure Fresh (asm : Assembly) (m : Machine World) : Prop where
  /-- All parts stand before their first entry. -/
  stands : asm.Stands m.heap 0
  /-- No part is used twice. -/
  sound : asm.Sound
  /-- The handle. -/
  handle : ∃ rest, m.GoesOn (.handle ⟨asm.root, []⟩) rest

variable (room : ∀ k, (run k).HasRoom)

include room

/-- **What shows the keys or the values** of an assembly that is let be is made from it as it was
built. -/
theorem Fresh.viewed {source : Assembly} {t₁ t : Nat} {call : IteratorCall} {rest : List Item}
    (fresh : Fresh source (run t₁)) (before : t₁ ≤ t)
    (rests : ∀ k, t₁ ≤ k → k < t → (run k).LetsBe setting limit source)
    (keys : source.hasKeys = true) (wrap : Nat → Iterator)
    (does : ∀ m, Exec.iterator call m =
      (do Exec.pushObject (.iterator (wrap (← Exec.popIterator true))) : Exec World Unit) m)
    (called : (run t).Iterates setting limit call [.handle ⟨source.root, []⟩] rest) :
    (run (t + 1)).heap.iterator? (run t).heap.objects.size = some (wrap source.root) ∧
      source.Stands (run (t + 1)).heap 0 ∧ source.root < (run t).heap.objects.size ∧
      (run (t + 1)).GoesOn (.handle ⟨(run t).heap.objects.size, []⟩) rest := by
  have stands := fresh.stands.rests steps fresh.sound before rests
  obtain ⟨it, found, has⟩ := stands.exists_iterator
  obtain ⟨goesOn, objects⟩ := called.makes (room t) (by simp) (wrap source.root)
    fun m₁ same items =>
      (does m₁).trans (Exec.viewIterator_eq wrap items (same ▸ found) (has.trans keys))
  rw [← steps] at goesOn objects
  have whole := (Heap.iterator?_of_push objects _).trans (if_pos rfl)
  exact ⟨whole, stands.push objects, Heap.lt_size_of_iterator? found, goesOn⟩

/-- **What has been built is fresh.** -/
theorem Built.fresh (built : Built setting limit run t asm) : Fresh asm (run t) := by
  induction built with
  | @sequence t call s rest creates called =>
    obtain ⟨goesOn, objects⟩ := called.makes (room t) (by simp)
      (.ofElements ((run t).heap.elements s)) fun m₁ same items => by
        rw [← same]
        exact Exec.createSequence_eq creates items
    rw [← steps] at goesOn objects
    exact ⟨(Heap.iterator?_of_push objects _).trans (if_pos rfl), trivial, rest, goesOn⟩
  | @map t id rest called =>
    obtain ⟨goesOn, objects⟩ := called.makes (room t) (by simp)
      (.ofEntries ((run t).heap.entries id)) fun m₁ same items => by
        rw [← same]
        exact Exec.createMap_eq items
    rw [← steps] at goesOn objects
    exact ⟨(Heap.iterator?_of_push objects _).trans (if_pos rfl), trivial, rest, goesOn⟩
  | @concat t t₁ t₂ keyed first second rest built₁ before₁ rests₁ built₂ before₂ rests₂ apart keys
      called ih₁ ih₂ =>
    have stands₁ := ih₁.stands.rests steps ih₁.sound before₁ rests₁
    have stands₂ := ih₂.stands.rests steps ih₂.sound before₂ rests₂
    obtain ⟨it₁, found₁, keys₁⟩ := stands₁.exists_iterator
    obtain ⟨it₂, found₂, keys₂⟩ := stands₂.exists_iterator
    obtain ⟨goesOn, objects⟩ := called.makes (room t) (by simp)
      (.concat keyed first.root second.root false) fun m₁ same items => by
        rw [← same] at found₁ found₂
        have concat := Exec.concatIterators_eq items found₁ found₂
          (fun asked => keys₁.trans (keys asked).1) fun asked => keys₂.trans (keys asked).2
        cases keyed <;> exact concat
    rw [← steps] at goesOn objects
    have whole := (Heap.iterator?_of_push objects _).trans (if_pos rfl)
    have sound : (Assembly.concat (run t).heap.objects.size keyed first second).Sound :=
      ⟨Heap.lt_size_of_iterator? found₁, Heap.lt_size_of_iterator? found₂, apart, ih₁.sound,
        ih₂.sound⟩
    refine ⟨⟨whole, ?_, ?_⟩, sound, rest, goesOn⟩
    · rw [Nat.zero_min]
      exact stands₁.push objects
    · rw [Nat.zero_sub]
      exact stands₂.push objects
  | @keys t t₁ source rest built before rests keys called ih =>
    obtain ⟨whole, source, below, goesOn⟩ :=
      ih.viewed steps room before rests keys .keys (fun _ => rfl) called
    exact ⟨⟨whole, source⟩, ⟨below, ih.sound⟩, rest, goesOn⟩
  | @values t t₁ source rest built before rests keys called ih =>
    obtain ⟨whole, source, below, goesOn⟩ :=
      ih.viewed steps room before rests keys .values (fun _ => rfl) called
    exact ⟨⟨whole, source⟩, ⟨below, ih.sound⟩, rest, goesOn⟩

/-! ## What iterators answer -/

/-- Reading from an iterator comes to an item, or fails if none is shown. -/
def Machine.Shows (m : Machine World) (item : Option Item) (rest : List Item) : Prop :=
  match item with
  | some item => m.GoesOn item rest
  | none => m.status = .faulted (.item .notPositioned)

end

section

variable {run : Nat → Machine World} {asm : Assembly} {t n k : Nat} {rest : List Item}
  (room : m.HasRoom) (stands : asm.Stands m.heap k) (sound : asm.Sound)

include room stands sound

/-- **Moving an assembly on** is a move of the whole, and says whether there is another entry. -/
theorem Assembly.Stands.next
    (called : m.Iterates setting limit .next [.handle ⟨asm.root, []⟩] rest) :
    m.moves? setting limit = some asm.root ∧
      (m.step (setting.host limit)).GoesOn (.ofBool (decide (k < asm.entries.length))) rest := by
  obtain ⟨it, found, -⟩ := stands.exists_iterator
  have popped {m₁ : Machine World} (same : m₁.heap = m.heap)
      (items : m₁.stack.items = .handle ⟨asm.root, []⟩ :: rest) :
      Exec.popIterator false m₁ = .ok asm.root (m₁.withItems rest) :=
    Exec.popIterator_of_items items (same ▸ found) nofun
  constructor
  · obtain ⟨⟨m₁, made⟩, items⟩ := called
    have begins := Machine.begins_of_call? made
    rw [Machine.moves?, made]
    dsimp only
    rw [popped begins.heap (by rw [begins.stack, items]; rfl)]
  · rw [← (stands.advance sound).answer]
    refine (called.goesOn room (by simp) (m.heap.advance asm.root).1 fun m₁ same items => ?_).1
    rw [Exec.iterator_next_eq (popped same items), Machine.heap_withItems, same]
    rfl

/-- **Reading from an assembly** comes to the entry of the last move. -/
theorem Assembly.Stands.reads {call : IteratorCall} (keyed : Bool)
    (read : Heap → Nat → Except ItemFault Item) (pick : Item × Item → Item)
    (does : Exec.iterator call = do
      let id ← Exec.popIterator keyed
      Exec.push (← read (← get).heap id))
    (picks : ∀ heap id, read heap id = pick <$> heap.entry id)
    (keys : keyed = true → asm.hasKeys = true)
    (called : m.Iterates setting limit call [.handle ⟨asm.root, []⟩] rest) :
    (m.step (setting.host limit)).Shows ((shown asm.entries k).map pick) rest := by
  obtain ⟨it, found, has⟩ := stands.exists_iterator
  have runs {m₁ : Machine World} (same : m₁.heap = m.heap)
      (items : m₁.stack.items = .handle ⟨asm.root, []⟩ :: rest) :
      Exec.iterator call m₁ =
        match ((shown asm.entries k).map pick) with
        | some item => .ok () (m₁.withItems (item :: rest))
        | none => .error (.item .notPositioned) (m₁.withItems rest) := by
    rw [does, Exec.readIterator_eq read items (same ▸ found) fun asked => has.trans (keys asked),
      picks, same, stands.entry sound]
    cases shown asm.entries k <;> rfl
  cases shows : (shown asm.entries k).map pick with
  | some item =>
    refine (called.goesOn room (by simp) m.heap fun m₁ same items => ?_).1
    rw [runs same items, shows, ← same]
    rfl
  | none =>
    refine called.fails fun m₁ same items => ⟨m₁.withItems rest, ?_⟩
    rw [runs same items, shows]

end

/-! ## At the end -/

section

variable {run : Nat → Machine World}
  (steps : ∀ k, run (k + 1) = (run k).step (setting.host limit))

include steps

theorem Machine.forward_of_le {k l : Nat} (later : k ≤ l) : (run k).heap.Forward (run l).heap := by
  induction l, later using Nat.le_induction with
  | base => exact .refl _
  | succ l _ ih => exact ih.trans (step_of_steps steps l).forward

theorem Machine.grounded_of_steps (first : (run 0).heap.Grounded) (n : Nat) :
    (run n).heap.Grounded := by
  induction n with
  | zero => exact first
  | succ n ih => exact (step_of_steps steps n).grounded ih

/-- **An iterator that has come to its end** does not move on any more. -/
theorem Machine.stays_ended (first : (run 0).heap.Grounded) {id k l : Nat} {rest : List Item}
    (moves : (run k).moves? setting limit = some id)
    (stops : (run (k + 1)).stack.items = .ofBool false :: rest) (later : k < l)
    (again : (run l).moves? setting limit = some id) :
    ∃ rest', (run (l + 1)).stack.items = .ofBool false :: rest' := by
  obtain ⟨⟨it, found⟩, heap, rest₁, items⟩ := (step_of_steps steps k).moved moves
  obtain ⟨-, -, rest₂, items'⟩ := (step_of_steps steps l).moved again
  have answer : ((run k).heap.advance id).2 = false := by
    rw [stops] at items
    injection items with same
    injection same with same
    injection same with same
    exact same.symm
  have ended : (run (k + 1)).heap.Ended id := by
    rw [heap]
    exact (grounded_of_steps steps first k).ended_advanceWithin found (Nat.lt_succ_self id) answer
  have still := (ended.forward (forward_of_le steps later)).advanceWithin (id + 1)
  exact ⟨rest₂, by rw [items', Heap.advance, still]⟩

end

/-! ## In every run -/

/-- **Iterators walk in order.**  An assembly stands for a sequence, and as long as nothing is moved
but the whole it shows one entry after another and then none. -/
structure WalksInOrder (setting : Setting) (limit : GasLimit) (run : Nat → Machine World) :
    Prop where
  /-- When an assembly has been built, the handle to the whole is on top of the stack. -/
  built : ∀ t asm, Built setting limit run t asm →
    ∃ rest, (run t).GoesOn (.handle ⟨asm.root, []⟩) rest
  /-- Moving it on says yes once for each entry and then no. -/
  next : ∀ t asm n rest, Built setting limit run t asm → MovesWhole setting limit run asm t n →
    (run (t + n)).Iterates setting limit .next [.handle ⟨asm.root, []⟩] rest →
    (run (t + n)).moves? setting limit = some asm.root ∧
      (run (t + n + 1)).GoesOn
        (.ofBool (decide (moveCount setting limit run asm.root t n < asm.entries.length))) rest
  /-- The value is that of the entry of the last move.  There is none before the first move and
  behind the end. -/
  value : ∀ t asm n rest, Built setting limit run t asm → MovesWhole setting limit run asm t n →
    (run (t + n)).Iterates setting limit .value [.handle ⟨asm.root, []⟩] rest →
    (run (t + n + 1)).Shows
      ((shown asm.entries (moveCount setting limit run asm.root t n)).map Prod.snd) rest
  /-- The key is that of the entry of the last move, where there are keys. -/
  key : ∀ t asm n rest, Built setting limit run t asm → MovesWhole setting limit run asm t n →
    asm.hasKeys = true →
    (run (t + n)).Iterates setting limit .key [.handle ⟨asm.root, []⟩] rest →
    (run (t + n + 1)).Shows
      ((shown asm.entries (moveCount setting limit run asm.root t n)).map Prod.fst) rest
  /-- An iterator that has said no says no for ever, whatever it is built from and whatever else is
  moved. -/
  ended : ∀ id k l rest, (run k).moves? setting limit = some id →
    (run (k + 1)).stack.items = .ofBool false :: rest → k < l →
    (run l).moves? setting limit = some id →
    ∃ rest', (run (l + 1)).stack.items = .ofBool false :: rest'

theorem walksInOrder_of_steps {run : Nat → Machine World}
    (steps : ∀ k, run (k + 1) = (run k).step (setting.host limit)) (room : ∀ k, (run k).HasRoom)
    (first : (run 0).heap.Grounded) : WalksInOrder setting limit run := by
  have sound {t : Nat} {asm : Assembly} (built : Built setting limit run t asm) : asm.Sound :=
    (built.fresh steps room).sound
  have stands {t n : Nat} {asm : Assembly} (built : Built setting limit run t asm)
      (alone : MovesWhole setting limit run asm t n) :=
    (built.fresh steps room).stands.runFor steps (sound built) alone
  exact {
    built := fun t asm built => (built.fresh steps room).handle
    next := fun t asm n rest built alone called => by
      rw [steps]
      exact (stands built alone).next (room _) (sound built) called
    value := fun t asm n rest built alone called => by
      rw [steps]
      exact (stands built alone).reads (room _) (sound built) false Heap.iteratorValue Prod.snd rfl
        (fun _ _ => rfl) nofun called
    key := fun t asm n rest built alone keys called => by
      rw [steps]
      exact (stands built alone).reads (room _) (sound built) true Heap.iteratorKey Prod.fst rfl
        (fun _ _ => rfl) (fun _ => keys) called
    ended := fun id k l rest moves stops later again =>
      Machine.stays_ended steps first moves stops later again }

/-- **In every run** iterators walk in order, whatever they are built from and whatever becomes of
the collections that they were made from. -/
theorem iterators_walk_in_order (setting : Setting) (limit : GasLimit) (script : Bytes)
    (dynamicInvoke : Bool) (link : Link) :
    WalksInOrder setting limit
      ((Machine.load script dynamicInvoke (.fresh link)).runFor (setting.host limit)) :=
  walksInOrder_of_steps (fun _ => Machine.runFor_succ _ _ _)
    (fun k running => (Machine.orderly_runFor (setting.host_calm limit)
      (Machine.orderly_load script dynamicInvoke _) k).items (.inl running))
    fun _ _ found => by cases found

end DryRun
