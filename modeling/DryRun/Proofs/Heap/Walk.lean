import DryRun.Proofs.Heap.Forward

/-!
# Walks that are built from others

An iterator may stand for a whole expression: one walk after another, the keys of that, and so on.
All of it is in the heap, each part under a number of its own.  `Assembly` is such an expression,
with the numbers, and `Assembly.entries` is the sequence that it stands for.

If no part is used twice, it is enough to know how often the whole has been moved:
`Assembly.Stands heap asm k` says where each part stands then.  Three laws follow.

* `Assembly.Stands.advance` — the next move goes well if there is another entry.
* `Assembly.Stands.entry` — what is shown is the entry of the last move.
* `Assembly.Stands.congr` — nothing else matters.  In particular other iterators may be moved if
  they are not built from parts of this one (`Heap.advance_of_not_involves`).
-/

set_option autoImplicit false

namespace DryRun

/-- An expression of iterators, each with its number in the heap. -/
inductive Assembly where
  /-- A walk over keys and values. -/
  | walk (id : Nat) (source : WalkSource) (entries : List (Item × Item))
  /-- One after another. -/
  | concat (id : Nat) (keyed : Bool) (first second : Assembly)
  /-- The keys of another. -/
  | keys (id : Nat) (source : Assembly)
  /-- The values of another. -/
  | values (id : Nat) (source : Assembly)

/-- What is shown of a sequence after a number of moves. -/
def shown {α : Type} (entries : List α) : Nat → Option α
  | 0 => none
  | k + 1 => entries[k]?

section

variable {α β : Type}

theorem shown_map (f : α → β) (entries : List α) (k : Nat) :
    shown (entries.map f) k = (shown entries k).map f := by
  cases k with
  | zero => rfl
  | succ k => exact List.getElem?_map

theorem shown_append_of_le {entries : List α} {k : Nat} (before : k ≤ entries.length)
    (more : List α) : shown (entries ++ more) k = shown entries k := by
  cases k with
  | zero => rfl
  | succ k => exact List.getElem?_append_left before

theorem shown_append_of_lt {entries : List α} {k : Nat} (behind : entries.length < k)
    (more : List α) : shown (entries ++ more) k = shown more (k - entries.length) := by
  obtain ⟨j, rfl⟩ : ∃ j, k = entries.length + j + 1 := ⟨k - entries.length - 1, by omega⟩
  have rest : entries.length + j + 1 - entries.length = j + 1 := by omega
  rw [rest]
  show (entries ++ more)[entries.length + j]? = more[j]?
  rw [List.getElem?_append_right (Nat.le_add_right _ _), Nat.add_sub_cancel_left]

end

namespace Assembly

/-- The number of the whole. -/
def root : Assembly → Nat
  | .walk id .. | .concat id .. | .keys id _ | .values id _ => id

/-- The numbers of all parts. -/
def ids : Assembly → List Nat
  | .walk id .. => [id]
  | .concat id _ first second => id :: (first.ids ++ second.ids)
  | .keys id source | .values id source => id :: source.ids

/-- The keys and values that it stands for.  Among the keys of another one the key is the value. -/
def entries : Assembly → List (Item × Item)
  | .walk _ _ entries => entries
  | .concat _ _ first second => first.entries ++ second.entries
  | .keys _ source => source.entries.map fun entry => (entry.1, entry.1)
  | .values _ source => source.entries

/-- Does the whole have keys of its own? -/
def hasKeys : Assembly → Bool
  | .walk .. => true
  | .concat _ keyed .. => keyed
  | .keys .. | .values .. => false

/-- All parts are older than what is built from them, and none is used twice. -/
def Sound : Assembly → Prop
  | .walk .. => True
  | .concat id _ first second => first.root < id ∧ second.root < id ∧
      (∀ i ∈ first.ids, i ∉ second.ids) ∧ first.Sound ∧ second.Sound
  | .keys id source | .values id source => source.root < id ∧ source.Sound

theorem root_mem_ids (asm : Assembly) : asm.root ∈ asm.ids := by
  cases asm <;> exact List.mem_cons_self

theorem Sound.le_root {asm : Assembly} (h : asm.Sound) : ∀ i ∈ asm.ids, i ≤ asm.root := by
  induction asm with
  | walk id source entries => exact fun i mem => Nat.le_of_eq (List.mem_singleton.1 mem)
  | concat id keyed first second ih₁ ih₂ =>
    obtain ⟨below₁, below₂, -, sound₁, sound₂⟩ := h
    refine List.forall_mem_cons.2 ⟨Nat.le_refl id, fun i mem => ?_⟩
    rcases List.mem_append.1 mem with mem | mem
    · exact Nat.le_trans (ih₁ sound₁ i mem) (Nat.le_of_lt below₁)
    · exact Nat.le_trans (ih₂ sound₂ i mem) (Nat.le_of_lt below₂)
  | keys id source ih =>
    obtain ⟨below, sound⟩ := h
    exact List.forall_mem_cons.2 ⟨Nat.le_refl id, fun i mem =>
      Nat.le_trans (ih sound i mem) (Nat.le_of_lt below)⟩
  | values id source ih =>
    obtain ⟨below, sound⟩ := h
    exact List.forall_mem_cons.2 ⟨Nat.le_refl id, fun i mem =>
      Nat.le_trans (ih sound i mem) (Nat.le_of_lt below)⟩

/-- The whole is no part of what it is built from. -/
theorem Sound.not_mem {source : Assembly} (h : source.Sound) {id : Nat} (below : source.root < id) :
    id ∉ source.ids :=
  fun mem => absurd (h.le_root id mem) (by omega)

/-- Each part stands where it does after the whole has been moved `k` times.  The first of two comes
to its end before the second is moved, and is not moved any more then. -/
def Stands (heap : Heap) : Assembly → Nat → Prop
  | .walk id source entries, k =>
    heap.iterator? id = some (.walk source (shown entries k) (entries.drop k))
  | .concat id keyed first second, k =>
    heap.iterator? id = some (.concat keyed first.root second.root
      (decide (first.entries.length < k))) ∧
      Stands heap first (min k (first.entries.length + 1)) ∧
      Stands heap second (k - first.entries.length)
  | .keys id source, k => heap.iterator? id = some (.keys source.root) ∧ Stands heap source k
  | .values id source, k => heap.iterator? id = some (.values source.root) ∧ Stands heap source k

namespace Stands

variable {asm : Assembly} {heap heap' : Heap} {k fuel : Nat}

/-- **Nothing matters but the parts.** -/
theorem congr (h : Stands heap asm k)
    (same : ∀ i ∈ asm.ids, heap'.iterator? i = heap.iterator? i) : Stands heap' asm k := by
  induction asm generalizing k with
  | walk id source entries => exact (same id List.mem_cons_self).trans h
  | concat id keyed first second ih₁ ih₂ =>
    obtain ⟨found, h₁, h₂⟩ := h
    obtain ⟨top, parts⟩ := List.forall_mem_cons.1 same
    exact ⟨top.trans found, ih₁ h₁ fun i mem => parts i (List.mem_append_left _ mem),
      ih₂ h₂ fun i mem => parts i (List.mem_append_right _ mem)⟩
  | keys id source ih =>
    obtain ⟨top, parts⟩ := List.forall_mem_cons.1 same
    exact ⟨top.trans h.1, ih h.2 parts⟩
  | values id source ih =>
    obtain ⟨top, parts⟩ := List.forall_mem_cons.1 same
    exact ⟨top.trans h.1, ih h.2 parts⟩

/-- All parts are iterators. -/
theorem exists_of_mem (h : Stands heap asm k) :
    ∀ i ∈ asm.ids, ∃ it, heap.iterator? i = some it := by
  induction asm generalizing k with
  | walk => exact List.forall_mem_cons.2 ⟨⟨_, h⟩, nofun⟩
  | concat id keyed first second ih₁ ih₂ =>
    obtain ⟨found, h₁, h₂⟩ := h
    refine List.forall_mem_cons.2 ⟨⟨_, found⟩, fun i mem => ?_⟩
    exact (List.mem_append.1 mem).elim (ih₁ h₁ i) (ih₂ h₂ i)
  | keys id source ih => exact List.forall_mem_cons.2 ⟨⟨_, h.1⟩, ih h.2⟩
  | values id source ih => exact List.forall_mem_cons.2 ⟨⟨_, h.1⟩, ih h.2⟩

/-- Making another iterator moves none. -/
theorem push (h : Stands heap asm k) {it : Iterator}
    (pushed : heap'.objects = heap.objects.push (.iterator it)) : Stands heap' asm k := by
  refine h.congr fun i mem => ?_
  obtain ⟨old, found⟩ := h.exists_of_mem i mem
  rw [Heap.iterator?_of_push pushed, if_neg (Nat.ne_of_lt (Heap.lt_size_of_iterator? found))]

/-- The whole is an iterator. -/
theorem exists_iterator (h : Stands heap asm k) : ∃ it, heap.iterator? asm.root = some it ∧
    it.hasKeys = asm.hasKeys := by
  cases asm with
  | walk => exact ⟨_, h, rfl⟩
  | concat => exact ⟨_, h.1, rfl⟩
  | keys => exact ⟨_, h.1, rfl⟩
  | values => exact ⟨_, h.1, rfl⟩

end Stands

/-- What a move does to an assembly that was moved `k` times before. -/
structure Moves (asm : Assembly) (k : Nat) (heap : Heap) (moved : Heap × Bool) : Prop where
  /-- It goes well if there is another entry. -/
  answer : moved.2 = decide (k < asm.entries.length)
  /-- All parts stand where they should. -/
  stands : asm.Stands moved.1 (k + 1)
  /-- No other iterator is moved. -/
  spares : ∀ i, i ∉ asm.ids → moved.1.iterator? i = heap.iterator? i

section

variable {heap heap' : Heap} {id k fuel : Nat}

theorem moves_walk {source : WalkSource} {entries : List (Item × Item)}
    (h : (Assembly.walk id source entries).Stands heap k) :
    (Assembly.walk id source entries).Moves k heap (Heap.advanceWithin (fuel + 1) id heap) := by
  have found : heap.iterator? id = some (.walk source (shown entries k) (entries.drop k)) := h
  have spares (it' : Iterator) : ∀ i, i ∉ [id] →
      (heap.setIterator id it').iterator? i = heap.iterator? i := by
    intro i other
    rw [Heap.iterator?_setIterator found, if_neg fun same => other (List.mem_singleton.2 same.symm)]
  rw [Heap.advanceWithin, found]
  cases left : entries.drop k with
  | nil =>
    have behind : entries.length ≤ k := List.drop_eq_nil_iff.1 left
    refine ⟨(decide_eq_false (by show ¬ k < entries.length; omega)).symm, ?_, spares _⟩
    show (heap.setIterator id _).iterator? id = _
    rw [Heap.iterator?_setIterator found, if_pos rfl, shown,
      List.getElem?_eq_none behind, List.drop_eq_nil_iff.2 (by omega)]
  | cons entry rest =>
    have inside : k < entries.length := by
      by_contra behind
      rw [List.drop_eq_nil_iff.2 (by omega)] at left
      cases left
    obtain ⟨here, rfl⟩ : entries[k] = entry ∧ entries.drop (k + 1) = rest := by
      rw [List.drop_eq_getElem_cons inside] at left
      exact List.cons.inj left
    refine ⟨(decide_eq_true (by exact inside)).symm, ?_, spares _⟩
    show (heap.setIterator id _).iterator? id = _
    rw [Heap.iterator?_setIterator found, if_pos rfl, shown, List.getElem?_eq_getElem inside, here]

/-- What shows another iterator moves with it. -/
theorem Moves.wrap {source whole : Assembly} {moved : Heap × Bool} (h : source.Moves k heap moved)
    (ids : whole.ids = id :: source.ids) (length : whole.entries.length = source.entries.length)
    (stands : ∀ heap' k, heap'.iterator? id = heap.iterator? id → source.Stands heap' k →
      whole.Stands heap' k) (top : id ∉ source.ids) : whole.Moves k heap moved where
  answer := by rw [h.answer, length]
  stands := stands moved.1 (k + 1) (h.spares id top) h.stands
  spares i other := h.spares i fun mem => other (by rw [ids]; exact List.mem_cons_of_mem _ mem)

section

variable {keyed : Bool} {first second : Assembly} {moved : Heap × Bool}
  (sound : (Assembly.concat id keyed first second).Sound)

include sound

/-- **The second has its turn** and moves alone. -/
theorem Moves.concat_second (h : (Assembly.concat id keyed first second).Stands heap k)
    (turn : first.entries.length < k)
    (moves : second.Moves (k - first.entries.length) heap moved) :
    (Assembly.concat id keyed first second).Moves k heap moved := by
  obtain ⟨below₁, below₂, disjoint, sound₁, sound₂⟩ := sound
  obtain ⟨found, stands₁, -⟩ := h
  refine ⟨?_, ⟨?_, ?_, ?_⟩, fun i other => ?_⟩
  · have same : (k - first.entries.length < second.entries.length) ↔
        k < (first.entries ++ second.entries).length := by
      rw [List.length_append]
      omega
    exact moves.answer.trans (decide_eq_decide.2 same)
  · rw [moves.spares id (sound₂.not_mem below₂), found, decide_eq_true turn,
      decide_eq_true (Nat.lt_succ_of_lt turn)]
  · rw [show min (k + 1) (first.entries.length + 1) = min k (first.entries.length + 1) by omega]
    exact stands₁.congr fun i mem => moves.spares i (disjoint i mem)
  · rw [show k + 1 - first.entries.length = k - first.entries.length + 1 by omega]
    exact moves.stands
  · exact moves.spares i fun mem => other (List.mem_cons_of_mem _ (List.mem_append_right _ mem))

/-- **The first has another entry** and moves alone. -/
theorem Moves.concat_first (h : (Assembly.concat id keyed first second).Stands heap k)
    (before : k < first.entries.length) (moves : first.Moves k heap moved) :
    (Assembly.concat id keyed first second).Moves k heap moved := by
  obtain ⟨below₁, below₂, disjoint, sound₁, sound₂⟩ := sound
  obtain ⟨found, -, stands₂⟩ := h
  refine ⟨?_, ⟨?_, ?_, ?_⟩, fun i other => ?_⟩
  · have inside : k < (first.entries ++ second.entries).length := by
      rw [List.length_append]
      omega
    exact (moves.answer.trans (decide_eq_true before)).trans (decide_eq_true inside).symm
  · rw [moves.spares id (sound₁.not_mem below₁), found, decide_eq_false (by omega),
      decide_eq_false (by omega)]
  · rw [show min (k + 1) (first.entries.length + 1) = k + 1 by omega]
    exact moves.stands
  · rw [show k + 1 - first.entries.length = k - first.entries.length by omega]
    exact stands₂.congr fun i mem => moves.spares i fun mem' => disjoint i mem' mem
  · exact moves.spares i fun mem => other (List.mem_cons_of_mem _ (List.mem_append_left _ mem))

/-- **The first comes to its end**, and the second makes its first move. -/
theorem Moves.concat_both (h : (Assembly.concat id keyed first second).Stands heap k)
    (atEnd : k = first.entries.length) (moves : first.Moves k heap (heap', false))
    (moves' : second.Moves 0
      (heap'.setIterator id (.concat keyed first.root second.root true)) moved) :
    (Assembly.concat id keyed first second).Moves k heap moved := by
  obtain ⟨below₁, below₂, disjoint, sound₁, sound₂⟩ := sound
  obtain ⟨found, -, -⟩ := h
  have top₁ := sound₁.not_mem below₁
  have top₂ := sound₂.not_mem below₂
  have still : heap'.iterator? id = _ := (moves.spares id top₁).trans found
  have set := Heap.iterator?_setIterator still (.concat keyed first.root second.root true)
  have other {i : Nat} (outside : i ∉ second.ids) (different : id ≠ i) :
      moved.1.iterator? i = heap'.iterator? i := by
    rw [moves'.spares i outside, set, if_neg different]
  refine ⟨?_, ⟨?_, ?_, ?_⟩, fun i outside => ?_⟩
  · have same : (0 < second.entries.length) ↔
        k < (first.entries ++ second.entries).length := by
      rw [List.length_append]
      omega
    exact moves'.answer.trans (decide_eq_decide.2 same)
  · rw [moves'.spares id top₂, set, if_pos rfl, decide_eq_true (by omega)]
  · rw [show min (k + 1) (first.entries.length + 1) = k + 1 by omega]
    exact moves.stands.congr fun i mem => other (disjoint i mem) fun same => top₁ (same ▸ mem)
  · rw [show k + 1 - first.entries.length = 0 + 1 by omega]
    exact moves'.stands
  · obtain ⟨different, outside⟩ := List.ne_and_not_mem_of_not_mem_cons outside
    rw [other (fun mem => outside (List.mem_append_right _ mem)) different.symm]
    exact moves.spares i fun mem => outside (List.mem_append_left _ mem)

end

/-- **A move of the whole** goes well as often as there are entries. -/
theorem Stands.moves {asm : Assembly} (h : asm.Stands heap k) (sound : asm.Sound)
    (enough : asm.root < fuel) : asm.Moves k heap (Heap.advanceWithin fuel asm.root heap) := by
  induction fuel generalizing asm heap k with
  | zero => exact absurd enough (Nat.not_lt_zero _)
  | succ fuel ih =>
    cases asm with
    | walk id source entries => exact moves_walk h
    | keys id source =>
      obtain ⟨below, sound⟩ := sound
      have enough : id < fuel + 1 := enough
      have inner : source.Moves k heap (Heap.advanceWithin fuel source.root heap) :=
        ih h.2 sound (by omega)
      have step : Heap.advanceWithin (fuel + 1) id heap =
          Heap.advanceWithin fuel source.root heap := by
        rw [Heap.advanceWithin, h.1]
      show Moves _ _ _ (Heap.advanceWithin (fuel + 1) id heap)
      rw [step]
      exact inner.wrap rfl (List.length_map _) (fun heap' k same stands => ⟨same.trans h.1, stands⟩)
        (sound.not_mem below)
    | values id source =>
      obtain ⟨below, sound⟩ := sound
      have enough : id < fuel + 1 := enough
      have inner : source.Moves k heap (Heap.advanceWithin fuel source.root heap) :=
        ih h.2 sound (by omega)
      have step : Heap.advanceWithin (fuel + 1) id heap =
          Heap.advanceWithin fuel source.root heap := by
        rw [Heap.advanceWithin, h.1]
      show Moves _ _ _ (Heap.advanceWithin (fuel + 1) id heap)
      rw [step]
      exact inner.wrap rfl rfl (fun heap' k same stands => ⟨same.trans h.1, stands⟩)
        (sound.not_mem below)
    | concat id keyed first second =>
      obtain ⟨below₁, below₂, disjoint, sound₁, sound₂⟩ := sound
      obtain ⟨found, stands₁, stands₂⟩ := h
      have enough : id < fuel + 1 := enough
      have differ : first.root ≠ second.root := fun same =>
        disjoint _ first.root_mem_ids (same ▸ second.root_mem_ids)
      have sound : (Assembly.concat id keyed first second).Sound :=
        ⟨below₁, below₂, disjoint, sound₁, sound₂⟩
      have stands : (Assembly.concat id keyed first second).Stands heap k :=
        ⟨found, stands₁, stands₂⟩
      show Moves _ _ _ (Heap.advanceWithin (fuel + 1) id heap)
      rw [Heap.advanceWithin, found]
      dsimp only
      by_cases turn : first.entries.length < k
      · rw [if_pos ⟨decide_eq_true turn, differ⟩]
        exact .concat_second sound stands turn (ih stands₂ sound₂ (by omega))
      · rw [if_neg fun both => turn (of_decide_eq_true both.1)]
        rw [show min k (first.entries.length + 1) = k by omega] at stands₁
        have moves : first.Moves k heap (Heap.advanceWithin fuel first.root heap) :=
          ih stands₁ sound₁ (by omega)
        split
        · next moved =>
          rw [moved] at moves
          exact .concat_first sound stands (of_decide_eq_true moves.answer.symm) moves
        · next heap' moved =>
          rw [moved] at moves
          have before : ¬ k < first.entries.length := of_decide_eq_false moves.answer.symm
          have begins : second.Stands
              (heap'.setIterator id (.concat keyed first.root second.root true)) 0 := by
            rw [show k - first.entries.length = 0 by omega] at stands₂
            refine stands₂.congr fun i mem => ?_
            have still : heap'.iterator? id = _ :=
              (moves.spares id (sound₁.not_mem below₁)).trans found
            have other : id ≠ i := fun same => sound₂.not_mem below₂ (same ▸ mem)
            rw [Heap.iterator?_setIterator still, if_neg other]
            exact moves.spares i fun mem' => disjoint i mem' mem
          exact .concat_both sound stands (by omega) moves (ih begins sound₂ (by omega))

/-- **The entry of the last move is shown**, and none before the first move and behind the end. -/
theorem Stands.entryWithin {asm : Assembly} (h : asm.Stands heap k) (sound : asm.Sound)
    (enough : asm.root < fuel) : heap.entryWithin fuel asm.root =
      (shown asm.entries k).elim (.error .notPositioned) .ok := by
  induction fuel generalizing asm k with
  | zero => exact absurd enough (Nat.not_lt_zero _)
  | succ fuel ih =>
    cases asm with
    | walk id source entries =>
      have found : heap.iterator? id = some (.walk source (shown entries k) (entries.drop k)) := h
      show heap.entryWithin (fuel + 1) id = (shown entries k).elim _ _
      rw [Heap.entryWithin, found]
      cases shown entries k <;> rfl
    | keys id source =>
      obtain ⟨below, sound⟩ := sound
      have enough : id < fuel + 1 := enough
      have inner : heap.entryWithin fuel source.root = _ := ih h.2 sound (by omega)
      show heap.entryWithin (fuel + 1) id = (shown (source.entries.map _) k).elim _ _
      rw [Heap.entryWithin, h.1]
      dsimp only
      rw [inner, shown_map]
      cases shown source.entries k <;> rfl
    | values id source =>
      obtain ⟨below, sound⟩ := sound
      have enough : id < fuel + 1 := enough
      have inner : heap.entryWithin fuel source.root = _ := ih h.2 sound (by omega)
      show heap.entryWithin (fuel + 1) id = _
      rw [Heap.entryWithin, h.1]
      exact inner
    | concat id keyed first second =>
      obtain ⟨below₁, below₂, -, sound₁, sound₂⟩ := sound
      obtain ⟨found, stands₁, stands₂⟩ := h
      have enough : id < fuel + 1 := enough
      show heap.entryWithin (fuel + 1) id = (shown (first.entries ++ second.entries) k).elim _ _
      rw [Heap.entryWithin, found]
      dsimp only
      by_cases turn : first.entries.length < k
      · rw [decide_eq_true turn, if_pos rfl, shown_append_of_lt turn]
        exact ih stands₂ sound₂ (by omega)
      · rw [decide_eq_false turn, if_neg Bool.false_ne_true, shown_append_of_le (by omega)]
        rw [show min k (first.entries.length + 1) = k by omega] at stands₁
        exact ih stands₁ sound₁ (by omega)

/-- **The next move goes well if there is another entry.** -/
theorem Stands.advance {asm : Assembly} (h : asm.Stands heap k) (sound : asm.Sound) :
    asm.Moves k heap (heap.advance asm.root) :=
  h.moves sound (Nat.lt_succ_self _)

/-- **What is shown is the entry of the last move.** -/
theorem Stands.entry {asm : Assembly} (h : asm.Stands heap k) (sound : asm.Sound) :
    heap.entry asm.root = (shown asm.entries k).elim (.error .notPositioned) .ok :=
  h.entryWithin sound (Nat.lt_succ_self _)

/-- One walk after another, before the first move. -/
example : (Assembly.concat 2 false (.walk 0 .sequence [(.ofInt 0, .ofInt 7)])
    (.walk 1 .sequence [])).Stands
      ⟨#[], #[], #[], #[.iterator (.walk .sequence none [(.ofInt 0, .ofInt 7)]),
        .iterator (.walk .sequence none []), .iterator (.concat false 0 1 false)]⟩ 0 :=
  ⟨rfl, rfl, rfl⟩

end

end Assembly

/-! ## Moving other iterators -/

namespace Heap

variable {a b heap : Heap} {id other : Nat}

/-- Moving the iterator may move the other one, since it is built from it or is the same. -/
inductive Involves (heap : Heap) : Nat → Nat → Prop where
  /-- It is the same. -/
  | self (id : Nat) : Involves heap id id
  /-- It is built from one that involves the other. -/
  | part {id part other : Nat} {it : Iterator} (found : heap.iterator? id = some it)
    (mem : part ∈ it.parts) (involves : Involves heap part other) : Involves heap id other

/-- What an iterator is built from does not change. -/
theorem Involves.of_forward (h : b.Involves id other) (forward : Forward a b)
    (makes : MakesNone a b) : a.Involves id other := by
  induction h with
  | self id => exact .self id
  | part found mem _ ih =>
    obtain ⟨it, there⟩ := makes _ _ found
    obtain ⟨it', found', follows⟩ := forward _ _ there
    cases found.symm.trans found'
    exact .part there (follows.parts_eq ▸ mem) ih

/-- **Moving an iterator** does nothing to those that it does not involve. -/
theorem advanceWithin_of_not_involves (h : ¬ heap.Involves id other) (fuel : Nat) :
    (advanceWithin fuel id heap).1.iterator? other = heap.iterator? other := by
  induction fuel generalizing id heap with
  | zero => rfl
  | succ fuel ih =>
    have spared {it : Iterator} (found : heap.iterator? id = some it) {part : Nat}
        (mem : part ∈ it.parts) : ¬ heap.Involves part other :=
      fun involves => h (.part found mem involves)
    have different : id ≠ other := fun same => h (same ▸ .self id)
    rw [advanceWithin]
    split
    · next found => rw [iterator?_setIterator found, if_neg different]
    · next found => rw [iterator?_setIterator found, if_neg different]
    · next found => exact ih (spared found List.mem_cons_self)
    · next found => exact ih (spared found List.mem_cons_self)
    · next keyed first second switched found =>
      have first_spared := spared found List.mem_cons_self
      have second_spared := spared found (List.mem_cons_of_mem _ List.mem_cons_self)
      split
      · exact ih second_spared
      · have begun := ih first_spared
        have forward := Forward.advanceWithin fuel first heap
        have makes := MakesNone.advanceWithin fuel first heap
        split
        · next moved =>
          rw [moved] at begun
          exact begun
        · next moved =>
          rw [moved] at begun forward makes
          obtain ⟨switched', still, -⟩ := forward.concat found
          have set := iterator?_setIterator still (.concat keyed first second true) other
          rw [if_neg different] at set
          rw [ih fun involves => second_spared ((involves.of_forward
            (.setIterator still (.concat fun _ => rfl))
            (.setIterator still _)).of_forward forward makes), set]
          exact begun
    · rfl

theorem advance_of_not_involves (h : ¬ heap.Involves id other) :
    (heap.advance id).1.iterator? other = heap.iterator? other :=
  advanceWithin_of_not_involves h (id + 1)

end Heap

end DryRun
