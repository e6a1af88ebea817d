import DryRun.Heap.Iterator
import DryRun.Proofs.Heap.Sound

/-!
# Iterators over sound heaps

An iterator copies the entries of a collection when it is made, and from then on only drops some
of them.  So what it hands out may be held by the heap (`Heap.Sound.entry`), and moving it keeps
the heap sound (`Heap.Sound.advance`).
-/

set_option autoImplicit false

namespace DryRun.Heap

variable {heap : Heap} {value : Primitive → Prop}

theorem Sound.iterator? (h : heap.Sound value) {id : Nat} {it : Iterator}
    (found : heap.iterator? id = some it) : it.Sound heap value := by
  rw [Heap.iterator?] at found
  split at found
  · next object =>
    cases found
    exact h.objects id _ object
  · cases found

/-! ## Making -/

theorem Sound.ofEntries (h : heap.Sound value) (id : Nat) :
    (Iterator.ofEntries (heap.entries id)).Sound heap value := by
  intro entry mem
  obtain ⟨row, hrow, rfl⟩ := List.mem_map.1 mem
  exact (h.entries id).2 row hrow

theorem Sound.ofElements [Primitive.Standard value] (h : heap.Sound value) (s : Sequence) :
    (Iterator.ofElements (heap.elements s)).Sound heap value := by
  intro entry mem
  obtain ⟨⟨item, i⟩, hitem, rfl⟩ := List.mem_map.1 mem
  obtain ⟨-, inside, -⟩ := List.mem_zipIdx hitem
  have bound : i ≤ maxItemSize :=
    Nat.le_trans (Nat.le_of_lt (by simpa using inside)) (Nat.le_trans (h.elements s).1 (by decide))
  exact ⟨Primitive.Standard.of_limited (Primitive.limited_count bound),
    (h.elements s).2 item (List.fst_mem_of_mem_zipIdx hitem)⟩

theorem Sound.iterate [Primitive.Standard value] (h : heap.Sound value) {item : Item}
    {it : Iterator} (made : heap.iterate item = .ok it) : it.Sound heap value := by
  cases item with
  | map id => cases made; exact h.ofEntries id
  | seq s => cases made; exact h.ofElements s
  | prim p => cases made
  | handle r => cases made

theorem Sound.enumerate [Primitive.Standard value] (h : heap.Sound value) {item : Item}
    {it : Iterator} (made : heap.enumerate item = .ok it) : it.Sound heap value := by
  cases item with
  | seq s => cases made; exact h.ofElements s
  | prim p => cases made
  | map id => cases made
  | handle r => cases made

/-- An iterator that is built from others copies nothing. -/
theorem sound_iterator_of_held {it : Iterator} (h : it.held = []) : it.Sound heap value := by
  intro entry mem
  rw [h] at mem
  cases mem

/-! ## Moving and reading -/

/-- An iterator is replaced by one that holds no more. -/
theorem Sound.setIterator (h : heap.Sound value) (id : Nat) {it : Iterator}
    (fit : it.Sound heap value) : (heap.setIterator id it).Sound value :=
  have sound : (Object.iterator it).Sound heap value := fit
  h.setObject id sound

theorem Sound.advanceWithin (h : heap.Sound value) (fuel id : Nat) :
    (advanceWithin fuel id heap).1.Sound value ∧ heap.Le (advanceWithin fuel id heap).1 := by
  induction fuel generalizing id heap with
  | zero => exact ⟨h, .refl heap⟩
  | succ fuel ih =>
    rw [Heap.advanceWithin]
    split
    · exact ⟨h.setIterator id (sound_iterator_of_held rfl), le_setObject _ _ _⟩
    · next source current entry rest found =>
      have old := h.iterator? found
      have fit : (Iterator.walk source (some entry) rest).Sound heap value :=
        fun other mem => old other (List.mem_append_right _ mem)
      exact ⟨h.setIterator id fit, le_setObject _ _ _⟩
    · exact ih h _
    · exact ih h _
    · split
      · exact ih h _
      · next keyed first second switched _ _ =>
        obtain ⟨sound, le⟩ := ih h first
        split
        · next moved =>
          rw [moved] at sound le
          exact ⟨sound, le⟩
        · next after moved =>
          -- the first iterator has come to its end, and the second one has its turn
          rw [moved] at sound le
          have fit : (Iterator.concat keyed first second true).Sound after value :=
            sound_iterator_of_held rfl
          obtain ⟨sound', le'⟩ := ih (sound.setIterator id fit) second
          exact ⟨sound', le.trans ((le_setObject _ _ _).trans le')⟩
    · exact ⟨h, .refl heap⟩

/-- **Moving an iterator** keeps the heap sound and loses nothing. -/
theorem Sound.advance (h : heap.Sound value) (id : Nat) :
    (heap.advance id).1.Sound value ∧ heap.Le (heap.advance id).1 :=
  h.advanceWithin (id + 1) id

theorem Sound.entryWithin (h : heap.Sound value) (fuel id : Nat) {entry : Item × Item}
    (found : heap.entryWithin fuel id = .ok entry) :
    heap.Admits value entry.1 ∧ heap.Admits value entry.2 := by
  induction fuel generalizing id entry with
  | zero => cases found
  | succ fuel ih =>
    rw [Heap.entryWithin] at found
    split at found
    · next source current rest walk =>
      cases found
      exact h.iterator? walk _ (List.mem_append_left _ List.mem_cons_self)
    · cases found
    · next source keys =>
      cases inner : heap.entryWithin fuel source with
      | error cause => rw [inner] at found; cases found
      | ok own =>
        rw [inner] at found
        cases found
        exact ⟨(ih source inner).1, (ih source inner).1⟩
    · exact ih _ found
    · exact ih _ found
    · cases found

/-- **What an iterator hands out** may be held by the heap. -/
theorem Sound.entry (h : heap.Sound value) {id : Nat} {entry : Item × Item}
    (found : heap.entry id = .ok entry) :
    heap.Admits value entry.1 ∧ heap.Admits value entry.2 :=
  h.entryWithin (id + 1) id found

theorem Sound.iteratorKey (h : heap.Sound value) {id : Nat} {item : Item}
    (found : heap.iteratorKey id = .ok item) : heap.Admits value item := by
  cases here : heap.entry id with
  | error cause => rw [Heap.iteratorKey, here] at found; cases found
  | ok entry =>
    rw [Heap.iteratorKey, here] at found
    cases found
    exact (h.entry here).1

theorem Sound.iteratorValue (h : heap.Sound value) {id : Nat} {item : Item}
    (found : heap.iteratorValue id = .ok item) : heap.Admits value item := by
  cases here : heap.entry id with
  | error cause => rw [Heap.iteratorValue, here] at found; cases found
  | ok entry =>
    rw [Heap.iteratorValue, here] at found
    cases found
    exact (h.entry here).2

end DryRun.Heap
