import DryRun.Heap.Iterator
import Mathlib.Data.List.Infix

/-!
# Iterators move forward

Moving an iterator may move others with it: those that it is built from, and those that these are
built from.  All that happens to any of them is that a walk drops entries or that one iterator after
another comes to the second (`Iterator.Follows`), and it never goes back.

* `Heap.Forward a b` — from `a` to `b` iterators have only moved forward.
* `Heap.advanceWithin_of` — what replacing an iterator by one that follows it keeps, moving an
  iterator keeps.  This is the induction over all that is moved, done once.
* `Heap.Ended heap id` — an iterator is at its end.  It is exactly then that moving it says no
  (`Heap.Grounded.ended_advance` and `Heap.Ended.advance`), and then it stays there, whatever is
  moved (`Heap.Ended.forward`).
-/

set_option autoImplicit false

namespace DryRun

namespace Iterator

/-- The iterators that an iterator is built from. -/
def parts : Iterator → List Nat
  | .walk .. => []
  | .concat _ first second _ => [first, second]
  | .keys source | .values source => [source]

/-- An iterator has moved on. -/
inductive Follows : Iterator → Iterator → Prop where
  /-- A walk has left entries behind. -/
  | walk {source : WalkSource} {current current' : Option (Item × Item)}
    {rest rest' : List (Item × Item)} (left : rest' <:+ rest) :
    Follows (.walk source current rest) (.walk source current' rest')
  /-- The second iterator has its turn, once it has it. -/
  | concat {keyed : Bool} {first second : Nat} {switched switched' : Bool}
    (stays : switched = true → switched' = true) :
    Follows (.concat keyed first second switched) (.concat keyed first second switched')
  /-- A view of the keys does not change. -/
  | keys (source : Nat) : Follows (.keys source) (.keys source)
  /-- Nor does one of the values. -/
  | values (source : Nat) : Follows (.values source) (.values source)

namespace Follows

variable {a b c : Iterator}

theorem refl : ∀ a : Iterator, Follows a a
  | .walk .. => .walk (List.suffix_refl _)
  | .concat .. => .concat id
  | .keys source => .keys source
  | .values source => .values source

theorem trans (h : Follows a b) (k : Follows b c) : Follows a c := by
  cases h with
  | walk left =>
    cases k with
    | walk left' => exact .walk (left'.trans left)
  | concat stays =>
    cases k with
    | concat stays' => exact .concat fun switched => stays' (stays switched)
  | keys => exact k
  | values => exact k

theorem parts_eq (h : Follows a b) : b.parts = a.parts := by
  cases h <;> rfl

end Follows

end Iterator

open Iterator (Follows)

namespace Heap

variable {a b c heap : Heap} {id : Nat} {it it' : Iterator}

/-! ## Replacing an iterator -/

theorem objects_of_iterator? (found : heap.iterator? id = some it) :
    heap.objects[id]? = some (.iterator it) := by
  rw [iterator?] at found
  split at found
  · next object =>
    cases found
    exact object
  · cases found

theorem iterator?_of_objects (found : heap.objects[id]? = some (.iterator it)) :
    heap.iterator? id = some it := by
  rw [iterator?, found]

theorem iterator?_congr (h : b.objects[id]? = a.objects[id]?) :
    b.iterator? id = a.iterator? id := by
  rw [iterator?, iterator?, h]

theorem iterator?_setIterator (found : heap.iterator? id = some it) (it' : Iterator) (other : Nat) :
    (heap.setIterator id it').iterator? other = if id = other then some it' else
      heap.iterator? other := by
  have inside := (Array.getElem?_eq_some_iff.1 (objects_of_iterator? found)).1
  split
  · next same =>
    subst same
    refine iterator?_of_objects ?_
    show (heap.objects.setIfInBounds id _)[id]? = _
    rw [Array.getElem?_setIfInBounds_self, if_pos inside]
  · next different =>
    refine iterator?_congr ?_
    show (heap.objects.setIfInBounds id _)[other]? = _
    rw [Array.getElem?_setIfInBounds_ne different]

theorem lt_size_of_iterator? (found : heap.iterator? id = some it) :
    id < heap.objects.size :=
  (Array.getElem?_eq_some_iff.1 (objects_of_iterator? found)).1

/-- An iterator that was made has the next number. -/
theorem iterator?_of_push (h : b.objects = a.objects.push (.iterator it)) (id : Nat) :
    b.iterator? id = if id = a.objects.size then some it else a.iterator? id := by
  split
  · next new =>
    subst new
    exact iterator?_of_objects (by rw [h, Array.getElem?_push_size])
  · next old => exact iterator?_congr (by rw [h, Array.getElem?_push, if_neg old])

/-! ## Moving forward -/

/-- Iterators have only moved forward. -/
def Forward (a b : Heap) : Prop :=
  ∀ (id : Nat) it, a.iterator? id = some it → ∃ it', b.iterator? id = some it' ∧ it.Follows it'

namespace Forward

theorem refl (a : Heap) : Forward a a := fun _ it found => ⟨it, found, .refl it⟩

theorem trans (h : Forward a b) (k : Forward b c) : Forward a c := by
  intro id it found
  obtain ⟨middle, found, first⟩ := h id it found
  obtain ⟨it', found, second⟩ := k id middle found
  exact ⟨it', found, first.trans second⟩

theorem setIterator (found : heap.iterator? id = some it) (follows : it.Follows it') :
    Forward heap (heap.setIterator id it') := by
  intro other old there
  rw [iterator?_setIterator found]
  split
  · next same =>
    subst same
    cases found.symm.trans there
    exact ⟨it', rfl, follows⟩
  · exact ⟨old, there, .refl old⟩

/-- One iterator after another stays what it is, and may come to the second. -/
theorem concat (h : Forward a b) {keyed switched : Bool} {first second : Nat}
    (found : a.iterator? id = some (.concat keyed first second switched)) :
    ∃ switched', b.iterator? id = some (.concat keyed first second switched') ∧
      (switched = true → switched' = true) := by
  obtain ⟨it', found, follows⟩ := h id _ found
  cases follows with
  | concat stays => exact ⟨_, found, stays⟩

end Forward

/-- **What replacing an iterator by one that follows it keeps**, moving an iterator keeps. -/
theorem advanceWithin_of {R : Heap → Heap → Prop} (refl : ∀ heap, R heap heap)
    (trans : ∀ {a b c}, R a b → R b c → R a c)
    (set : ∀ {heap id it it'}, heap.iterator? id = some it → it.Follows it' →
      R heap (heap.setIterator id it')) (fuel : Nat) :
    ∀ id heap, R heap (advanceWithin fuel id heap).1 ∧
      Forward heap (advanceWithin fuel id heap).1 := by
  have both {heap : Heap} {id : Nat} {it it' : Iterator} (found : heap.iterator? id = some it)
      (follows : it.Follows it') :
      R heap (heap.setIterator id it') ∧ Forward heap (heap.setIterator id it') :=
    ⟨set found follows, .setIterator found follows⟩
  induction fuel with
  | zero => exact fun _ heap => ⟨refl heap, .refl heap⟩
  | succ fuel ih =>
    intro id heap
    rw [advanceWithin]
    split
    · next found => exact both found (.walk (List.suffix_refl _))
    · next found => exact both found (.walk (List.suffix_cons _ _))
    · exact ih _ heap
    · exact ih _ heap
    · next keyed first second switched found =>
      split
      · exact ih _ heap
      · obtain ⟨kept, forward⟩ := ih first heap
        split
        · next moved =>
          rw [moved] at kept forward
          exact ⟨kept, forward⟩
        · next moved =>
          -- the first iterator is at its end, and the second has its turn
          rw [moved] at kept forward
          obtain ⟨switched', still, -⟩ := forward.concat found
          obtain ⟨kept', forward'⟩ := both still (.concat fun _ => rfl)
          obtain ⟨kept'', forward''⟩ := ih second _
          exact ⟨trans (trans kept kept') kept'', (forward.trans forward').trans forward''⟩
    · exact ⟨refl heap, .refl heap⟩

/-- **Moving an iterator** does nothing to other objects. -/
theorem objects_advanceWithin {object : Object} (other : ∀ it, object ≠ .iterator it)
    (fuel id : Nat) (heap : Heap) {place : Nat} (there : heap.objects[place]? = some object) :
    (Heap.advanceWithin fuel id heap).1.objects[place]? = some object := by
  refine (advanceWithin_of (R := fun a b => ∀ place : Nat, a.objects[place]? = some object →
    b.objects[place]? = some object) (fun _ _ there => there)
    (fun h k place there => k place (h place there)) ?_ fuel id heap).1 place there
  intro heap id it it' found _ place there
  have different : id ≠ place := by
    rintro rfl
    exact other it (Option.some.inj (there.symm.trans (objects_of_iterator? found)))
  show (heap.objects.setIfInBounds id _)[place]? = _
  rw [Array.getElem?_setIfInBounds_ne different, there]

theorem Forward.advanceWithin (fuel id : Nat) (heap : Heap) :
    Forward heap (Heap.advanceWithin fuel id heap).1 :=
  (advanceWithin_of (R := Forward) .refl .trans .setIterator fuel id heap).2

theorem Forward.advance (heap : Heap) (id : Nat) : Forward heap (heap.advance id).1 :=
  .advanceWithin (id + 1) id heap

/-! ## Built from older ones -/

/-- Every iterator is built from iterators that are older. -/
def Grounded (heap : Heap) : Prop :=
  ∀ id it, heap.iterator? id = some it → ∀ part ∈ it.parts,
    part < id ∧ ∃ it', heap.iterator? part = some it'

/-- No iterator is made. -/
def MakesNone (a b : Heap) : Prop :=
  ∀ id it, b.iterator? id = some it → ∃ it', a.iterator? id = some it'

theorem MakesNone.setIterator (found : heap.iterator? id = some it) (it' : Iterator) :
    MakesNone heap (heap.setIterator id it') := by
  intro other new there
  rw [iterator?_setIterator found] at there
  split at there
  · next same => exact ⟨it, same ▸ found⟩
  · exact ⟨new, there⟩

theorem MakesNone.advanceWithin (fuel id : Nat) (heap : Heap) :
    MakesNone heap (Heap.advanceWithin fuel id heap).1 := by
  refine (advanceWithin_of (R := MakesNone) (fun heap id it found => ⟨it, found⟩) ?_ ?_
    fuel id heap).1
  · intro a b c first second id it found
    obtain ⟨it', found⟩ := second id it found
    exact first id it' found
  · exact fun found _ => .setIterator found _

theorem Grounded.of_forward (h : a.Grounded) (forward : Forward a b) (makes : MakesNone a b) :
    b.Grounded := by
  intro id it found part mem
  obtain ⟨it', there⟩ := makes id it found
  obtain ⟨it'', found', follows⟩ := forward id it' there
  cases found.symm.trans found'
  rw [follows.parts_eq] at mem
  obtain ⟨below, other, isIterator⟩ := h id it' there part mem
  obtain ⟨other', still, -⟩ := forward part other isIterator
  exact ⟨below, other', still⟩

theorem Grounded.setIterator (h : heap.Grounded) (found : heap.iterator? id = some it)
    (follows : it.Follows it') : (heap.setIterator id it').Grounded :=
  h.of_forward (.setIterator found follows) (.setIterator found it')

theorem Grounded.advanceWithin (h : heap.Grounded) (fuel id : Nat) :
    (Heap.advanceWithin fuel id heap).1.Grounded :=
  h.of_forward (.advanceWithin fuel id heap) (.advanceWithin fuel id heap)

/-! ## At the end -/

/-- An iterator is at its end. -/
inductive Ended (heap : Heap) : Nat → Prop where
  /-- No entry is left of a walk. -/
  | walk {id : Nat} {source : WalkSource} {current : Option (Item × Item)}
    (found : heap.iterator? id = some (.walk source current [])) : Ended heap id
  /-- The iterator whose keys it shows is at its end. -/
  | keys {id source : Nat} (found : heap.iterator? id = some (.keys source))
    (ended : Ended heap source) : Ended heap id
  /-- The iterator whose values it shows is. -/
  | values {id source : Nat} (found : heap.iterator? id = some (.values source))
    (ended : Ended heap source) : Ended heap id
  /-- The second of two iterators has its turn and is at its end. -/
  | concat {id first second : Nat} {keyed : Bool}
    (found : heap.iterator? id = some (.concat keyed first second true))
    (ended : Ended heap second) : Ended heap id

/-- **What is at its end stays there.** -/
theorem Ended.forward (h : a.Ended id) (forward : Forward a b) : b.Ended id := by
  induction h with
  | walk found =>
    obtain ⟨it', found', follows⟩ := forward _ _ found
    cases follows with
    | walk left =>
      rw [List.suffix_nil.1 left] at found'
      exact .walk found'
  | keys found _ ih =>
    obtain ⟨it', found', follows⟩ := forward _ _ found
    cases follows
    exact .keys found' ih
  | values found _ ih =>
    obtain ⟨it', found', follows⟩ := forward _ _ found
    cases follows
    exact .values found' ih
  | concat found _ ih =>
    obtain ⟨switched, found', stays⟩ := forward.concat found
    rw [stays rfl] at found'
    exact .concat found' ih

/-- **An iterator at its end does not move on.** -/
theorem Ended.advanceWithin (h : heap.Ended id) (fuel : Nat) :
    (advanceWithin fuel id heap).2 = false := by
  induction fuel generalizing id heap with
  | zero => rfl
  | succ fuel ih =>
    rw [Heap.advanceWithin]
    cases h with
    | walk found => rw [found]
    | keys found ended => rw [found]; exact ih ended
    | values found ended => rw [found]; exact ih ended
    | @concat _ first second keyed found ended =>
      rw [found]
      dsimp only
      split
      · exact ih ended
      · next same =>
        -- an iterator after itself: both are at their end
        have same : first = second := by simpa using same
        subst same
        have forward := Forward.advanceWithin fuel first heap
        have answer := ih ended
        split
        · next moved =>
          rw [moved] at answer
          cases answer
        · next moved =>
          rw [moved] at forward
          obtain ⟨switched, still, -⟩ := forward.concat found
          exact ih (ended.forward (forward.trans (.setIterator still (.concat fun _ => rfl))))

/-- **An iterator that does not move on is at its end.** -/
theorem Grounded.ended_advanceWithin (h : heap.Grounded) (found : heap.iterator? id = some it)
    {fuel : Nat} (enough : id < fuel) (stops : (Heap.advanceWithin fuel id heap).2 = false) :
    (Heap.advanceWithin fuel id heap).1.Ended id := by
  induction fuel generalizing id it heap with
  | zero => exact absurd enough (Nat.not_lt_zero id)
  | succ fuel ih =>
    have parts := h id it found
    have forward := Forward.advanceWithin (fuel + 1) id heap
    rw [Heap.advanceWithin, found] at stops forward ⊢
    cases it with
    | walk source current rest =>
      cases rest with
      | nil =>
        refine .walk ((iterator?_setIterator found _ id).trans (if_pos rfl))
      | cons entry rest => cases stops
    | keys source =>
      obtain ⟨below, inner, isIterator⟩ := parts source List.mem_cons_self
      obtain ⟨it', still, follows⟩ := forward id _ found
      cases follows
      exact .keys still (ih h isIterator (by omega) stops)
    | values source =>
      obtain ⟨below, inner, isIterator⟩ := parts source List.mem_cons_self
      obtain ⟨it', still, follows⟩ := forward id _ found
      cases follows
      exact .values still (ih h isIterator (by omega) stops)
    | concat keyed first second switched =>
      obtain ⟨below, inner, isIterator⟩ :=
        parts second (List.mem_cons_of_mem _ List.mem_cons_self)
      dsimp only at stops forward ⊢
      split at stops
      · next turn =>
        rw [if_pos turn] at forward ⊢
        obtain ⟨switched', still, stays⟩ := forward.concat found
        rw [stays turn.1] at still
        exact .concat still (ih h isIterator (by omega) stops)
      · next turn =>
        rw [if_neg turn]
        have begun := Forward.advanceWithin fuel first heap
        have grounded := h.advanceWithin fuel first
        split at stops
        · cases stops
        · next after moved =>
          rw [moved] at begun grounded
          obtain ⟨switched', still, -⟩ := begun.concat found
          have follows : (Iterator.concat keyed first second switched').Follows
            (.concat keyed first second true) := .concat fun _ => rfl
          have set := Forward.setIterator still follows
          obtain ⟨inner', isIterator', -⟩ := (begun.trans set) second inner isIterator
          obtain ⟨switched'', still', stays⟩ := (Forward.advanceWithin fuel second _).concat
            ((iterator?_setIterator still (.concat keyed first second true) id).trans (if_pos rfl))
          rw [stays rfl] at still'
          have again := grounded.setIterator still follows
          exact .concat still' (ih again isIterator' (by omega) stops)

end Heap

end DryRun
