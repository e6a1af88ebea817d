import DryRun.Proofs.Heap.Equality
import DryRun.Proofs.Heap.Sound

/-!
# What a copy of a struct is

`Heap.Copies` is the making of copies: a heap grows while items are copied one after the other.
This file looks at the two ends of it, at what the items were in the heap before and at what the
copies are in the heap after.

* `Heap.CopyOf before after items copies` — every struct among the items has become a new one, whose
  elements are copies in turn, and everything else is shared.
* `Heap.CopyOf.equal` — in a heap that has only grown, the copies equal the items.
* `Heap.Copied` — a struct is a copy of another one, and all that is nested in it is new.  It stays
  one whatever becomes of the structs that were there before (`Heap.Copied.congr`).
* `Heap.Sound.cloned` — `Heap.clone` makes such a copy, which equals the original, and changes
  nothing that was there.
-/

set_option autoImplicit false

namespace DryRun.Heap

/-- In `after`, some items are copies of what others were in `before`. -/
inductive CopyOf (before after : Heap) : List Item → List Item → Prop where
  /-- There is nothing to copy. -/
  | nil : CopyOf before after [] []
  /-- What is no struct is shared. -/
  | share {item : Item} {items copies : List Item} (other : ∀ id, item ≠ .seq ⟨.struct, id⟩)
    (rest : CopyOf before after items copies) : CopyOf before after (item :: items) (item :: copies)
  /-- A struct has been made anew, with copies of the elements. -/
  | copy {o c : Nat} {items copies : List Item} (made : after.Has (.seq ⟨.struct, c⟩))
    (new : ¬ before.Has (.seq ⟨.struct, c⟩))
    (elements : CopyOf before after (before.elements ⟨.struct, o⟩) (after.elements ⟨.struct, c⟩))
    (rest : CopyOf before after items copies) :
    CopyOf before after (.seq ⟨.struct, o⟩ :: items) (.seq ⟨.struct, c⟩ :: copies)

/-- In `after`, the struct `c` is a copy of what the struct `o` was in `before`. -/
structure Copied (before after : Heap) (o c : Nat) : Prop where
  /-- The copy has been made, and what is no struct in it is shared, at every depth. -/
  copy : CopyOf before after [.seq ⟨.struct, o⟩] [.seq ⟨.struct, c⟩]
  /-- The copy is new, and so are all structs that are nested in it. -/
  new : ∀ b ∈ after.nest c, ¬ before.Has (.seq ⟨.struct, b⟩)

/-- Copying the struct `o` has made the struct `c`, and has done nothing else. -/
structure Cloned (before after : Heap) (o c : Nat) : Prop extends Copied before after o c where
  /-- Whatever was there is as it was. -/
  grows : before.Grows after
  /-- The copy equals the original. -/
  equal : after.equal (.seq ⟨.struct, c⟩) (.seq ⟨.struct, o⟩) = true

variable {before heap after final : Heap} {items copies : List Item} {value : Primitive → Prop}

/-! ## Copies as they have been made -/

/-- What has been made while the heap was growing stays as it is while it grows on. -/
theorem CopyOf.of_copies (h : Copies heap items after copies) (grown : Grows before heap)
    (names : ∀ a, ∀ item ∈ before.elements ⟨.struct, a⟩, before.Has item)
    (made : ∀ item ∈ items, before.Has item) (later : Grows after final) :
    CopyOf before final items copies := by
  induction h generalizing final with
  | nil => exact .nil
  | share other rest ih =>
    exact .share other (ih grown (fun item mem => made item (List.mem_cons_of_mem _ mem)) later)
  | @copy heap middle after id inner items copies elements rest ih₁ ih₂ =>
    rw [List.forall_mem_cons] at made
    have more := grown.trans elements.grows
    have last := rest.grows.trans later
    have old := grown.elements _ made.1
    have new : (middle.makeSequence .struct inner).1.Has
        (.seq ⟨.struct, middle.sequenceCount .struct⟩) :=
      (has_makeSequence ..).2 (.inr rfl)
    rw [makeSequence_snd]
    refine .copy (last.has new) (Nat.not_lt.2 (more.sequences .struct)) ?_
      (ih₂ (more.trans (.makeSequence middle .struct inner)) made.2 later)
    rw [last.elements _ new, elements_makeSequence, if_pos rfl, ← old]
    exact ih₁ grown (old ▸ names id) ((Grows.makeSequence middle .struct inner).trans last)

/-- The copies equal the items, as long as these are what they were. -/
theorem CopyOf.equal (h : CopyOf before after items copies) (grown : Grows before after)
    (laws : after.EqualityLaws)
    (names : ∀ a, ∀ item ∈ before.elements ⟨.struct, a⟩, before.Has item)
    (made : ∀ item ∈ items, before.Has item) :
    List.Forall₂ (fun copy item => after.equal copy item = true) copies items := by
  induction h with
  | nil => exact .nil
  | share other rest ih => exact .cons (laws.refl _) (ih (List.forall_mem_cons.1 made).2)
  | @copy o c items copies here new elements rest ih₁ ih₂ =>
    rw [List.forall_mem_cons] at made
    refine .cons ((laws.structs c o here (grown.has made.1)).2 ?_) (ih₂ made.2)
    rw [grown.elements _ made.1]
    exact ih₁ (names o)

/-- Each struct has a copy in its place. -/
theorem CopyOf.struct_at (h : CopyOf before after items copies) {n o : Nat}
    (there : items[n]? = some (.seq ⟨.struct, o⟩)) :
    ∃ c, copies[n]? = some (.seq ⟨.struct, c⟩) ∧
      CopyOf before after [.seq ⟨.struct, o⟩] [.seq ⟨.struct, c⟩] := by
  induction h generalizing n with
  | nil => cases there
  | share other rest ih =>
    cases n with
    | zero => exact absurd (Option.some.inj there) (other o)
    | succ n => exact ih there
  | copy made new elements rest _ ih =>
    cases n with
    | zero =>
      cases there
      exact ⟨_, rfl, .copy made new elements .nil⟩
    | succ n => exact ih there

/-- Each struct among the items has a copy in its place, in which everything is new. -/
theorem Copies.copied (h : Copies before items after copies)
    (names : ∀ a, ∀ item ∈ before.elements ⟨.struct, a⟩, before.Has item)
    (made : ∀ item ∈ items, before.Has item) {n o : Nat}
    (there : items[n]? = some (.seq ⟨.struct, o⟩)) :
    ∃ c, copies[n]? = some (.seq ⟨.struct, c⟩) ∧ before.Copied after o c := by
  obtain ⟨c, found, copy⟩ :=
    (CopyOf.of_copies h (.refl before) names made (.refl after)).struct_at there
  exact ⟨c, found, copy, h.new (List.mem_of_getElem? found)⟩

/-! ## Copies in another heap -/

/-- A copy is made of new structs only. -/
theorem CopyOf.congr (h : CopyOf before heap items copies) (le : heap.Le after)
    (same : ∀ b, ¬ before.Has (.seq ⟨.struct, b⟩) →
      after.elements ⟨.struct, b⟩ = heap.elements ⟨.struct, b⟩) :
    CopyOf before after items copies := by
  induction h with
  | nil => exact .nil
  | share other rest ih => exact .share other ih
  | copy made new elements rest ih₁ ih₂ =>
    exact .copy (le _ made) new (by rwa [same _ new]) ih₂

/-- **A copy stays one** as long as the new structs stay what they are. -/
theorem Copied.congr {o c : Nat} (h : before.Copied heap o c) (le : heap.Le after)
    (same : ∀ b, ¬ before.Has (.seq ⟨.struct, b⟩) →
      after.elements ⟨.struct, b⟩ = heap.elements ⟨.struct, b⟩) : before.Copied after o c where
  copy := h.copy.congr le same
  new := by
    rw [(Untouched.of_elements fun b mem => same b (h.new b mem)).nest]
    exact h.new

/-- Writing into what was there before does not reach the copy. -/
theorem Copied.setElements {o c : Nat} (h : before.Copied heap o c) {s : Sequence}
    (made : before.Has (.seq s)) (items : List Item) :
    before.Copied (heap.setElements s items) o c :=
  h.congr (heap.le_setElements s items) fun b new => by
    rw [elements_setElements, if_neg]
    rintro ⟨rfl, -⟩
    exact new made

/-! ## The copy of a struct -/

/-- **Copying a struct** makes a new one that equals it and shares with it what is no struct, and
changes nothing that was there. -/
theorem Sound.cloned (h : heap.Sound value) {o : Nat} (made : heap.Has (.seq ⟨.struct, o⟩)) :
    ∃ c, (heap.clone (.seq ⟨.struct, o⟩)).2 = .seq ⟨.struct, c⟩ ∧
      heap.Cloned (heap.clone (.seq ⟨.struct, o⟩)).1 o c := by
  have copies := copies_clone h.nesting h.names made
  have fit : heap.Admits value (.seq ⟨.struct, o⟩) := made
  obtain ⟨sound, grows, -, -⟩ := h.clone fit
  have present := List.forall_mem_singleton.2 made
  obtain ⟨c, found, copied⟩ := copies.copied h.names present (n := 0) rfl
  have same : (heap.clone (.seq ⟨.struct, o⟩)).2 = .seq ⟨.struct, c⟩ := Option.some.inj found
  refine ⟨c, same, copied, grows, ?_⟩
  have equal := copied.copy.equal grows (equalityLaws sound.nesting sound.names) h.names present
  exact (List.forall₂_cons.1 equal).1

end DryRun.Heap
