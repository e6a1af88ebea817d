import DryRun.Item.Parameter
import DryRun.Proofs.Attempts
import DryRun.Proofs.Heap.Cycle
import DryRun.Proofs.Item.Codec

/-!
# Going through an item

An item is rendered and serialized by going through it and keeping the collections on the way, each
from the moment it is entered until it is left.  `Traversal.run` is this recursion, for anything
that can be made of an item from what is made of its parts.  No bound on the depth is built into it:
it ends because with every collection that is entered there is one less to be entered below it.

What is made of an item is said apart from it by `Traversal.Makes`, which knows nothing of what has
been seen: what is made of a collection has in it what is made of everything in the collection, as
often as it occurs.  The objects and the bytes themselves are spelled out in `rendering` and
`writing`.

* `Traversal.run_eq` — what it makes of an item is made of the tree of the item as well, so that it
  is what a receipt shows and what a script gets serialized (`folds_parameter`, `folds_write`).
* `Traversal.eq_ok_iff` — it fails for a collection inside itself or for a handle, and for nothing
  else.
* `Traversal.run_of_leads` — the way to an item does not matter, so an item that occurs several
  times is gone through at every occurrence as if it were alone.
* `Traversal.run_eq_ok_iff` — where it does not fail it makes what there is to be made.
-/

set_option autoImplicit false

namespace DryRun

open Relation (ReflTransGen TransGen)
open DryRun.Tree (Every NotCycle)

variable {α : Type}

/-- What is made of an item from what is made of its parts. -/
structure Traversal (α : Type) where
  /-- A plain value. -/
  prim : Primitive → α
  /-- A handle. -/
  handle : Handle → Except ItemFault α
  /-- A sequence of a kind. -/
  seq : SequenceKind → List α → α
  /-- A map. -/
  map : List (Primitive × α) → α
  /-- The fault of a collection that is met inside itself. -/
  recursive : ItemFault

namespace Heap

variable {heap : Heap} {item inner : Item}

/-- The collections that are not among some. -/
def unseen (heap : Heap) (seen : List Item) : List Item :=
  heap.collections.filter (· ∉ seen)

/-- Below a collection that holds something there is one less to be entered. -/
theorem length_unseen_lt {seen : List Item} (holds : heap.Holds item inner)
    (unmet : item ∉ seen) : (heap.unseen (item :: seen)).length < (heap.unseen seen).length := by
  have fewer : heap.unseen (item :: seen) = (heap.unseen seen).filter (· ∉ [item]) := by
    rw [unseen, unseen, List.filter_filter]
    refine List.filter_congr fun x _ => ?_
    simp [not_or]
  rw [fewer, List.length_filter_lt_length_iff_exists]
  exact ⟨item, List.mem_filter.2 ⟨mem_collections_of_holds holds, by simpa using unmet⟩, by simp⟩

theorem length_unseen_nil (heap : Heap) : (heap.unseen []).length = heap.collectionCount := by
  rw [← length_collections, unseen]
  simp

/-- All ways from an item that is not recursive come to an end. -/
theorem acc_of_not_recursive (h : ¬heap.Recursive item) : Acc (fun b a => heap.Holds a b) item :=
  acc_of_notCycle ((heap.unfold_notCycle_iff item).2 h)

end Heap

namespace Traversal

variable {t : Traversal α} {heap : Heap} {item : Item}

/-- Go through an item.  What has been seen is the way to it. -/
def run (t : Traversal α) (heap : Heap) (seen : List Item) : Item → Except ItemFault α
  | .prim p => .ok (t.prim p)
  | .handle h => t.handle h
  | .seq s =>
    if .seq s ∈ seen then .error t.recursive
    else t.seq s.kind <$> (heap.elements s).attach.mapM fun ⟨element, _⟩ =>
      t.run heap (.seq s :: seen) element
  | .map id =>
    if .map id ∈ seen then .error t.recursive
    else t.map <$> (heap.entries id).rows.attach.mapM fun ⟨entry, _⟩ =>
      Prod.mk entry.1 <$> t.run heap (.map id :: seen) entry.2
termination_by (heap.unseen seen).length
decreasing_by
  · exact Heap.length_unseen_lt (.element ‹_›) ‹_›
  · exact Heap.length_unseen_lt (.value (List.mem_map_of_mem ‹_›)) ‹_›

theorem run_prim (t : Traversal α) (heap : Heap) (seen : List Item) (p : Primitive) :
    t.run heap seen (.prim p) = .ok (t.prim p) := by
  rw [run]

theorem run_handle (t : Traversal α) (heap : Heap) (seen : List Item) (h : Handle) :
    t.run heap seen (.handle h) = t.handle h := by
  rw [run]

theorem run_seq (t : Traversal α) (heap : Heap) (seen : List Item) (s : Sequence) :
    t.run heap seen (.seq s) =
      if .seq s ∈ seen then .error t.recursive
      else t.seq s.kind <$> (heap.elements s).mapM (t.run heap (.seq s :: seen)) := by
  rw [run, List.mapM_subtype fun _ _ => rfl, List.unattach_attach]

theorem run_map (t : Traversal α) (heap : Heap) (seen : List Item) (id : Nat) :
    t.run heap seen (.map id) =
      if .map id ∈ seen then .error t.recursive
      else t.map <$> (heap.entries id).rows.mapM fun entry =>
        Prod.mk entry.1 <$> t.run heap (.map id :: seen) entry.2 := by
  rw [run, List.mapM_subtype fun _ _ => rfl, List.unattach_attach]
  rfl

/-! ## Trees -/

/-- The function makes of a tree what the traversal makes of an item. -/
structure Folds (t : Traversal α) (f : Tree → Except ItemFault α) : Prop where
  /-- Of a plain value. -/
  prim : ∀ p, f (.prim p) = .ok (t.prim p)
  /-- Of a handle. -/
  handle : ∀ h, f (.handle h) = t.handle h
  /-- Of a sequence. -/
  seq : ∀ kind elements, f (.seq kind elements) = t.seq kind <$> elements.mapM f
  /-- Of a map. -/
  map : ∀ entries, f (.map entries) =
    t.map <$> entries.mapM fun entry => Prod.mk entry.1 <$> f entry.2
  /-- Of a collection met inside itself. -/
  cycle : f .cycle = .error t.recursive

theorem run_eq_below {f : Tree → Except ItemFault α} (folds : t.Folds f) (fuel : Nat)
    {seen : List Item} (enough : (heap.unseen seen).length < fuel) :
    t.run heap seen item = f (heap.unfoldBelow fuel seen item) := by
  induction fuel generalizing seen item with
  | zero => exact absurd enough (Nat.not_lt_zero _)
  | succ fuel ih =>
    have next {inner : Item} (holds : heap.Holds item inner) (unmet : item ∉ seen) :
        t.run heap (item :: seen) inner = f (heap.unfoldBelow fuel (item :: seen) inner) :=
      ih (Nat.lt_of_lt_of_le (Heap.length_unseen_lt holds unmet) (Nat.le_of_lt_succ enough))
    cases item with
    | prim p => rw [run_prim, Heap.unfoldBelow, folds.prim]
    | handle h => rw [run_handle, Heap.unfoldBelow, folds.handle]
    | seq s =>
      rw [run_seq, Heap.unfoldBelow]
      split
      · rw [folds.cycle]
      · next unmet =>
        rw [folds.seq, List.mapM_map]
        exact congrArg _ (Attempts.mapM_congr fun element mem => next (.element mem) unmet)
    | map id =>
      rw [run_map, Heap.unfoldBelow]
      split
      · rw [folds.cycle]
      · next unmet =>
        rw [folds.map, List.mapM_map]
        refine congrArg _ (Attempts.mapM_congr fun entry mem => ?_)
        exact congrArg _ (next (.value (List.mem_map_of_mem mem)) unmet)

/-- **Nothing is cut off**: going through an item is going through its tree. -/
theorem run_eq {f : Tree → Except ItemFault α} (folds : t.Folds f) (heap : Heap) (item : Item) :
    t.run heap [] item = f (heap.unfold item) :=
  run_eq_below folds _ (Nat.lt_succ_of_le (Nat.le_of_eq heap.length_unseen_nil))

/-! ## Failures -/

/-- What the traversal does not fail on, as far as can be seen without looking into it. -/
def Accepts (t : Traversal α) : Tree → Prop
  | .handle h => ∃ a, t.handle h = .ok a
  | .cycle => False
  | _ => True

variable {f : Tree → Except ItemFault α}

theorem Folds.every (folds : t.Folds f) : ∀ tree : Tree,
    (∃ a, f tree = .ok a) → tree.Every t.Accepts
  | .prim p, _ => .prim trivial
  | .handle h, ok => .handle (by rwa [folds.handle] at ok)
  | .cycle, ⟨a, ok⟩ => by
    rw [folds.cycle] at ok
    cases ok
  | .seq kind elements, ok => by
    rw [folds.seq, Attempts.map_eq_ok, Attempts.mapM_eq_ok] at ok
    exact .seq trivial fun tree mem => folds.every tree (ok tree mem)
  | .map entries, ok => by
    rw [folds.map, Attempts.map_eq_ok, Attempts.mapM_eq_ok] at ok
    exact .map trivial fun (key, value) mem =>
      folds.every value (Attempts.map_eq_ok.1 (ok (key, value) mem))
termination_by tree => sizeOf tree
decreasing_by
  · have smaller := List.sizeOf_lt_of_mem mem
    rw [Tree.seq.sizeOf_spec]
    omega
  · have smaller := List.sizeOf_lt_of_mem mem
    rw [Prod.mk.sizeOf_spec] at smaller
    rw [Tree.map.sizeOf_spec]
    omega

theorem Folds.eq_ok (folds : t.Folds f) {tree : Tree} (h : tree.Every t.Accepts) :
    ∃ a, f tree = .ok a := by
  induction h with
  | prim => exact ⟨_, folds.prim _⟩
  | handle accepted => rwa [folds.handle]
  | cycle accepted => exact accepted.elim
  | seq _ _ ih => rwa [folds.seq, Attempts.map_eq_ok, Attempts.mapM_eq_ok]
  | map _ _ ih =>
    rw [folds.map, Attempts.map_eq_ok, Attempts.mapM_eq_ok]
    exact fun entry mem => Attempts.map_eq_ok.2 (ih entry mem)

/-- The leaves of a tree that stand for handles stand for what one gets to. -/
theorem handles_reached (heap : Heap) (fuel : Nat) (above : List Item) (item : Item) :
    (heap.unfoldBelow fuel above item).Every fun tree =>
      ∀ h, tree = .handle h → ReflTransGen heap.Holds item (.handle h) := by
  induction fuel generalizing above item with
  | zero =>
    cases item with
    | prim p => exact .prim (fun _ no => by cases no)
    | seq s => exact .cycle (fun _ no => by cases no)
    | map id => exact .cycle (fun _ no => by cases no)
    | handle h => exact .handle fun _ same => by cases same; exact .refl
  | succ fuel ih =>
    have next {inner : Item} (holds : heap.Holds item inner) (above : List Item) :
        (heap.unfoldBelow fuel above inner).Every fun tree =>
          ∀ h, tree = .handle h → ReflTransGen heap.Holds item (.handle h) :=
      (ih above inner).mono fun _ reached h same => .head holds (reached h same)
    cases item with
    | prim p => exact .prim (fun _ no => by cases no)
    | handle h => exact .handle fun _ same => by cases same; exact .refl
    | seq s =>
      rw [Heap.unfoldBelow]
      split
      · exact .cycle (fun _ no => by cases no)
      · refine .seq (fun _ no => by cases no) fun tree mem => ?_
        obtain ⟨element, stored, rfl⟩ := List.mem_map.1 mem
        exact next (.element stored) _
    | map id =>
      rw [Heap.unfoldBelow]
      split
      · exact .cycle (fun _ no => by cases no)
      · refine .map (fun _ no => by cases no) fun entry mem => ?_
        obtain ⟨row, stored, rfl⟩ := List.mem_map.1 mem
        exact next (.value (List.mem_map_of_mem stored)) _

/-- A handle that one gets to is among the leaves. -/
theorem accepts_of_reached {fuel : Nat} {above : List Item} {r : Handle}
    (h : (heap.unfoldBelow fuel above item).Every t.Accepts)
    (way : ReflTransGen heap.Holds item (.handle r)) : ∃ a, t.handle r = .ok a := by
  induction way using ReflTransGen.head_induction_on generalizing fuel above with
  | refl => cases fuel <;> exact h.here
  | head holds way ih =>
    cases fuel with
    | zero => cases holds <;> exact h.here.elim
    | succ fuel =>
      cases holds with
      | element stored =>
        rw [Heap.unfoldBelow] at h
        split at h
        · exact h.here.elim
        · cases h with
          | seq _ below => exact ih (below _ (List.mem_map_of_mem stored))
      | key stored =>
        -- nothing can be got at from a key
        obtain ⟨row, -, rfl⟩ := List.mem_map.1 stored
        have leaf : (heap.unfoldBelow 0 [] (.prim row.1)).Every t.Accepts := .prim trivial
        exact ih leaf
      | value stored =>
        obtain ⟨row, mem, rfl⟩ := List.mem_map.1 stored
        rw [Heap.unfoldBelow] at h
        split at h
        · exact h.here.elim
        · cases h with
          | map _ below => exact ih (below _ (List.mem_map_of_mem mem))

theorem Accepts.notCycle {tree : Tree} (h : t.Accepts tree) : tree.NotCycle := by
  cases tree with
  | cycle => exact h.elim
  | _ => exact trivial

/-- **Failures are exact**: an item is gone through without failing if and only if it is not
recursive and no handle is refused that one gets to. -/
theorem eq_ok_iff (folds : t.Folds f) (heap : Heap) (item : Item) :
    (∃ a, f (heap.unfold item) = .ok a) ↔
      ¬heap.Recursive item ∧
        ∀ r, ReflTransGen heap.Holds item (.handle r) → ∃ a, t.handle r = .ok a := by
  constructor
  · intro ok
    have every := folds.every _ ok
    exact ⟨(heap.unfold_notCycle_iff item).1 (every.mono fun _ => Accepts.notCycle),
      fun r way => accepts_of_reached every way⟩
  · rintro ⟨turns, accepted⟩
    have leaves := ((heap.unfold_notCycle_iff item).2 turns).and
      (handles_reached heap _ [] item)
    refine folds.eq_ok (leaves.mono fun tree ⟨notCycle, reached⟩ => ?_)
    cases tree with
    | handle r => exact accepted r (reached r rfl)
    | cycle => exact notCycle.elim
    | _ => exact trivial

/-! ## Occurrences -/

/-- **The way does not matter**: what is made of an item that is not recursive is the same wherever
it occurs. -/
theorem run_of_leads (t : Traversal α) (turns : ¬heap.Recursive item) {seen : List Item}
    (leads : ∀ a ∈ seen, TransGen heap.Holds a item) :
    t.run heap seen item = t.run heap [] item := by
  have ends := Heap.acc_of_not_recursive turns
  induction ends generalizing seen with
  | intro item _ ih =>
    have unmet {seen : List Item} (leads : ∀ a ∈ seen, TransGen heap.Holds a item) :
        item ∉ seen := fun mem => turns ⟨item, .refl, leads item mem⟩
    have next {seen : List Item} (leads : ∀ a ∈ seen, TransGen heap.Holds a item) {inner : Item}
        (holds : heap.Holds item inner) :
        t.run heap (item :: seen) inner = t.run heap [] inner := by
      refine ih inner holds (fun recursive => turns (.of_holds holds recursive)) ?_
      exact List.forall_mem_cons.2 ⟨.single holds, fun a mem => (leads a mem).tail holds⟩
    have alone : ∀ a ∈ ([] : List Item), TransGen heap.Holds a item :=
      fun _ mem => absurd mem List.not_mem_nil
    cases item with
    | prim p => rw [run_prim, run_prim]
    | handle r => rw [run_handle, run_handle]
    | seq s =>
      rw [run_seq, run_seq, if_neg (unmet leads), if_neg (unmet alone)]
      refine congrArg _ (Attempts.mapM_congr fun element mem => ?_)
      rw [next leads (.element mem), next alone (.element mem)]
    | map id =>
      rw [run_map, run_map, if_neg (unmet leads), if_neg (unmet alone)]
      refine congrArg _ (Attempts.mapM_congr fun entry mem => ?_)
      have holds : heap.Holds (.map id) entry.2 := .value (List.mem_map_of_mem mem)
      rw [next leads holds, next alone holds]

/-- A sequence is made of what its elements are alone. -/
theorem run_seq_of_not_recursive (t : Traversal α) {s : Sequence}
    (turns : ¬heap.Recursive (.seq s)) :
    t.run heap [] (.seq s) = t.seq s.kind <$> (heap.elements s).mapM (t.run heap []) := by
  rw [run_seq, if_neg List.not_mem_nil]
  refine congrArg _ (Attempts.mapM_congr fun element mem => ?_)
  have holds : heap.Holds (.seq s) element := .element mem
  exact run_of_leads t (fun recursive => turns (.of_holds holds recursive))
    (List.forall_mem_singleton.2 (.single holds))

/-- A map is made of its keys and what its values are alone. -/
theorem run_map_of_not_recursive (t : Traversal α) {id : Nat}
    (turns : ¬heap.Recursive (.map id)) :
    t.run heap [] (.map id) =
      t.map <$> (heap.entries id).rows.mapM fun entry =>
        Prod.mk entry.1 <$> t.run heap [] entry.2 := by
  rw [run_map, if_neg List.not_mem_nil]
  refine congrArg _ (Attempts.mapM_congr fun entry mem => ?_)
  have holds : heap.Holds (.map id) entry.2 := .value (List.mem_map_of_mem mem)
  rw [run_of_leads t (fun recursive => turns (.of_holds holds recursive))
    (List.forall_mem_singleton.2 (.single holds))]

/-! ## What is made -/

/-- What is made of an item.  Of a collection it is made of what is made of everything in it, with
one value for each occurrence. -/
inductive Makes (t : Traversal α) (heap : Heap) : Item → α → Prop where
  /-- Of a plain value. -/
  | prim (p : Primitive) : Makes t heap (.prim p) (t.prim p)
  /-- Of a handle. -/
  | handle {h : Handle} {a : α} (accepted : t.handle h = .ok a) : Makes t heap (.handle h) a
  /-- Of a sequence: its elements and the values lie side by side. -/
  | seq {s : Sequence} {values : List α} (size : (heap.elements s).length = values.length)
    (each : ∀ pair ∈ (heap.elements s).zip values, Makes t heap pair.1 pair.2) :
    Makes t heap (.seq s) (t.seq s.kind values)
  /-- Of a map: its entries and the values lie side by side. -/
  | map {id : Nat} {values : List α} (size : (heap.entries id).rows.length = values.length)
    (each : ∀ pair ∈ (heap.entries id).rows.zip values, Makes t heap pair.1.2 pair.2) :
    Makes t heap (.map id) (t.map (((heap.entries id).rows.map Prod.fst).zip values))

theorem makes_of_run {a : α} (fuel : Nat) {seen : List Item}
    (enough : (heap.unseen seen).length < fuel) (ok : t.run heap seen item = .ok a) :
    t.Makes heap item a := by
  induction fuel generalizing seen item a with
  | zero => exact absurd enough (Nat.not_lt_zero _)
  | succ fuel ih =>
    have next {inner : Item} {b : α} (holds : heap.Holds item inner) (unmet : item ∉ seen)
        (ok : t.run heap (item :: seen) inner = .ok b) : t.Makes heap inner b :=
      ih (Nat.lt_of_lt_of_le (Heap.length_unseen_lt holds unmet) (Nat.le_of_lt_succ enough)) ok
    cases item with
    | prim p =>
      rw [run_prim] at ok
      cases ok
      exact .prim p
    | handle h =>
      rw [run_handle] at ok
      exact .handle ok
    | seq s =>
      rw [run_seq] at ok
      split at ok
      · cases ok
      · next unmet =>
        obtain ⟨values, made, rfl⟩ := Attempts.map_eq_ok_iff.1 ok
        obtain ⟨size, each⟩ := Attempts.mapM_eq_ok_iff.1 made
        exact .seq size fun pair mem =>
          next (.element (List.of_mem_zip mem).1) unmet (each pair mem)
    | map id =>
      rw [run_map, Attempts.mapM_prodMk] at ok
      split at ok
      · cases ok
      · next unmet =>
        obtain ⟨rows, paired, rfl⟩ := Attempts.map_eq_ok_iff.1 ok
        obtain ⟨values, made, rfl⟩ := Attempts.map_eq_ok_iff.1 paired
        obtain ⟨size, each⟩ := Attempts.mapM_eq_ok_iff.1 made
        exact .map size fun pair mem =>
          next (.value (List.mem_map_of_mem (List.of_mem_zip mem).1)) unmet (each pair mem)

/-- Nothing is made of a recursive item. -/
theorem Makes.not_recursive {a : α} (h : t.Makes heap item a) : ¬heap.Recursive item := by
  refine Heap.not_recursive_of_acc ?_
  induction h with
  | prim | handle => exact .intro _ fun b holds => by cases holds
  | @seq s values size each ih =>
    refine .intro _ fun b holds => ?_
    cases holds with
    | element mem =>
      rw [← List.map_fst_zip (Nat.le_of_eq size)] at mem
      obtain ⟨pair, beside, rfl⟩ := List.mem_map.1 mem
      exact ih pair beside
  | @map id values size each ih =>
    refine .intro _ fun b holds => ?_
    cases holds with
    | key mem =>
      obtain ⟨row, -, rfl⟩ := List.mem_map.1 mem
      exact .intro _ fun b holds => by cases holds
    | value mem =>
      obtain ⟨row, stored, rfl⟩ := List.mem_map.1 mem
      rw [← List.map_fst_zip (Nat.le_of_eq size)] at stored
      obtain ⟨pair, beside, rfl⟩ := List.mem_map.1 stored
      exact ih pair beside

/-- **Where the traversal does not fail** it makes what there is to be made of an item. -/
theorem run_eq_ok_iff {a : α} : t.run heap [] item = .ok a ↔ t.Makes heap item a := by
  refine ⟨makes_of_run _ (Nat.lt_succ_self _), fun makes => ?_⟩
  induction makes with
  | prim p => exact run_prim t heap [] p
  | handle accepted => rwa [run_handle]
  | seq size each ih =>
    rw [run_seq_of_not_recursive t (Makes.seq size each).not_recursive,
      Attempts.mapM_eq_ok_iff.2 ⟨size, ih⟩]
    rfl
  | map size each ih =>
    rw [run_map_of_not_recursive t (Makes.map size each).not_recursive, Attempts.mapM_prodMk,
      Attempts.mapM_eq_ok_iff.2 ⟨size, ih⟩]
    rfl

/-! ## Rendering and serializing -/

/-- The object for a plain value. -/
def plainObject : Primitive → Json
  | .bytes b => .ofFields [("type", .ofString "ByteArray"), ("value", .ofString (Hex.encode b))]
  | .int v => .ofFields [("type", .ofString "Integer"), ("value", .ofString (toString v))]
  | .bool b => .ofFields [("type", .ofString "Boolean"), ("value", .bool b)]

/-- What a receipt shows. -/
def rendering : Traversal Json where
  prim := plainObject
  handle _ := .ok (.ofFields [("type", .ofString "InteropInterface")])
  seq _ elements := .ofFields [("type", .ofString "Array"), ("value", .array elements)]
  map entries := .ofFields [("type", .ofString "Map"), ("value", .array (entries.map fun entry =>
    .ofFields [("key", plainObject entry.1), ("value", entry.2)]))]
  recursive := .recursiveRendering

theorem parameters_eq_mapM (trees : List Tree) :
    Tree.parameters trees = trees.mapM Tree.parameter := by
  induction trees with
  | nil => rfl
  | cons tree rest ih => rw [Tree.parameters, List.mapM_cons, ih]

theorem entryParameters_eq_mapM (entries : List (Primitive × Tree)) :
    Tree.entryParameters entries =
      List.map (fun entry =>
        .ofFields [("key", Tree.primitiveParameter entry.1), ("value", entry.2)]) <$>
      entries.mapM fun entry => Prod.mk entry.1 <$> entry.2.parameter := by
  induction entries with
  | nil => rfl
  | cons entry rest ih =>
    rw [Tree.entryParameters, List.mapM_cons, ih]
    cases entry.2.parameter with
    | error cause => rfl
    | ok value => cases rest.mapM fun entry => Prod.mk entry.1 <$> entry.2.parameter <;> rfl

theorem folds_parameter : rendering.Folds Tree.parameter where
  prim _ := rfl
  handle _ := rfl
  seq kind elements := by
    rw [Tree.parameter, parameters_eq_mapM]
    rfl
  map entries := by
    rw [Tree.parameter, entryParameters_eq_mapM]
    cases entries.mapM fun entry => Prod.mk entry.1 <$> entry.2.parameter <;> rfl
  cycle := rfl

end Traversal

namespace Heap

/-- A receipt shows an item as this object. -/
abbrev Renders (heap : Heap) (item : Item) (object : Json) : Prop :=
  Traversal.rendering.Makes heap item object

theorem parameter_eq_ok_iff {heap : Heap} {item : Item} {object : Json} :
    (heap.unfold item).parameter = .ok object ↔ heap.Renders item object := by
  rw [← Traversal.run_eq Traversal.folds_parameter, Traversal.run_eq_ok_iff]

theorem rendered_iff (heap : Heap) (item : Item) :
    (∃ value, (heap.unfold item).parameter = .ok value) ↔ ¬heap.Recursive item := by
  rw [Traversal.eq_ok_iff Traversal.folds_parameter]
  exact and_iff_left fun _ _ => ⟨_, rfl⟩

/-- An array that has a struct twice is rendered and written with the struct twice, until the array
is put into the struct. -/
example :
    let shared : Heap := ⟨#[[.seq ⟨.struct, 0⟩, .seq ⟨.struct, 0⟩]], #[[.ofInt 7]], #[], #[]⟩
    let cyclic := shared.setElements ⟨.struct, 0⟩ [.seq ⟨.array, 0⟩]
    let bytes (heap : Heap) := (heap.unfold (.seq ⟨.array, 0⟩)).serialize
    bytes shared = .ok [0x80, 2, 0x81, 1, 0x02, 1, 7, 0x81, 1, 0x02, 1, 7] ∧
      bytes cyclic = .error .recursiveSerialization := by
  decide +kernel

end Heap

end DryRun
