import DryRun.Machine.Arithmetic
import DryRun.Machine.Collections
import DryRun.Machine.Crypto
import DryRun.Machine.Shuffle
import DryRun.Proofs.Exec

/-!
# Instructions that only move items

All instructions but those on the order of execution work on the stacks and the collections alone.
This file says so family by family, for every relation that does not look at items; the last
statements, `keeps_shuffle` to `keeps_collection`, are the ones the step of the machine needs.

Only four instructions change a collection that is there (`CollectionOp.writes`).  The others at
most make new ones, which is no change to more relations (`Machine.GrowthBlind`).  The one place
where this takes an argument is the copying of structs: it goes through the heap recursively, and
all it does is to make structs (`grows_cloneWithin`).
-/

set_option autoImplicit false

namespace DryRun

/-! ## Copies -/

namespace Heap

/-- The heap grows while a list is copied if it grows with the copy of each member. -/
theorem grows_mapM {f : Item → StateM Heap Item}
    (h : ∀ item heap, Grows heap ((f item).run heap).2) (items : List Item) :
    ∀ heap : Heap, Grows heap ((items.mapM f).run heap).2 := by
  induction items with
  | nil => exact .refl
  | cons item items ih =>
    intro heap
    rw [List.mapM_cons]
    exact (h item heap).trans (ih _)

theorem grows_cloneWithin (fuel : Nat) (item : Item) :
    ∀ heap : Heap, Grows heap ((cloneWithin fuel item).run heap).2 := by
  induction fuel generalizing item with
  | zero => exact .refl
  | succ fuel ih =>
    intro heap
    match item with
    | .seq ⟨.struct, id⟩ =>
      exact (grows_mapM ih (heap.elements ⟨.struct, id⟩) heap).trans (.makeSequence _ .struct _)
    | .seq ⟨.array, _⟩ | .prim _ | .map _ | .handle _ => exact .refl heap

theorem grows_clone (heap : Heap) (item : Item) : Grows heap (heap.clone item).1 :=
  grows_cloneWithin heap.structs.size item heap

end Heap

variable {σ : Type} {R : Machine σ → Machine σ → Prop} [Machine.GrowthBlind R]

namespace Exec

/-! ## Stacks and byte strings -/

theorem keeps_swapWithTop (n : Nat) : Keeps R (swapWithTop n : Exec σ Unit) := by
  rw [swapWithTop]
  split
  · exact (keeps_peek 0).bind fun top => (keeps_peek n).bind fun other =>
      (keeps_replace 0 other).bind fun _ => keeps_replace n top
  · exact keeps_pure _

theorem keeps_tuckTop (n : Nat) : Keeps R (tuckTop n : Exec σ Unit) :=
  (keeps_peek 0).bind fun item => keeps_insert n item

theorem keeps_rollUp (n : Nat) : Keeps R (rollUp n : Exec σ Unit) :=
  (keeps_remove n).bind fun item => keeps_push item

theorem keeps_moveToAlt : Keeps R (moveToAlt : Exec σ Unit) :=
  keeps_pop.bind fun _ => keeps_modifyAlt _

theorem keeps_moveFromAlt : Keeps R (moveFromAlt : Exec σ Unit) :=
  keeps_get.bind fun _ => (keeps_liftStack _).bind fun _ =>
    (keeps_modifyAlt _).bind fun _ => keeps_push _

theorem keeps_shuffle (op : StackOp) : Keeps R (shuffle op : Exec σ Unit) := by
  cases op with
  | dupFromAlt => exact keeps_get.bind fun _ => (keeps_liftStack _).bind fun _ => keeps_push _
  | toAlt => exact keeps_moveToAlt
  | fromAlt => exact keeps_moveFromAlt
  | dropAt => exact keeps_popIndex.bind fun n => (keeps_remove n).bind fun _ => keeps_pure _
  | swapAt => exact keeps_popIndex.bind fun n => keeps_swapWithTop n
  | tuckAt =>
    exact keeps_popIndex.bind fun n => (keeps_fail _).guarded fun _ => keeps_tuckTop n
  | depth => exact keeps_get.bind fun _ => keeps_pushInt _
  | drop => exact keeps_pop.bind fun _ => keeps_pure _
  | dup => exact (keeps_peek 0).bind fun _ => keeps_push _
  | nip => exact (keeps_remove 1).bind fun _ => keeps_pure _
  | «over» => exact (keeps_peek 1).bind fun _ => keeps_push _
  | pick => exact keeps_popIndex.bind fun n => (keeps_peek n).bind fun _ => keeps_push _
  | roll => exact keeps_popIndex.bind fun n => (keeps_rollUp n).ite (keeps_pure _)
  | rot => exact keeps_rollUp 2
  | swap => exact keeps_rollUp 1
  | tuck => exact keeps_tuckTop 2

theorem keeps_splice (op : SpliceOp) : Keeps R (splice op : Exec σ Unit) := by
  cases op with
  | cat =>
    exact keeps_popBytes.bind fun _ => keeps_popBytes.bind fun _ =>
      (keeps_fail _).guarded fun _ => keeps_pushBytes _
  | substr =>
    exact keeps_popIndex.bind fun _ => keeps_popIndex.bind fun _ =>
      keeps_popBytes.bind fun _ => keeps_pushBytes _
  | left => exact keeps_popIndex.bind fun _ => keeps_popBytes.bind fun _ => keeps_pushBytes _
  | right =>
    exact keeps_popIndex.bind fun _ => keeps_popBytes.bind fun _ =>
      (keeps_fail _).guarded fun _ => keeps_pushBytes _
  | size => exact keeps_popBytes.bind fun _ => keeps_pushInt _

/-! ## Arithmetic -/

theorem keeps_pushResult (v : Int) : Keeps R (pushResult v : Exec σ Unit) :=
  (keeps_liftItem _).bind fun _ => keeps_pushInt _

theorem keeps_popPair : Keeps R (popPair : Exec σ (Int × Int)) :=
  keeps_popInt.bind fun _ => keeps_popInt.bind fun _ => keeps_pure _

theorem keeps_unary (op : UnaryOp) : Keeps R (unary op : Exec σ Unit) :=
  keeps_popInt.bind fun _ => keeps_pushResult _

theorem keeps_binary (op : BinaryOp) : Keeps R (binary op : Exec σ Unit) :=
  keeps_popPair.bind fun _ => (keeps_liftMachine _).bind fun _ => keeps_pushResult _

theorem keeps_compare (op : CompareOp) : Keeps R (compare op : Exec σ Unit) :=
  keeps_popPair.bind fun _ => keeps_pushBool _

theorem keeps_shift (op : ShiftOp) : Keeps R (shift op : Exec σ Unit) :=
  keeps_popInt.bind fun _ => (keeps_fail _).guarded fun _ =>
    keeps_popInt.bind fun _ => keeps_pushResult _

theorem keeps_logic (op : LogicOp) : Keeps R (logic op : Exec σ Unit) := by
  cases op with
  | equal =>
    exact keeps_pop.bind fun _ => keeps_pop.bind fun _ => keeps_get.bind fun _ => keeps_pushBool _
  | not => exact keeps_popBool.bind fun _ => keeps_pushBool _
  | nonzero => exact keeps_popInt.bind fun _ => keeps_pushBool _
  | and => exact keeps_popBool.bind fun _ => keeps_popBool.bind fun _ => keeps_pushBool _
  | or => exact keeps_popBool.bind fun _ => keeps_popBool.bind fun _ => keeps_pushBool _
  | within =>
    exact keeps_popInt.bind fun _ => keeps_popInt.bind fun _ =>
      keeps_popInt.bind fun _ => keeps_pushBool _

/-! ## Digests and signatures -/

theorem keeps_popGroup (group : SignatureGroup) :
    Keeps R (popGroup group : Exec σ (List Bytes)) := by
  rw [popGroup]
  refine keeps_pop.bind fun item => ?_
  split
  · exact keeps_get.bind fun _ => Keeps.mapM (fun _ => keeps_liftItem _) _
  · exact (keeps_liftItem _).bind fun _ => keeps_get.bind fun _ =>
      (keeps_fail _).guarded fun _ => Keeps.mapM (fun _ => keeps_popBytes) _

theorem keeps_checkMultisig (message : Option Bytes) :
    Keeps R (checkMultisig message : Exec σ Unit) := by
  rw [checkMultisig]
  refine (keeps_popGroup _).bind fun keys => (keeps_fail _).guarded fun _ => ?_
  refine (keeps_popGroup _).bind fun signatures => (keeps_fail _).guarded fun _ => ?_
  cases message with
  | some message => exact keeps_pushBool _
  | none => exact keeps_pushBool _

theorem keeps_digest (f : Bytes → Bytes) : Keeps R (digest f : Exec σ Unit) :=
  keeps_popBytes.bind fun _ => keeps_pushBytes _

theorem keeps_crypto (message : Option Bytes) (op : CryptoOp) :
    Keeps R (crypto message op : Exec σ Unit) := by
  cases op with
  | sha1 => exact keeps_digest _
  | sha256 => exact keeps_digest _
  | hash160 => exact keeps_digest _
  | hash256 => exact keeps_digest _
  | checkSig => exact keeps_popBytes.bind fun _ => keeps_popBytes.bind fun _ => keeps_pushBool _
  | verify =>
    exact keeps_popBytes.bind fun _ => keeps_popBytes.bind fun _ =>
      keeps_popBytes.bind fun _ => keeps_pushBool _
  | checkMultisig => exact keeps_checkMultisig message

/-! ## Collections -/

theorem keeps_copy (item : Item) : Keeps R (copy item : Exec σ Item) :=
  keeps_onHeap_of_grows fun heap => heap.grows_clone item

theorem keeps_popCopy : Keeps R (popCopy : Exec σ Item) :=
  keeps_pop.bind fun item => keeps_copy item

theorem keeps_elementIndex (use : IndexUse) (size : Nat) (key : Item) :
    Keeps R (elementIndex use size key : Exec σ Nat) :=
  (keeps_liftItem _).bind fun _ => (keeps_fail _).guarded fun _ => keeps_pure _

theorem keeps_arraySize : Keeps R (arraySize : Exec σ Unit) := by
  rw [arraySize]
  refine keeps_pop.bind fun item => ?_
  split
  · exact keeps_get.bind fun _ => keeps_pushInt _
  · exact keeps_get.bind fun _ => keeps_pushInt _
  · exact (keeps_liftItem _).bind fun _ => keeps_pushInt _

theorem keeps_pack : Keeps R (pack : Exec σ Unit) :=
  keeps_popIndex.bind fun _ => keeps_get.bind fun _ => (keeps_fail _).guarded fun _ =>
    (Keeps.mapM (fun _ => keeps_pop) _).bind fun items => keeps_pushSequence .array items

theorem keeps_unpack : Keeps R (unpack : Exec σ Unit) := by
  rw [unpack]
  refine keeps_pop.bind fun item => ?_
  split
  · exact keeps_get.bind fun _ => (Keeps.forM (fun item => keeps_push item) _).bind fun _ =>
      keeps_pushInt _
  · exact keeps_fail _

theorem keeps_pickItem : Keeps R (pickItem : Exec σ Unit) := by
  rw [pickItem]
  refine keeps_pop.bind fun key => keeps_pop.bind fun item => ?_
  split
  · exact keeps_get.bind fun _ => (keeps_elementIndex _ _ key).bind fun _ =>
      (keeps_copy _).bind fun _ => keeps_push _
  · exact keeps_get.bind fun _ => (keeps_liftItem _).bind fun _ =>
      (keeps_copy _).bind fun _ => keeps_push _
  · exact keeps_fail _

theorem keeps_newSequence (kind : SequenceKind) : Keeps R (newSequence kind : Exec σ Unit) := by
  rw [newSequence]
  refine keeps_pop.bind fun item => ?_
  split
  · exact keeps_get.bind fun _ => keeps_pushSequence kind _
  · exact (keeps_liftItem _).bind fun _ => (keeps_fail _).guarded fun _ =>
      keeps_pushSequence kind _

theorem keeps_hasKey : Keeps R (hasKey : Exec σ Unit) := by
  rw [hasKey]
  refine keeps_pop.bind fun key => keeps_pop.bind fun item => ?_
  split
  · exact (keeps_liftItem _).bind fun _ => (keeps_fail _).guarded fun _ =>
      keeps_get.bind fun _ => keeps_pushBool _
  · exact keeps_get.bind fun _ => (keeps_liftItem _).bind fun _ => keeps_pushBool _
  · exact keeps_fail _

theorem keeps_keys : Keeps R (keys : Exec σ Unit) := by
  rw [keys]
  refine keeps_pop.bind fun item => ?_
  split
  · exact keeps_get.bind fun _ => keeps_pushSequence .array _
  · exact keeps_fail _

theorem keeps_values : Keeps R (values : Exec σ Unit) := by
  rw [values]
  refine keeps_pop.bind fun item => ?_
  split
  · exact keeps_get.bind fun _ => (Keeps.mapM keeps_copy _).bind fun items =>
      keeps_pushSequence .array items
  · exact keeps_get.bind fun _ => (Keeps.mapM keeps_copy _).bind fun items =>
      keeps_pushSequence .array items
  · exact keeps_fail _

section

omit [Machine.GrowthBlind R]
variable [Machine.ItemBlind R]

theorem keeps_setItem : Keeps R (setItem : Exec σ Unit) := by
  rw [setItem]
  refine keeps_popCopy.bind fun value => keeps_pop.bind fun key => keeps_pop.bind fun item => ?_
  split
  · exact keeps_get.bind fun _ => (keeps_elementIndex _ _ key).bind fun _ =>
      keeps_setElements _ _
  · exact keeps_get.bind fun _ => (keeps_liftItem _).bind fun _ => keeps_modifyHeap fun _ => rfl
  · exact keeps_fail _

theorem keeps_append : Keeps R (append : Exec σ Unit) := by
  rw [append]
  refine keeps_popCopy.bind fun value => keeps_pop.bind fun item => ?_
  split
  · exact keeps_get.bind fun _ => (keeps_fail _).guarded fun _ => keeps_setElements _ _
  · exact keeps_fail _

theorem keeps_reverse : Keeps R (reverse : Exec σ Unit) := by
  rw [reverse]
  refine keeps_pop.bind fun item => ?_
  split
  · exact keeps_modifyHeap fun heap => heap.objects_setElements _ _
  · exact keeps_fail _

theorem keeps_removeItem : Keeps R (removeItem : Exec σ Unit) := by
  rw [removeItem]
  refine keeps_pop.bind fun key => keeps_pop.bind fun item => ?_
  split
  · exact keeps_get.bind fun _ => (keeps_elementIndex _ _ key).bind fun _ =>
      keeps_setElements _ _
  · exact keeps_get.bind fun _ => (keeps_liftItem _).bind fun _ => keeps_modifyHeap fun _ => rfl
  · exact keeps_fail _

end

end Exec

/-- Does the instruction change a collection that is there? -/
def CollectionOp.writes : CollectionOp → Bool
  | .setItem | .append | .reverse | .remove => true
  | _ => false

namespace Exec

theorem keeps_collection_of_not_writes {op : CollectionOp} (h : op.writes = false) :
    Keeps R (collection op : Exec σ Unit) := by
  cases op with
  | arraySize => exact keeps_arraySize
  | pack => exact keeps_pack
  | unpack => exact keeps_unpack
  | pickItem => exact keeps_pickItem
  | newArray => exact keeps_newSequence .array
  | newStruct => exact keeps_newSequence .struct
  | newMap => exact keeps_pushMap .empty
  | hasKey => exact keeps_hasKey
  | keys => exact keeps_keys
  | values => exact keeps_values
  | setItem | append | reverse | remove => cases h

omit [Machine.GrowthBlind R] in
theorem keeps_collection [Machine.ItemBlind R] (op : CollectionOp) :
    Keeps R (collection op : Exec σ Unit) := by
  cases writes : op.writes with
  | false => exact keeps_collection_of_not_writes writes
  | true =>
    cases op with
    | setItem => exact keeps_setItem
    | append => exact keeps_append
    | reverse => exact keeps_reverse
    | remove => exact keeps_removeItem
    | _ => cases writes

end Exec

end DryRun
