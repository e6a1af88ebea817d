import DryRun.Machine.Step
import DryRun.Proofs.Digest
import DryRun.Proofs.Machine.Sound
import DryRun.Proofs.Wire.Reader

/-!
# Instructions on sound machines

Every instruction takes a sound machine to a sound one.  What can be pushed is checked where it is
made: results of arithmetic against the limit on integers, joined byte strings against the limit on
bytes, and new collections against the limit on elements.  `Exec.safe_execute` puts the families
together; it supposes that the stack is not deep, because its depth is pushed as well, and that the
operand was read from a script (`Instruction.modest_fetch`).

Two instructions put an item into a sequence that is there already.  They put a copy, and the
sequence was on the stack before the copy was made, so the copy stands apart from it
(`Exec.wp_popCopy`).  This is what keeps structs from being nested in themselves.
-/

set_option autoImplicit false

namespace DryRun

variable {σ α : Type}

open Machine (Standard)

namespace Exec

variable {std : Standard σ} {old : Heap}

/-! ## Stacks and byte strings -/

theorem safe_swapWithTop (n : Nat) : Safe std old (swapWithTop n : Exec σ Unit) := by
  rw [swapWithTop]
  split
  · refine (yields_peek 0).bind fun top heap₁ _ htop => ?_
    refine (yields_peek n).bind fun other heap₂ le₂ hother => ?_
    refine (safe_replace 0 hother).bind fun _ heap₃ le₃ _ => ?_
    exact safe_replace n (htop.mono (le₂.trans le₃))
  · exact safe_pure ()

theorem safe_tuckTop (n : Nat) : Safe std old (tuckTop n : Exec σ Unit) :=
  (yields_peek 0).bind fun _ _ _ fit => safe_insert n fit

theorem safe_rollUp (n : Nat) : Safe std old (rollUp n : Exec σ Unit) :=
  (yields_remove n).bind fun _ _ _ fit => safe_push fit

theorem safe_moveToAlt : Safe std old (moveToAlt : Exec σ Unit) := by
  refine yields_pop.bind fun item heap _ fit m le sound => ?_
  exact ⟨sound.withAlt (List.forall_mem_cons.2 ⟨fit.mono le, sound.alt⟩), .refl m.heap, trivial⟩

theorem safe_moveFromAlt : Safe std old (moveFromAlt : Exec σ Unit) := by
  refine yields_get_bind fun m _ sound => (yields_liftStack _).bind fun popped heap le taken => ?_
  have fit := sound.alt
  rw [Stack.pop_eq_ok taken, List.forall_mem_cons] at fit
  refine (safe_modifyAlt fun item mem => (fit.2 item mem).mono le).bind fun _ heap' le' _ => ?_
  exact safe_push (fit.1.mono (le.trans le'))

/-- All but one of the instructions that rearrange the stacks push only what is on them. -/
theorem safe_shuffle {op : StackOp} (h : op ≠ .depth) :
    Safe std old (shuffle op : Exec σ Unit) := by
  cases op with
  | dupFromAlt =>
    refine yields_get_bind fun m _ sound => (yields_liftStack _).bind fun item heap le found => ?_
    exact safe_push ((sound.alt item (Stack.mem_of_peek found)).mono le)
  | toAlt => exact safe_moveToAlt
  | fromAlt => exact safe_moveFromAlt
  | dropAt =>
    exact safe_popIndex.bind fun n _ _ _ => (yields_remove n).bind fun _ _ _ _ => safe_pure ()
  | swapAt => exact safe_popIndex.bind fun n _ _ _ => safe_swapWithTop n
  | tuckAt => exact safe_popIndex.bind fun n _ _ _ => .guarded fun _ => safe_tuckTop n
  | depth => exact absurd rfl h
  | drop => exact yields_pop.bind fun _ _ _ _ => safe_pure ()
  | dup => exact (yields_peek 0).bind fun _ _ _ fit => safe_push fit
  | nip => exact (yields_remove 1).bind fun _ _ _ _ => safe_pure ()
  | «over» => exact (yields_peek 1).bind fun _ _ _ fit => safe_push fit
  | pick =>
    exact safe_popIndex.bind fun n _ _ _ => (yields_peek n).bind fun _ _ _ fit => safe_push fit
  | roll =>
    exact safe_popIndex.bind fun n _ _ _ => .ite (fun _ => safe_rollUp n) fun _ => safe_pure ()
  | rot => exact safe_rollUp 2
  | swap => exact safe_rollUp 1
  | tuck => exact safe_tuckTop 2

/-- Bytes cut out of a byte string. -/
theorem safe_pushPart {b part : Bytes} (fit : std.value (.bytes b)) (h : part.length ≤ b.length) :
    Safe std old (pushBytes part : Exec σ Unit) :=
  safe_pushBytes (std.values.shorter fit h)

theorem safe_splice (op : SpliceOp) : Safe std old (splice op : Exec σ Unit) := by
  cases op with
  | cat =>
    refine yields_popBytes.bind fun right _ _ _ => yields_popBytes.bind fun left _ _ _ => ?_
    refine .guarded fun short => safe_pushShort ?_
    rw [List.length_append]
    exact Nat.le_of_not_lt short
  | substr =>
    refine safe_popIndex.bind fun count _ _ _ => safe_popIndex.bind fun start _ _ _ => ?_
    refine yields_popBytes.bind fun data _ _ fit => safe_pushPart fit ?_
    rw [Bytes.slice, List.length_drop]
    exact Nat.le_trans (Nat.sub_le _ _) (List.length_take_le' _ _)
  | left =>
    refine safe_popIndex.bind fun count _ _ _ => yields_popBytes.bind fun data _ _ fit => ?_
    exact safe_pushPart fit (List.length_take_le' _ _)
  | right =>
    refine safe_popIndex.bind fun count _ _ _ => yields_popBytes.bind fun data _ _ fit => ?_
    refine .guarded fun _ => safe_pushPart fit ?_
    rw [List.length_drop]
    exact Nat.sub_le _ _
  | size => exact yields_popBytes.bind fun _ _ _ fit => safe_pushInt (std.values.length fit)

/-! ## Arithmetic -/

/-- A result of arithmetic is checked before it is pushed. -/
theorem safe_pushResult (v : Int) : Safe std old (pushResult v : Exec σ Unit) := by
  refine (yields_liftItem _).bind fun w heap _ checked => safe_pushInt ?_
  have limited : (Primitive.int w).Limited := inIntegerRange_of_checkInteger checked
  exact std.values.of_limited limited

theorem safe_popPair : Safe std old (popPair : Exec σ (Int × Int)) :=
  safe_popInt.bind fun _ _ _ _ => safe_popInt.bind fun _ _ _ _ => safe_pure _

theorem safe_unary (op : UnaryOp) : Safe std old (unary op : Exec σ Unit) :=
  safe_popInt.bind fun _ _ _ _ => safe_pushResult _

theorem safe_binary (op : BinaryOp) : Safe std old (binary op : Exec σ Unit) :=
  safe_popPair.bind fun _ _ _ _ => (yields_liftMachine _).bind fun _ _ _ _ => safe_pushResult _

theorem safe_compare (op : CompareOp) : Safe std old (compare op : Exec σ Unit) :=
  safe_popPair.bind fun _ _ _ _ => safe_pushBool _

theorem safe_shift (op : ShiftOp) : Safe std old (shift op : Exec σ Unit) :=
  safe_popInt.bind fun _ _ _ _ => .guarded fun _ =>
    safe_popInt.bind fun _ _ _ _ => safe_pushResult _

theorem safe_logic (op : LogicOp) : Safe std old (logic op : Exec σ Unit) := by
  cases op with
  | equal =>
    exact yields_pop.bind fun _ _ _ _ => yields_pop.bind fun _ _ _ _ =>
      yields_get_bind fun _ _ _ => safe_pushBool _
  | not => exact safe_popBool.bind fun _ _ _ _ => safe_pushBool _
  | nonzero => exact safe_popInt.bind fun _ _ _ _ => safe_pushBool _
  | and =>
    exact safe_popBool.bind fun _ _ _ _ => safe_popBool.bind fun _ _ _ _ => safe_pushBool _
  | or =>
    exact safe_popBool.bind fun _ _ _ _ => safe_popBool.bind fun _ _ _ _ => safe_pushBool _
  | within =>
    exact safe_popInt.bind fun _ _ _ _ => safe_popInt.bind fun _ _ _ _ =>
      safe_popInt.bind fun _ _ _ _ => safe_pushBool _

/-! ## Digests and signatures -/

theorem safe_popGroup (group : SignatureGroup) :
    Safe std old (popGroup group : Exec σ (List Bytes)) := by
  rw [popGroup]
  refine yields_pop.bind fun item _ _ _ => ?_
  split
  · exact yields_get_bind fun _ _ _ => Safe.mapM _ fun _ _ => (yields_liftItem _).safe
  · exact (yields_liftItem _).bind fun _ _ _ _ => yields_get_bind fun _ _ _ =>
      .guarded fun _ => Safe.mapM _ fun _ _ => yields_popBytes.safe

theorem safe_checkMultisig (message : Option Bytes) :
    Safe std old (checkMultisig message : Exec σ Unit) := by
  rw [checkMultisig]
  refine (safe_popGroup _).bind fun keys _ _ _ => .guarded fun _ => ?_
  refine (safe_popGroup _).bind fun signatures _ _ _ => .guarded fun _ => ?_
  cases message with
  | some message => exact safe_pushBool _
  | none => exact safe_pushBool _

theorem safe_digest {f : Bytes → Bytes} (short : ∀ b, (f b).length ≤ maxItemSize) :
    Safe std old (digest f : Exec σ Unit) :=
  yields_popBytes.bind fun b _ _ _ => safe_pushShort (short b)

theorem safe_crypto (message : Option Bytes) (op : CryptoOp) :
    Safe std old (crypto message op : Exec σ Unit) := by
  cases op with
  | sha1 => exact safe_digest fun b => by rw [Digest.length_sha1]; decide
  | sha256 => exact safe_digest fun b => by rw [Digest.length_sha256]; decide
  | hash160 => exact safe_digest fun b => by rw [length_hash160]; decide
  | hash256 => exact safe_digest fun b => by rw [length_hash256]; decide
  | checkSig =>
    exact yields_popBytes.bind fun _ _ _ _ => yields_popBytes.bind fun _ _ _ _ => safe_pushBool _
  | verify =>
    exact yields_popBytes.bind fun _ _ _ _ => yields_popBytes.bind fun _ _ _ _ =>
      yields_popBytes.bind fun _ _ _ _ => safe_pushBool _
  | checkMultisig => exact safe_checkMultisig message

/-! ## Collections -/

theorem yields_copy {item : Item} (fit : old.Admits std.value item) :
    Yields std old (fun copied heap => heap.Admits std.value copied) (copy item : Exec σ Item) :=
  yields_onHeap fun _ le sound =>
    let ⟨sound', grows, fit', _⟩ := sound.clone (fit.mono le)
    ⟨sound', grows.le, fit'⟩

/-- The copies of what may be held. -/
theorem yields_copies {items : List Item} (fit : ∀ item ∈ items, old.Admits std.value item) :
    Yields std old (fun copies heap => copies.length = items.length ∧
      ∀ copied ∈ copies, heap.Admits std.value copied) (items.mapM copy : Exec σ (List Item)) :=
  Yields.mapM (fun _ _ _ le admitted => admitted.mono le) fun item mem _ le =>
    yields_copy ((fit item mem).mono le)

theorem safe_elementIndex (use : IndexUse) (size : Nat) (key : Item) :
    Safe std old (elementIndex use size key : Exec σ Nat) :=
  (yields_liftItem _).bind fun _ _ _ _ => .guarded fun _ => safe_pure _

theorem safe_arraySize : Safe std old (arraySize : Exec σ Unit) := by
  have small : maxCollectionSize ≤ maxItemSize := by decide
  rw [arraySize]
  refine yields_pop.bind fun item heap _ fit => ?_
  split
  · next s =>
    exact yields_get_bind fun m _ sound =>
      safe_pushCount (Nat.le_trans (sound.heap.elements s).1 small)
  · next id =>
    exact yields_get_bind fun m _ sound =>
      safe_pushCount (Nat.le_trans (sound.heap.entries id).1 small)
  · refine (yields_liftItem _).bind fun b heap' _ taken => ?_
    cases item with
    | prim p =>
      cases taken
      exact safe_pushInt (std.values.length (std.values.toBytes fit))
    | seq s => cases taken
    | map id => cases taken
    | handle h => cases taken

theorem safe_pack : Safe std old (pack : Exec σ Unit) := by
  refine safe_popIndex.bind fun n _ _ _ => yields_get_bind fun m _ _ => .guarded fun few => ?_
  have popped : Yields std m.heap (fun items heap => items.length = (List.replicate n ()).length ∧
      ∀ item ∈ items, heap.Admits std.value item)
      ((List.replicate n ()).mapM fun _ => pop : Exec σ (List Item)) :=
    Yields.mapM (fun _ _ _ le fit => fit.mono le) fun _ _ _ _ => yields_pop
  refine popped.bind fun items heap _ fit => safe_pushSequence .array ⟨?_, fit.2⟩
  rw [fit.1, List.length_replicate]
  exact Nat.le_of_not_lt fun many => few (.inr many)

theorem safe_unpack : Safe std old (unpack : Exec σ Unit) := by
  have small : maxCollectionSize ≤ maxItemSize := by decide
  rw [unpack]
  refine yields_pop.bind fun item _ _ _ => ?_
  split
  · next s _ =>
    refine yields_get_bind fun m _ sound => ?_
    have fit := sound.heap.elements s
    refine (Safe.forM fun item mem heap le => ?_).bind fun _ _ _ _ =>
      safe_pushCount (Nat.le_trans fit.1 small)
    exact safe_push ((fit.2 item (List.mem_reverse.1 mem)).mono le)
  · exact yields_fail _

theorem safe_pickItem : Safe std old (pickItem : Exec σ Unit) := by
  rw [pickItem]
  refine yields_pop.bind fun key _ _ _ => yields_pop.bind fun item _ _ _ => ?_
  split
  · next s _ =>
    refine yields_get_bind fun m _ sound => ?_
    refine (safe_elementIndex _ _ key).bind fun index heap le _ => ?_
    -- the index was checked, but a default does no harm either
    have fit : m.heap.Admits std.value ((m.heap.elements s).getD index default) := by
      rw [List.getD_eq_getElem?_getD]
      cases found : (m.heap.elements s)[index]? with
      | some item => exact (sound.heap.elements s).2 item (List.mem_of_getElem? found)
      | none => exact Primitive.Standard.bool false
    exact (yields_copy (fit.mono le)).bind fun _ _ _ fit' => safe_push fit'
  · next id _ =>
    refine yields_get_bind fun m _ sound => (yields_liftItem _).bind fun item heap le found => ?_
    exact (yields_copy (((sound.heap.entries id).get found).mono le)).bind fun _ _ _ fit' =>
      safe_push fit'
  · exact yields_fail _

theorem safe_newSequence (kind : SequenceKind) :
    Safe std old (newSequence kind : Exec σ Unit) := by
  rw [newSequence]
  refine yields_pop.bind fun item _ _ _ => ?_
  split
  · next s _ =>
    exact yields_get_bind fun m _ sound => safe_pushSequence kind (sound.heap.elements s)
  · refine (yields_liftItem _).bind fun n heap _ _ => .guarded fun few => ?_
    refine safe_pushSequence kind ⟨?_, fun item mem => ?_⟩
    · rw [List.length_replicate]
      omega
    · rw [List.eq_of_mem_replicate mem]
      exact Primitive.Standard.bool false

theorem safe_reverse : Safe std old (reverse : Exec σ Unit) := by
  rw [reverse]
  refine yields_pop.bind fun item _ _ _ => ?_
  split
  · next s _ =>
    refine safe_modifyHeap fun heap _ sound =>
      ⟨sound.setElements_of_subset ?_ ?_, heap.le_setElements s _⟩
    · exact Nat.le_of_eq List.length_reverse
    · exact fun item mem => List.mem_reverse.1 mem
  · exact yields_fail _

theorem safe_hasKey : Safe std old (hasKey : Exec σ Unit) := by
  rw [hasKey]
  refine yields_pop.bind fun key _ _ _ => yields_pop.bind fun item _ _ _ => ?_
  split
  · exact (yields_liftItem _).bind fun _ _ _ _ => .guarded fun _ =>
      yields_get_bind fun _ _ _ => safe_pushBool _
  · exact yields_get_bind fun _ _ _ => (yields_liftItem _).bind fun _ _ _ _ => safe_pushBool _
  · exact yields_fail _

theorem safe_keys : Safe std old (keys : Exec σ Unit) := by
  rw [keys]
  refine yields_pop.bind fun item _ _ _ => ?_
  split
  · next id _ =>
    exact yields_get_bind fun m _ sound => safe_pushSequence .array (sound.heap.entries id).keys
  · exact yields_fail _

/-- An array of copies. -/
theorem safe_pushCopies {items : List Item} (fit : old.AdmitsElements std.value items) :
    Safe std old (do pushSequence .array (← items.mapM copy) : Exec σ Unit) :=
  (yields_copies fit.2).bind fun _ _ _ copied =>
    safe_pushSequence .array ⟨copied.1 ▸ fit.1, copied.2⟩

theorem safe_values : Safe std old (values : Exec σ Unit) := by
  rw [values]
  refine yields_pop.bind fun item _ _ _ => ?_
  split
  · next id _ =>
    exact yields_get_bind fun m _ sound => safe_pushCopies (sound.heap.entries id).values
  · next s _ => exact yields_get_bind fun m _ sound => safe_pushCopies (sound.heap.elements s)
  · exact yields_fail _

/-! ### Changing collections

Here it matters that a collection is read and written without anything being done in between, so
these instructions are gone through machine by machine. -/

section

variable {m : Machine σ} {Q : Item → Machine σ → Prop} {E : Machine σ → Prop}

theorem wp_pop (h : ∀ item rest, m.stack.items = item :: rest.items →
    Q item { m with stack := rest }) (hE : E m) : wp pop Q E m := by
  refine wp_get_bind.2 (wp_bind.2 ?_)
  cases taken : m.stack.pop with
  | error cause => exact hE
  | ok popped => exact h popped.1 popped.2 (Stack.pop_eq_ok taken)

/-- Finding an index does nothing to the machine, and the index that is found is inside. -/
theorem wp_elementIndex {Q : Nat → Machine σ → Prop} (use : IndexUse) (size : Nat) (key : Item)
    (h : ∀ index : Nat, key.toInt = .ok (index : Int) → index < size → Q index m) (hE : E m) :
    wp (elementIndex use size key) Q E m := by
  rw [elementIndex]
  refine wp_bind.2 ?_
  cases read : key.toInt with
  | error cause => exact hE
  | ok index =>
    show wp (if index < 0 ∨ index ≥ size then _ else _) Q E m
    split
    · exact hE
    · next inside =>
      exact h index.toNat (by rw [read, Int.toNat_of_nonneg (by omega)]) (by omega)

theorem wp_liftItem {β : Type} {x : Except ItemFault β} {Q : β → Machine σ → Prop}
    (h : ∀ a, x = .ok a → Q a m) (hE : E m) : wp (liftM x : Exec σ β) Q E m := by
  cases x with
  | error cause => exact hE
  | ok a => exact h a rfl

/-- **The copy that is popped** stands apart from everything else on the stack. -/
theorem wp_popCopy (sound : m.Sound std) :
    wp popCopy (fun copied m' => m'.Sound std ∧ m.heap.Le m'.heap ∧
      m'.heap.Admits std.value copied ∧
        ∀ s, .seq s ∈ m'.stack.items → m'.heap.Apart s copied) (Machine.Sound std) m := by
  refine wp_bind.2 (wp_pop (fun item rest items => ?_) sound)
  have fit := sound.stack
  rw [items, List.forall_mem_cons] at fit
  obtain ⟨sound', grows, admitted, apart⟩ := sound.heap.clone fit.1
  exact ⟨(sound.withStack fit.2).withHeap sound' grows.le, grows.le, admitted,
    fun s mem => apart s (fit.2 _ mem).has⟩

end

theorem safe_append : Safe std old (append : Exec σ Unit) := by
  intro m _ sound
  rw [append]
  refine wp_bind.2 ((wp_popCopy sound).mono ?_ fun _ sound' => sound')
  rintro copied m₁ ⟨sound₁, le₁, fit, apart⟩
  refine wp_bind.2 (wp_pop (fun item rest items => ?_) sound₁)
  -- the collection is below the item, so it was there when the copy was made
  have there : item ∈ m₁.stack.items := by rw [items]; exact List.mem_cons_self
  have left := sound₁.stack
  rw [items, List.forall_mem_cons] at left
  have sound₂ := sound₁.withStack left.2
  split
  · next s =>
    refine wp_get_bind.2 ?_
    dsimp only
    split
    · exact sound₂
    · next room =>
      have length : (m₁.heap.elements s ++ [copied]).length ≤ maxCollectionSize := by
        rw [List.length_append, List.length_singleton]
        exact Nat.lt_of_not_le room
      have changed := sound₁.heap.setElements_of_apart length
        (fun x mem => (List.mem_append.1 mem).imp_right List.mem_singleton.1) fit (apart s there)
      have le₂ := m₁.heap.le_setElements s (m₁.heap.elements s ++ [copied])
      exact ⟨sound₂.withHeap changed le₂, le₁.trans le₂, trivial⟩
  · exact sound₂

theorem safe_setItem : Safe std old (setItem : Exec σ Unit) := by
  intro m _ sound
  rw [setItem]
  refine wp_bind.2 ((wp_popCopy sound).mono ?_ fun _ sound' => sound')
  rintro copied m₁ ⟨sound₁, le₁, fit, apart⟩
  refine wp_bind.2 (wp_pop (fun key rest items => ?_) sound₁)
  have left := sound₁.stack
  rw [items, List.forall_mem_cons] at left
  have sound₂ := sound₁.withStack left.2
  refine wp_bind.2 (wp_pop (fun item rest' items' => ?_) sound₂)
  change rest.items = item :: rest'.items at items'
  have there : item ∈ m₁.stack.items := by
    rw [items, items']
    exact List.mem_cons_of_mem _ List.mem_cons_self
  have left' := left.2
  rw [items', List.forall_mem_cons] at left'
  have sound₃ := sound₁.withStack left'.2
  split
  · next s =>
    refine wp_get_bind.2 (wp_bind.2 (wp_elementIndex _ _ _ (fun index _ _ => ?_) sound₃))
    have length : ((m₁.heap.elements s).set index copied).length ≤ maxCollectionSize := by
      rw [List.length_set]
      exact (sound₁.heap.elements s).1
    have changed := sound₁.heap.setElements_of_apart length
      (fun x mem => List.mem_or_eq_of_mem_set mem) fit (apart s there)
    have le₂ := m₁.heap.le_setElements s ((m₁.heap.elements s).set index copied)
    exact ⟨sound₃.withHeap changed le₂, le₁.trans le₂, trivial⟩
  · next id =>
    refine wp_get_bind.2 (wp_bind.2 (wp_liftItem (fun entries done => ?_) sound₃))
    have changed := sound₁.heap.setEntries id
      ((sound₁.heap.entries id).set left.1 fit done)
    have le₂ := m₁.heap.le_setEntries id entries
    exact ⟨sound₃.withHeap changed le₂, le₁.trans le₂, trivial⟩
  · exact sound₃

theorem safe_removeItem : Safe std old (removeItem : Exec σ Unit) := by
  rw [removeItem]
  refine yields_pop.bind fun key _ _ _ => yields_pop.bind fun item heap _ _ m _ sound => ?_
  split
  · next s _ =>
    refine wp_get_bind.2 (wp_bind.2 (wp_elementIndex _ _ _ (fun index _ _ => ?_) sound))
    have changed := sound.heap.setElements_of_subset (s := s) (List.length_eraseIdx_le _ index)
      List.eraseIdx_subset
    have le := m.heap.le_setElements s ((m.heap.elements s).eraseIdx index)
    exact ⟨sound.withHeap changed le, le, trivial⟩
  · next id _ =>
    refine wp_get_bind.2 (wp_bind.2 (wp_liftItem (fun entries done => ?_) sound))
    have changed := sound.heap.setEntries id ((sound.heap.entries id).remove done)
    have le := m.heap.le_setEntries id entries
    exact ⟨sound.withHeap changed le, le, trivial⟩
  · exact sound

theorem safe_collection (op : CollectionOp) : Safe std old (collection op : Exec σ Unit) := by
  cases op with
  | arraySize => exact safe_arraySize
  | pack => exact safe_pack
  | unpack => exact safe_unpack
  | pickItem => exact safe_pickItem
  | setItem => exact safe_setItem
  | newArray => exact safe_newSequence .array
  | newStruct => exact safe_newSequence .struct
  | newMap => exact safe_pushMap (Heap.admitsEntries_empty _)
  | append => exact safe_append
  | reverse => exact safe_reverse
  | remove => exact safe_removeItem
  | hasKey => exact safe_hasKey
  | keys => exact safe_keys
  | values => exact safe_values

end Exec

end DryRun
