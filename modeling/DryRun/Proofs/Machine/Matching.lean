import DryRun.Proofs.Machine.Multisig
import DryRun.Proofs.Machine.Operands
import Mathlib.Data.List.Forall2
import Mathlib.Data.List.NodupEquivFin

/-!
# Which signatures are accepted

A key that does not verify the next signature is dropped for good, and one that does is used up
at once.  Nothing is lost by that: whenever the signatures can be assigned to keys in the order of
the keys, the first key that verifies the first signature is as good for it as any later one.

* `verifyInOrder_iff_inOrder` — the loop succeeds exactly if there is such an assignment, whatever
  "verifies" means.
* `Exec.checkMultisigBy` — the instruction with its verifications as effects, which leaves a record
  of the loop as it runs and not of its answer only.
* `multisig_decides_matching` — what the instruction does on all stacks.
-/

set_option autoImplicit false

namespace DryRun

open List (SublistForall₂)

section

variable {α κ : Type} {verify : α → κ → Bool}

/-- Each signature verifies under a key of its own, and the keys stand in the order of the
signatures. -/
def InOrder (verify : α → κ → Bool) (signatures : List α) (keys : List κ) : Prop :=
  ∃ f : Fin signatures.length → Fin keys.length,
    StrictMono f ∧ ∀ i, verify (signatures.get i) (keys.get (f i)) = true

/-- If some keys do for all signatures, they do for all but the first. -/
theorem sublistForall₂_of_cons {R : α → κ → Prop} {s : α} {signatures : List α} {keys : List κ}
    (h : SublistForall₂ R (s :: signatures) keys) : SublistForall₂ R signatures keys := by
  induction keys with
  | nil => cases h
  | cons k keys ih =>
    cases h with
    | cons _ rest => exact rest.cons_right
    | cons_right later => exact (ih later).cons_right

/-- The loop looks for a part of the keys that goes with the signatures one by one. -/
theorem verifyInOrder_iff_sublistForall₂ (signatures : List α) (keys : List κ) :
    verifyInOrder verify signatures keys = true ↔
      SublistForall₂ (fun s k => verify s k = true) signatures keys := by
  induction keys generalizing signatures with
  | nil =>
    cases signatures with
    | nil => exact ⟨fun _ => .nil, fun _ => rfl⟩
    | cons s signatures => exact ⟨nofun, nofun⟩
  | cons k keys ih =>
    cases signatures with
    | nil => exact ⟨fun _ => .nil, fun _ => rfl⟩
    | cons s signatures =>
      rw [verifyInOrder]
      split
      · next verifies =>
        rw [ih]
        refine ⟨.cons verifies, fun h => ?_⟩
        cases h with
        | cons _ rest => exact rest
        -- The assignment passes over this key, which can take the place of the first one it uses.
        | cons_right later => exact sublistForall₂_of_cons later
      · next verifies =>
        rw [ih]
        refine ⟨.cons_right, fun h => ?_⟩
        cases h with
        | cons first _ => exact absurd first verifies
        | cons_right later => exact later

/-- A part of the keys is a choice of places in increasing order. -/
theorem sublistForall₂_iff_inOrder (signatures : List α) (keys : List κ) :
    SublistForall₂ (fun s k => verify s k = true) signatures keys ↔
      InOrder verify signatures keys := by
  rw [List.sublistForall₂_iff]
  constructor
  · rintro ⟨chosen, pairs, sub⟩
    obtain ⟨g, places⟩ := List.sublist_iff_exists_fin_orderEmbedding_get_eq.1 sub
    obtain ⟨same, verifies⟩ := List.forall₂_iff_get.1 pairs
    refine ⟨fun i => g (i.cast same), fun i j less => g.strictMono less, fun i => ?_⟩
    rw [← places]
    exact verifies i i.isLt (same ▸ i.isLt)
  · rintro ⟨f, increasing, verifies⟩
    refine ⟨List.ofFn fun i => keys.get (f i), ?_, ?_⟩
    · rw [List.forall₂_iff_get]
      refine ⟨(List.length_ofFn).symm, fun i h _ => ?_⟩
      rw [List.get_ofFn]
      exact verifies ⟨i, h⟩
    · rw [List.sublist_iff_exists_fin_orderEmbedding_get_eq]
      refine ⟨(Fin.castOrderIso List.length_ofFn).toOrderEmbedding.trans
        (OrderEmbedding.ofStrictMono f increasing), fun i => ?_⟩
      rw [List.get_ofFn]
      rfl

/-- **The loop decides matching in order.** -/
theorem verifyInOrder_iff_inOrder (signatures : List α) (keys : List κ) :
    verifyInOrder verify signatures keys = true ↔ InOrder verify signatures keys :=
  (verifyInOrder_iff_sublistForall₂ signatures keys).trans
    (sublistForall₂_iff_inOrder signatures keys)

/-- The second key is left for the second signature. -/
example : verifyInOrder (fun s k => k ∈ s) [[2, 3], [3]] [2, 3] = true := by
  decide

end

namespace Exec

variable {σ : Type}

/-- Check several signatures with verifications of any kind. -/
def checkMultisigBy (verify : Bytes → Bytes → Bytes → Exec σ Bool) (message : Option Bytes) :
    Exec σ Unit := do
  let keys ← popGroup .publicKey
  if keys.isEmpty then fail .noPublicKeys
  let signatures ← popGroup .signature
  if signatures.isEmpty ∨ signatures.length > keys.length then
    fail (.signatureCount signatures.length keys.length)
  match message with
  | some message => pushBool (← verifyInOrderM (verify message) signatures keys)
  | none => pushBool false

/-- Change nothing but the world. -/
def tell (f : σ → σ) : Exec σ PUnit :=
  modify fun m => { m with world := f m.world }

/-- A verification of which the world is told. -/
def noting (verify : Bytes → Bytes → Bytes → Bool) (note : σ → Bytes × Bytes × Bytes → σ)
    (message s k : Bytes) : Exec σ Bool := do
  tell (note · (message, s, k))
  return verify message s k

/-! ## Groups on the stack -/

variable {m : Machine σ} {rest : List Item}

theorem liftItem_ok {α : Type} (a : α) :
    (liftM (Except.ok a : Except ItemFault α) : Exec σ α) = pure a := rfl

/-- Byte strings that are not on the stack. -/
theorem readEach_of_mapM {items : List Item} {members : List Bytes}
    (reads : items.mapM Item.toBytes = .ok members) (m : Machine σ) :
    items.mapM (fun item => (liftM item.toBytes : Exec σ Bytes)) m = .ok members m := by
  induction items generalizing members with
  | nil => cases reads; rfl
  | cons item items ih =>
    obtain ⟨b, more, read, others, rfl⟩ := Attempts.eq_cons_of_mapM reads
    rw [List.mapM_cons, read, liftItem_ok, pure_bind, bind_eq, ih others]
    rfl

/-- As many byte strings as there are. -/
theorem popEach_of_items {items : List Item} {members : List Bytes}
    (stack : m.stack.items = items ++ rest) (reads : items.mapM Item.toBytes = .ok members) :
    (List.replicate members.length ()).mapM (fun _ => (popBytes : Exec σ Bytes)) m =
      .ok members (m.withItems rest) := by
  induction items generalizing m members with
  | nil =>
    cases reads
    rw [List.nil_append] at stack
    subst stack
    rfl
  | cons item items ih =>
    obtain ⟨b, more, read, others, rfl⟩ := Attempts.eq_cons_of_mapM reads
    rw [List.cons_append] at stack
    rw [List.length_cons, List.replicate_succ, List.mapM_cons, bind_eq,
      popBytes_of_items stack read]
    dsimp only
    rw [bind_eq, ih (m := m.withItems (items ++ rest)) rfl others]
    rfl

theorem popGroup_of_groups {group : SignatureGroup} {members : List Bytes} {operands : List Item}
    (stack : m.stack.items = operands ++ rest) (groups : m.heap.Groups members operands)
    (some_ : 1 ≤ members.length) : popGroup group m = .ok members (m.withItems rest) := by
  cases groups with
  | sequence elements =>
    rw [popGroup, bind_eq, pop_of_items stack]
    dsimp only
    rw [get_bind]
    exact readEach_of_mapM elements _
  | @counted count items plain number reads =>
    have enough :
        ¬((members.length : Int) < 1 ∨ (members.length : Int) > (items ++ rest).length) := by
      rw [List.length_append, ← Attempts.length_of_mapM reads]
      omega
    have popped := popEach_of_items (m := m.withItems (items ++ rest)) rfl reads
    rw [List.cons_append] at stack
    rw [popGroup, bind_eq, pop_of_items stack]
    cases count with
    | seq s => exact absurd rfl (plain s)
    | _ =>
      dsimp only
      rw [number, liftItem_ok, pure_bind, get_bind, Int.toNat_natCast]
      exact (congrFun (if_neg enough) _).trans popped

end Exec

/-- The stack begins with a group of keys and then a group of signatures, at least one of these and
no more of them than keys. -/
structure Machine.HasMultisig {σ : Type} (m : Machine σ) (keys signatures : List Bytes)
    (rest : List Item) : Prop where
  /-- Each group is a sequence or has its number on top. -/
  groups : ∃ keyItems signatureItems, m.stack.items = keyItems ++ (signatureItems ++ rest) ∧
    m.heap.Groups keys keyItems ∧ m.heap.Groups signatures signatureItems
  /-- There is a signature. -/
  one_le : 1 ≤ signatures.length
  /-- There is a key for each signature. -/
  enough : signatures.length ≤ keys.length

namespace Exec

variable {σ : Type} {m m' : Machine σ} {keys signatures : List Bytes} {rest : List Item}
  {verify : Bytes → Bytes → Bytes → Exec σ Bool} {message : Option Bytes}

/-- On operands of the right shape only the verifications are left to be made. -/
theorem checkMultisigBy_of_has (h : m.HasMultisig keys signatures rest) :
    checkMultisigBy verify message m =
      (match message with
        | some message => do pushBool (← verifyInOrderM (verify message) signatures keys)
        | none => pushBool false) (m.withItems rest) := by
  obtain ⟨⟨keyItems, signatureItems, stack, ofKeys, ofSignatures⟩, one, enough⟩ := h
  have someKeys : ¬keys.isEmpty = true := fun none => by
    rw [List.isEmpty_iff] at none
    rw [none] at enough
    exact Nat.not_succ_le_zero _ (one.trans enough)
  have counts : ¬(signatures.isEmpty = true ∨ signatures.length > keys.length) := by
    rw [not_or, Nat.not_lt, List.isEmpty_iff_length_eq_zero]
    exact ⟨Nat.one_le_iff_ne_zero.1 one, enough⟩
  rw [checkMultisigBy, bind_eq, popGroup_of_groups stack ofKeys (one.trans enough)]
  refine (congrFun (if_neg someKeys) _).trans ?_
  dsimp only
  rw [bind_eq, popGroup_of_groups (m := m.withItems (signatureItems ++ rest)) rfl ofSignatures one]
  exact congrFun (if_neg counts) _

/-- On any other operands it fails. -/
theorem has_of_checkMultisigBy (h : checkMultisigBy verify message m = .ok () m') :
    ∃ keys signatures rest, m.HasMultisig keys signatures rest := by
  obtain ⟨keys, keyItems, _, stack, ofKeys, h⟩ := (takes_popGroup _).of_bind h
  obtain ⟨-, h⟩ := eq_ok_of_guarded (fun u m' => fail_ne_ok _ u) h
  obtain ⟨signatures, signatureItems, rest, stack', ofSignatures, h⟩ :=
    (takes_popGroup _).of_bind h
  obtain ⟨counts, -⟩ := eq_ok_of_guarded (fun u m' => fail_ne_ok _ u) h
  rw [Machine.items_withItems] at stack'
  subst stack'
  rw [not_or, Nat.not_lt, List.isEmpty_iff_length_eq_zero] at counts
  exact ⟨keys, signatures, rest, ⟨keyItems, signatureItems, stack, ofKeys, ofSignatures⟩,
    Nat.one_le_iff_ne_zero.2 counts.1, counts.2⟩

/-- What the world has been told after a list of verifications. -/
theorem forM_tell {γ : Type} (note : σ → γ → σ) (calls : List γ) (m : Machine σ) :
    (forM calls fun call => tell (note · call)) m =
      .ok () { m with world := calls.foldl note m.world } := by
  induction calls generalizing m with
  | nil => rfl
  | cons call calls ih =>
    rw [List.forM_cons, bind_eq]
    exact ih _

theorem verifyInOrderM_noting_eq (verify : Bytes → Bytes → Bytes → Bool)
    (note : σ → Bytes × Bytes × Bytes → σ) (message : Bytes) (signatures keys : List Bytes)
    (m : Machine σ) :
    verifyInOrderM (noting verify note message) signatures keys m =
      .ok (verifyInOrder (verify message) signatures keys)
        { m with
          world := (tried (verify message) signatures keys).foldl
            (fun world call => note world (message, call)) m.world } := by
  have noted : verifyInOrderM (noting verify note message) signatures keys = _ :=
    verifyInOrderM_noting (fun call => tell (note · (message, call))) signatures keys
  rw [noted, bind_eq, forM_tell fun world call => note world (message, call)]
  rfl

/-- The instruction is the case in which nobody is told of the verifications. -/
theorem checkMultisig_eq (message : Option Bytes) :
    (checkMultisig message : Exec σ Unit) =
      checkMultisigBy (noting Signature.verify fun world _ => world) message := by
  rw [checkMultisig, checkMultisigBy]
  cases message with
  | none => rfl
  | some message =>
    have silent (signatures keys : List Bytes) :
        (verifyInOrderM (noting Signature.verify (fun world _ => world) message) signatures keys :
          Exec σ Bool) = pure (verifyInOrder (Signature.verify message) signatures keys) := by
      funext m
      rw [verifyInOrderM_noting_eq, List.foldl_fixed]
      rfl
    simp only [silent, pure_bind]

end Exec

/-- **Checking several signatures decides matching in order.**  The instruction, with a note taken
of each verification, pushes a truth value if its operands are a group of keys and a group of
signatures of the right sizes: whether there is a message under which the signatures verify in the
order of the keys.  No more verifications than keys are made.  On all other operands it fails.  The
instruction that a script runs is the case in which the note is dropped. -/
theorem multisig_decides_matching {σ : Type} (message : Option Bytes) :
    (Exec.crypto message .checkMultisig : Exec σ Unit) =
      Exec.checkMultisigBy (Exec.noting Signature.verify fun world _ => world) message ∧
    ∀ (verify : Bytes → Bytes → Bytes → Bool) (note : σ → Bytes × Bytes × Bytes → σ)
      (m : Machine σ),
      (∀ keys signatures rest, m.HasMultisig keys signatures rest →
        ∃ (answer : Bool) (calls : List (Bytes × Bytes × Bytes)),
          Exec.checkMultisigBy (Exec.noting verify note) message m =
            .ok () { m.withItems (.ofBool answer :: rest) with
              world := calls.foldl note m.world } ∧
          calls.length ≤ keys.length ∧
          (answer = true ↔ ∃ text, message = some text ∧ InOrder (verify text) signatures keys)) ∧
      ((¬∃ keys signatures rest, m.HasMultisig keys signatures rest) →
        ∃ fault m', Exec.checkMultisigBy (Exec.noting verify note) message m =
          .error fault m') := by
  refine ⟨Exec.checkMultisig_eq message, fun verify note m =>
    ⟨fun keys signatures rest has => ?_, fun other => ?_⟩⟩
  · rw [Exec.checkMultisigBy_of_has has]
    cases message with
    | none => exact ⟨false, [], rfl, Nat.zero_le _, nofun, fun ⟨_, absent, _⟩ => nomatch absent⟩
    | some text =>
      refine ⟨verifyInOrder (verify text) signatures keys,
        (tried (verify text) signatures keys).map (Prod.mk text), ?_, ?_, ?_⟩
      · dsimp only
        rw [Exec.bind_eq, Exec.verifyInOrderM_noting_eq, List.foldl_map]
        rfl
      · rw [List.length_map]
        exact length_tried_le signatures keys
      · rw [verifyInOrder_iff_inOrder]
        exact ⟨fun matched => ⟨text, rfl, matched⟩, fun ⟨_, same, matched⟩ => by
          cases same
          exact matched⟩
  · cases result : Exec.checkMultisigBy (Exec.noting verify note) message m with
    | ok _ m' => exact absurd (Exec.has_of_checkMultisigBy result) other
    | error fault m' => exact ⟨fault, m', rfl⟩

/-- An array of three keys on top of two signatures with their number. -/
def Machine.twoOfThree : Machine (List (Bytes × Bytes × Bytes)) :=
  let heap := Heap.empty.makeSequence .array [.ofBytes [2], .ofBytes [3], .ofBytes [5]]
  { Machine.idle [] with heap := heap.1 }.withItems
    [.seq heap.2, .ofInt 2, .ofBytes [2, 3], .ofBytes [3]]

theorem Machine.hasMultisig_twoOfThree :
    twoOfThree.HasMultisig [[2], [3], [5]] [[2, 3], [3]] [] where
  groups := ⟨[_], [_, _, _], rfl, .sequence (by decide +kernel),
    .counted nofun (by decide +kernel) (by decide +kernel)⟩
  one_le := by decide
  enough := by decide

theorem Machine.not_hasMultisig_idle {σ : Type} (world : σ) :
    ¬∃ keys signatures rest, (Machine.idle world).HasMultisig keys signatures rest := by
  rintro ⟨keys, signatures, rest, ⟨keyItems, signatureItems, stack, ofKeys, -⟩, -, -⟩
  obtain rfl : keyItems = [] := (List.append_eq_nil_iff.1 stack.symm).1
  cases ofKeys

/-- The second of three keys is left for the second signature, while an empty stack is refused. -/
theorem multisig_decides_two_of_three :
    let check := Exec.checkMultisigBy
      (Exec.noting (fun _ s k => decide (k ⊆ s)) fun calls call => call :: calls) (some [])
    (∃ calls : List (Bytes × Bytes × Bytes),
      check Machine.twoOfThree = .ok () { Machine.twoOfThree.withItems [.ofBool true] with
        world := calls.foldl (fun calls call => call :: calls) [] } ∧ calls.length ≤ 3) ∧
    ∃ fault m', check (Machine.idle []) = .error fault m' := by
  have decides := (multisig_decides_matching (some [])).2 (fun _ s k => decide (k ⊆ s))
    fun calls call => call :: calls
  refine ⟨?_, (decides (.idle [])).2 (Machine.not_hasMultisig_idle [])⟩
  obtain ⟨answer, calls, result, few, matched⟩ :=
    (decides .twoOfThree).1 _ _ _ Machine.hasMultisig_twoOfThree
  obtain rfl : answer = true :=
    matched.2 ⟨[], rfl, Fin.castSucc, Fin.strictMono_castSucc, by decide⟩
  exact ⟨calls, result, few⟩

end DryRun
