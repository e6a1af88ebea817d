import DryRun.Proofs.Machine.Shuffle
import Mathlib.Data.List.Perm.Basic

/-!
# Rearranging the stack

The instructions that rearrange the stack fall into groups: some change nothing but the order, some
add one item that is there already, some drop one.  Each of these facts is about the pictures of the
instructions alone, since an instruction does what its picture shows.  What lies below the deepest
position that is touched, `StackOp.reach`, stays where it is, and that such a position is there is
all that an instruction asks of the stack.

Three ways lead back to where one started: to exchange two items twice, to roll as many items as
many times as there are, and to make an array and take it apart.

* `StackOp.exists_rearranges_iff` — where an instruction has a result.
* `StackOp.Rearranges.perm`, `StackOp.Rearranges.insertIdx`, `StackOp.Rearranges.eraseIdx`,
  `StackOp.Rearranges.drop_reach` — the groups, and what lies below.
* `Exec.again_swapAt`, `Exec.again_roll`, `Exec.pack_unpack` — the ways back.
* `stack_rearrangement` — all of it.
-/

set_option autoImplicit false

namespace DryRun

variable {σ : Type}

namespace StackOp

/-! ## Groups of instructions -/

/-- Does the instruction change nothing but the order of the items? -/
def reorders : StackOp → Bool
  | .swap | .rot | .roll | .swapAt => true
  | _ => false

/-- The instruction copies the item at one place of the evaluation stack to another place. -/
inductive Copies : StackOp → (n source target : Nat) → Prop where
  /-- The top, to the top. -/
  | dup {n : Nat} : Copies .dup n 0 0
  /-- The second item, to the top. -/
  | over {n : Nat} : Copies .over n 1 0
  /-- The item at the position, to the top. -/
  | pick {n : Nat} : Copies .pick n n 0
  /-- The top, below the second item. -/
  | tuck {n : Nat} : Copies .tuck n 0 2
  /-- The top, to the position. -/
  | tuckAt {n : Nat} : Copies .tuckAt n 0 n

/-- The instruction drops the item at a place. -/
inductive Drops : StackOp → (n place : Nat) → Prop where
  /-- The top. -/
  | drop {n : Nat} : Drops .drop n 0
  /-- The second item. -/
  | nip {n : Nat} : Drops .nip n 1
  /-- The item at the position. -/
  | dropAt {n : Nat} : Drops .dropAt n n

/-- How many items of the evaluation stack the instruction touches, from the top down to the deepest
one. -/
def reach (n : Nat) : StackOp → Nat
  | .dup | .drop | .toAlt => 1
  | .over | .tuck | .swap | .nip => 2
  | .rot => 3
  | .pick | .dropAt => n + 1
  | .roll | .swapAt => if n = 0 then 0 else n + 1
  | .tuckAt => n
  | .fromAlt | .dupFromAlt | .depth => 0

/-- How many items of the alternative stack the instruction touches. -/
def altReach : StackOp → Nat
  | .fromAlt | .dupFromAlt => 1
  | _ => 0

/-- What an instruction touches is there, and a copy of the top is not put on top. -/
structure Fits (op : StackOp) (n : Nat) (before : Stacks) : Prop where
  /-- The evaluation stack is deep enough. -/
  reach : op.reach n ≤ before.1.length
  /-- The alternative stack is deep enough. -/
  altReach : op.altReach ≤ before.2.length
  /-- The copy has a place below the top. -/
  below : op = .tuckAt → n ≠ 0

variable {op : StackOp} {n : Nat} {s s' a a' : List Item}

namespace Rearranges

variable (h : op.Rearranges n (s, a) (s', a'))
include h

/-- What only changes the order loses no item and adds none. -/
theorem perm (only : op.reorders = true) : s'.Perm s ∧ a' = a := by
  cases h with
  | swap => exact ⟨.swap _ _ _, rfl⟩
  | @rot n x y z s =>
    have turned : ([x, y] ++ z :: s).Perm (z :: ([x, y] ++ s)) := List.perm_middle
    exact ⟨turned.symm, rfl⟩
  | rollZero => exact ⟨.refl _, rfl⟩
  | roll => exact ⟨List.perm_middle.symm, rfl⟩
  | swapZero => exact ⟨.refl _, rfl⟩
  | @swapAt n x y between s =>
    exact ⟨(List.perm_middle.cons y).trans ((List.Perm.swap _ _ _).trans
      (List.perm_middle.symm.cons x)), rfl⟩
  | _ => cases only

/-- What copies adds one item that is there already. -/
theorem insertIdx {source target : Nat} (copies : op.Copies n source target) :
    ∃ x, s[source]? = some x ∧ target ≤ s.length ∧ s' = s.insertIdx target x ∧ a' = a := by
  cases copies with
  | dup =>
    cases h
    exact ⟨_, rfl, Nat.zero_le _, rfl, rfl⟩
  | «over» =>
    cases h
    exact ⟨_, rfl, Nat.zero_le _, rfl, rfl⟩
  | tuck =>
    cases h
    exact ⟨_, rfl, Nat.le_add_left _ _, rfl, rfl⟩
  | pick =>
    cases h with
    | pick place =>
      subst place
      exact ⟨_, Stack.getElem?_append_cons, Nat.zero_le _, rfl, rfl⟩
  | tuckAt =>
    cases h with
    | @tuckAt _ x above s _ place =>
      subst place
      have put : (x :: above ++ s).insertIdx (x :: above).length x = x :: above ++ x :: s :=
        Stack.insertIdx_append
      exact ⟨x, rfl, by simp, put.symm, rfl⟩

/-- What drops takes one item away. -/
theorem eraseIdx {place : Nat} (drops : op.Drops n place) :
    ∃ x, s[place]? = some x ∧ s' = s.eraseIdx place ∧ a' = a := by
  cases drops with
  | drop =>
    cases h
    exact ⟨_, rfl, rfl, rfl⟩
  | nip =>
    cases h
    exact ⟨_, rfl, rfl, rfl⟩
  | dropAt =>
    cases h with
    | dropAt place =>
      subst place
      exact ⟨_, Stack.getElem?_append_cons, Stack.eraseIdx_append_cons.symm, rfl⟩

/-- What moves between the stacks is lost on neither. -/
theorem perm_append (between : op = .toAlt ∨ op = .fromAlt) : (s' ++ a').Perm (s ++ a) := by
  rcases between with rfl | rfl
  · cases h
    exact List.perm_middle
  · cases h
    exact List.perm_middle.symm

/-- What copies from the alternative stack leaves the item there. -/
theorem eq_cons (copy : op = .dupFromAlt) : ∃ x, a[0]? = some x ∧ s' = x :: s ∧ a' = a := by
  subst copy
  cases h
  exact ⟨_, rfl, rfl, rfl⟩

/-- What lies below the items that are touched stays. -/
theorem drop_reach : ∃ top, s' = top ++ s.drop (op.reach n) := by
  cases h with
  | @dup _ x s => exact ⟨[x, x], rfl⟩
  | @«over» _ x y s => exact ⟨[y, x, y], rfl⟩
  | @pick _ x above s a place =>
    subst place
    exact ⟨x :: above ++ [x], by rw [reach, Stack.drop_append_cons, List.append_assoc]; rfl⟩
  | @tuck _ x y s => exact ⟨[x, y, x], rfl⟩
  | @tuckAt _ x above s a place =>
    subst place
    have rest : (x :: above ++ s).drop (above.length + 1) = s := List.drop_left
    exact ⟨x :: above ++ [x], by rw [reach, rest, List.append_assoc]; rfl⟩
  | @swap _ x y s => exact ⟨[y, x], rfl⟩
  | @rot _ x y z s => exact ⟨[z, x, y], rfl⟩
  | rollZero => exact ⟨[], rfl⟩
  | @roll _ x above s a place some_ =>
    subst place
    refine ⟨x :: above, ?_⟩
    rw [reach, if_neg some_.ne', Stack.drop_append_cons]
  | swapZero => exact ⟨[], rfl⟩
  | @swapAt _ x y between s a place =>
    subst place
    have rest : (x :: between ++ y :: s).drop ((x :: between).length + 1) = s :=
      Stack.drop_append_cons
    rw [List.length_cons] at rest
    refine ⟨y :: between ++ [x], ?_⟩
    rw [reach, if_neg (Nat.succ_ne_zero _), rest, List.append_assoc]
    rfl
  | @nip _ x y s => exact ⟨[x], rfl⟩
  | drop => exact ⟨[], rfl⟩
  | @dropAt _ x above s a place =>
    subst place
    exact ⟨above, by rw [reach, Stack.drop_append_cons]⟩
  | toAlt => exact ⟨[], rfl⟩
  | @fromAlt _ x s => exact ⟨[x], rfl⟩
  | @dupFromAlt _ x s => exact ⟨[x], rfl⟩
  | @depth _ s => exact ⟨[.ofInt s.length], rfl⟩

/-- What is touched is there. -/
theorem fits : op.Fits n (s, a) := by
  refine ⟨?_, ?_, ?_⟩
  · cases h with
    | pick place | dropAt place =>
      rw [reach, ← place, List.length_append, List.length_cons]
      omega
    | tuckAt place =>
      rw [reach, ← place, List.length_append, List.length_cons]
      omega
    | roll place some_ =>
      rw [reach, if_neg some_.ne', ← place, List.length_append, List.length_cons]
      omega
    | swapAt place =>
      rw [reach, ← place, if_neg (Nat.succ_ne_zero _), List.length_append, List.length_cons,
        List.length_cons]
      omega
    | _ => exact Nat.le_add_left _ _
  · cases h <;> exact Nat.le_add_left _ _
  · rintro rfl
    cases h with
    | tuckAt place => exact (place ▸ Nat.succ_ne_zero _)

omit h

end Rearranges

/-- A stack that is deep enough can be cut above an item. -/
theorem exists_cut (deep : n + 1 ≤ s.length) :
    ∃ above x below, s = above ++ x :: below ∧ above.length = n := by
  obtain ⟨above, below, cut⟩ := Stack.getElem?_eq_some_iff_append.1 (List.getElem?_eq_getElem deep)
  exact ⟨above, _, below, cut⟩

/-- **Where an instruction has a result.** -/
theorem exists_rearranges_iff : (∃ after, op.Rearranges n (s, a) after) ↔ op.Fits n (s, a) := by
  refine ⟨fun ⟨after, h⟩ => h.fits, ?_⟩
  rintro ⟨deep, deepAlt, below⟩
  cases op with
  | dup => match s, deep with
    | x :: s, _ => exact ⟨_, .dup⟩
  | «over» => match s, deep with
    | x :: y :: s, _ => exact ⟨_, .over⟩
  | pick =>
    obtain ⟨above, x, below, rfl, place⟩ := exists_cut deep
    exact ⟨_, .pick place⟩
  | tuck => match s, deep with
    | x :: y :: s, _ => exact ⟨_, .tuck⟩
  | tuckAt =>
    obtain ⟨k, rfl⟩ := Nat.exists_eq_succ_of_ne_zero (below rfl)
    match s, deep with
    | x :: s, deep =>
      rw [← List.take_append_drop k s]
      exact ⟨_, .tuckAt (congrArg (· + 1) (List.length_take_of_le (Nat.succ_le_succ_iff.1 deep)))⟩
  | swap => match s, deep with
    | x :: y :: s, _ => exact ⟨_, .swap⟩
  | rot => match s, deep with
    | x :: y :: z :: s, _ => exact ⟨_, .rot⟩
  | roll =>
    by_cases zero : n = 0
    · subst zero
      exact ⟨_, .rollZero⟩
    · rw [reach, if_neg zero] at deep
      obtain ⟨above, x, below, rfl, place⟩ := exists_cut deep
      exact ⟨_, .roll place (Nat.pos_of_ne_zero zero)⟩
  | swapAt =>
    by_cases zero : n = 0
    · subst zero
      exact ⟨_, .swapZero⟩
    · rw [reach, if_neg zero] at deep
      obtain ⟨above, y, below, rfl, place⟩ := exists_cut deep
      match above, place with
      | [], place => exact absurd place.symm zero
      | x :: between, place => exact ⟨_, .swapAt place⟩
  | nip => match s, deep with
    | x :: y :: s, _ => exact ⟨_, .nip⟩
  | drop => match s, deep with
    | x :: s, _ => exact ⟨_, .drop⟩
  | dropAt =>
    obtain ⟨above, x, below, rfl, place⟩ := exists_cut deep
    exact ⟨_, .dropAt place⟩
  | toAlt => match s, deep with
    | x :: s, _ => exact ⟨_, .toAlt⟩
  | fromAlt => match a, deepAlt with
    | x :: a, _ => exact ⟨_, .fromAlt⟩
  | dupFromAlt => match a, deepAlt with
    | x :: a, _ => exact ⟨_, .dupFromAlt⟩
  | depth => exact ⟨_, .depth⟩

end StackOp

/-! ## Ways back -/

namespace Exec

variable {m : Machine σ} {item : Item} {n : Nat}

/-- Do something as often as `k` says, each time with an item that is pushed for it. -/
def again (item : Item) (c : Exec σ Unit) : (k : Nat) → Exec σ Unit
  | 0 => pure ()
  | k + 1 => do
    push item
    c
    again item c k

/-- An instruction on a position that is pushed for it. -/
theorem push_shuffle {op : StackOp} {after : Stacks} (read : item.toInt = .ok (n : Int))
    (takes : op.takesIndex = true)
    (h : op.Rearranges n (m.stack.items, m.alt.items) after) :
    shuffle op (m.withItems (item :: m.stack.items)) = .ok () (m.withStacks after) :=
  (shuffle_eq_ok_iff op).2 (.index takes rfl read ⟨_, _, after, rfl, rfl, h, rfl⟩)

theorem again_succ {op : StackOp} {after : Stacks} (read : item.toInt = .ok (n : Int))
    (takes : op.takesIndex = true)
    (h : op.Rearranges n (m.stack.items, m.alt.items) after) (k : Nat) :
    again item (shuffle op) (k + 1) m = again item (shuffle op) k (m.withStacks after) := by
  rw [again, bind_eq, push_eq]
  dsimp only
  rw [bind_eq, push_shuffle read takes h]

/-- **Exchanging twice** changes nothing. -/
theorem again_swapAt (read : item.toInt = .ok (n : Int))
    (inside : n = 0 ∨ n < m.stack.items.length) : again item (shuffle .swapAt) 2 m = .ok () m := by
  have back (after : Stacks)
      (there : StackOp.Rearranges .swapAt n (m.stack.items, m.alt.items) after)
      (here : StackOp.Rearranges .swapAt n after (m.stack.items, m.alt.items)) :
      again item (shuffle .swapAt) 2 m = .ok () m := by
    rw [again_succ read rfl there, again_succ (m := m.withStacks after) read rfl here]
    rfl
  by_cases zero : n = 0
  · subst zero
    exact back _ .swapZero .swapZero
  · obtain ⟨above, y, below, items, place⟩ := StackOp.exists_cut (inside.resolve_left zero)
    cases above with
    | nil => exact absurd place.symm zero
    | cons x between =>
      refine back (y :: between ++ x :: below, m.alt.items) ?_ ?_
      · rw [items]
        exact .swapAt place
      · rw [items]
        exact .swapAt place

/-- Rolling the upper items turns them. -/
theorem again_roll_rotate (read : item.toInt = .ok (n : Int)) (some_ : 0 < n) (k : Nat) :
    ∀ {m : Machine σ} {upper below : List Item}, upper.length = n + 1 →
      m.stack.items = upper ++ below →
      again item (shuffle .roll) k m = .ok () (m.withItems (upper.rotate (n * k) ++ below)) := by
  induction k with
  | zero =>
    intro m upper below _ items
    rw [Nat.mul_zero, List.rotate_zero, ← items]
    rfl
  | succ k ih =>
    intro m upper below count items
    obtain rfl | ⟨above, x, rfl⟩ := List.eq_nil_or_concat' upper
    · cases count
    have place : above.length = n := by
      rw [List.length_append] at count
      exact Nat.succ.inj count
    have cut : m.stack.items = above ++ x :: below := by rw [items, List.append_assoc]; rfl
    have turned : (above ++ [x]).rotate n = x :: above := by
      rw [← place, List.rotate_append_length_eq]
      rfl
    have step : StackOp.Rearranges .roll n (m.stack.items, m.alt.items)
        (x :: above ++ below, m.alt.items) := by
      rw [cut]
      exact .roll place some_
    rw [again_succ read rfl step, ih (congrArg (· + 1) place) rfl, Nat.mul_succ, Nat.add_comm,
      ← List.rotate_rotate, turned]
    rfl

/-- **Rolling as many items as often as there are** changes nothing. -/
theorem again_roll (read : item.toInt = .ok (n : Int))
    (inside : n = 0 ∨ n < m.stack.items.length) :
    again item (shuffle .roll) (n + 1) m = .ok () m := by
  by_cases zero : n = 0
  · subst zero
    rw [again_succ read rfl .rollZero]
    rfl
  · have count : (m.stack.items.take (n + 1)).length = n + 1 :=
      List.length_take_of_le (inside.resolve_left zero)
    have turned := List.rotate_length_mul (m.stack.items.take (n + 1)) n
    rw [count] at turned
    rw [again_roll_rotate read (Nat.pos_of_ne_zero zero) (n + 1) count
      (List.take_append_drop (n + 1) _).symm, Nat.mul_comm, turned, List.take_append_drop]
    rfl

/-- **An array of the top items, taken apart**, leaves them as they were, below their number. -/
theorem pack_unpack (read : item.toInt = .ok (n : Int)) (deep : n ≤ m.stack.items.length)
    (small : n ≤ maxCollectionSize) :
    (do
      push item
      pack
      unpack : Exec σ Unit) m =
        .ok () ({ m with heap := (m.heap.makeSequence .array (m.stack.items.take n)).1 }.withItems
          (.ofInt n :: m.stack.items)) := by
  have count : (m.stack.items.take n).length = n := List.length_take_of_le deep
  have packed : pack (m.withItems (item :: m.stack.items)) = .ok ()
      ({ m with heap := (m.heap.makeSequence .array (m.stack.items.take n)).1 }.withItems
        (.seq (m.heap.makeSequence .array (m.stack.items.take n)).2 :: m.stack.items.drop n)) := by
    refine pack_eq_ok_iff.2 ⟨item, m.stack.items.take n, m.stack.items.drop n, ?_, ?_, ?_, rfl⟩
    · rw [List.take_append_drop]
      rfl
    · rw [count, read]
    · rw [count]
      exact small
  rw [bind_eq, push_eq]
  dsimp only
  rw [bind_eq, packed]
  refine unpack_eq_ok_iff.2 ⟨_, _, rfl, ?_⟩
  rw [Machine.heap_withItems, Heap.makeSequence_snd, Heap.elements_makeSequence, if_pos rfl, count,
    List.take_append_drop]
  rfl

end Exec

/-! ## The laws -/

/-- What the instructions that rearrange the stacks come to. -/
structure Exec.RearrangementLaws (host : Host σ) (frame : Frame) : Prop where
  /-- Each succeeds where its picture fits, with what the picture shows, and fails everywhere
  else. -/
  exact : ∀ (i : Instruction) op (m m' : Machine σ), i.opcode = .stack op →
    (Exec.execute host frame i m = .ok () m' ↔ m.Rearranged op m')
  /-- An array of the top items is made if there are that many and not too many. -/
  pack : ∀ (i : Instruction) (m m' : Machine σ), i.opcode = .collection .pack →
    (Exec.execute host frame i m = .ok () m' ↔ m.Packed m')
  /-- A sequence is taken apart, and nothing else is. -/
  unpack : ∀ (i : Instruction) (m m' : Machine σ), i.opcode = .collection .unpack →
    (Exec.execute host frame i m = .ok () m' ↔ m.Unpacked m')
  /-- A picture fits if what it touches is there. -/
  fits : ∀ (op : StackOp) n before, (∃ after, op.Rearranges n before after) ↔ op.Fits n before
  /-- What exchanges and rolls loses no item and adds none. -/
  reorders : ∀ (op : StackOp) n s a s' a', op.Rearranges n (s, a) (s', a') → op.reorders = true →
    s'.Perm s ∧ a' = a
  /-- What moves an item from one stack to the other loses none and adds none. -/
  moves : ∀ (op : StackOp) n s a s' a', op.Rearranges n (s, a) (s', a') →
    op = .toAlt ∨ op = .fromAlt → (s' ++ a').Perm (s ++ a)
  /-- What copies adds one item that is there already, at its place. -/
  copies : ∀ (op : StackOp) n source target s a s' a', op.Rearranges n (s, a) (s', a') →
    op.Copies n source target → ∃ x, s[source]? = some x ∧ target ≤ s.length ∧
      s' = s.insertIdx target x ∧ s'.Perm (x :: s) ∧ a' = a
  /-- What copies from the top of the alternative stack leaves the item there. -/
  copiesAlt : ∀ n s a s' a', StackOp.Rearranges .dupFromAlt n (s, a) (s', a') →
    ∃ x, a[0]? = some x ∧ s' = x :: s ∧ a' = a
  /-- What drops takes away one item, from its place. -/
  drops : ∀ (op : StackOp) n place s a s' a', op.Rearranges n (s, a) (s', a') → op.Drops n place →
    ∃ x, s[place]? = some x ∧ s' = s.eraseIdx place ∧ s.Perm (x :: s') ∧ a' = a
  /-- Below the deepest item that is touched everything stays in order. -/
  below : ∀ (op : StackOp) n s a s' a', op.Rearranges n (s, a) (s', a') →
    op.reach n ≤ s.length ∧ ∃ top, s' = top ++ s.drop (op.reach n)
  /-- To exchange twice is to do nothing. -/
  exchange : ∀ (i : Instruction) item n (m : Machine σ), i.opcode = .stack .swapAt →
    item.toInt = .ok (n : Int) → n = 0 ∨ n < m.stack.items.length →
    Exec.again item (Exec.execute host frame i) 2 m = .ok () m
  /-- To roll `n + 1` items `n + 1` times is to do nothing. -/
  roll : ∀ (i : Instruction) item n (m : Machine σ), i.opcode = .stack .roll →
    item.toInt = .ok (n : Int) → n = 0 ∨ n < m.stack.items.length →
    Exec.again item (Exec.execute host frame i) (n + 1) m = .ok () m
  /-- To make an array and take it apart leaves a new array on the heap, and on the stack the number
  of items. -/
  packUnpack : ∀ (i j : Instruction) item n (m : Machine σ), i.opcode = .collection .pack →
    j.opcode = .collection .unpack → item.toInt = .ok (n : Int) →
    n ≤ min m.stack.items.length maxCollectionSize →
    (do
      Exec.push item
      Exec.execute host frame i
      Exec.execute host frame j : Exec σ Unit) m =
        .ok () ({ m with heap := (m.heap.makeSequence .array (m.stack.items.take n)).1 }.withItems
          (.ofInt n :: m.stack.items))

/-- **The stacks are rearranged by position**, and nothing else happens to them. -/
theorem stack_rearrangement (host : Host σ) (frame : Frame) :
    Exec.RearrangementLaws host frame where
  exact i op m m' code := by
    rw [Exec.execute, code]
    exact Exec.shuffle_eq_ok_iff op
  pack i m m' code := by
    rw [Exec.execute, code]
    exact Exec.pack_eq_ok_iff
  unpack i m m' code := by
    rw [Exec.execute, code]
    exact Exec.unpack_eq_ok_iff
  fits _ _ _ := StackOp.exists_rearranges_iff
  reorders _ _ _ _ _ _ h := h.perm
  moves _ _ _ _ _ _ h := h.perm_append
  copies _ _ _ _ _ _ _ _ h copies := by
    obtain ⟨x, found, inside, rfl, same⟩ := h.insertIdx copies
    exact ⟨x, found, inside, rfl, List.perm_insertIdx x _ inside, same⟩
  copiesAlt _ _ _ _ _ h := h.eq_cons rfl
  drops _ _ _ _ _ _ _ h drops := by
    obtain ⟨x, found, rfl, same⟩ := h.eraseIdx drops
    obtain ⟨inside, rfl⟩ := List.getElem?_eq_some_iff.1 found
    exact ⟨_, found, rfl, (List.getElem_cons_eraseIdx_perm inside).symm, same⟩
  below _ _ _ _ _ _ h := ⟨h.fits.reach, h.drop_reach⟩
  exchange i item n m code read inside := by
    have same : Exec.execute host frame i = Exec.shuffle .swapAt := by rw [Exec.execute, code]
    rw [same]
    exact Exec.again_swapAt read inside
  roll i item n m code read inside := by
    have same : Exec.execute host frame i = Exec.shuffle .roll := by rw [Exec.execute, code]
    rw [same]
    exact Exec.again_roll read inside
  packUnpack i j item n m code code' read few := by
    have first : Exec.execute host frame i = Exec.pack := by rw [Exec.execute, code]; rfl
    have second : Exec.execute host frame j = Exec.unpack := by rw [Exec.execute, code']; rfl
    rw [first, second]
    exact Exec.pack_unpack read (few.trans (Nat.min_le_left ..)) (few.trans (Nat.min_le_right ..))

end DryRun
