import DryRun.Machine.Step
import DryRun.Proofs.Heap.Growth
import DryRun.Proofs.Item.Stack
import DryRun.Proofs.Machine.Operands
import Mathlib.Data.List.Rotate

/-!
# Moving items by position

The instructions that move, copy and drop items are written with operations at a position, and some
of them pop that position first, so that everything below has moved up by one when it is looked at.
What they should do is said here by drawing the stacks before and after: `StackOp.Rearranges` has
one picture for each instruction, in which a position is the number of items that lie above.

An instruction succeeds exactly where its picture fits, and with what the picture shows.

* `Exec.shuffle_eq_ok_iff` — every instruction succeeds exactly as its picture shows.
* `Exec.pack_eq_ok_iff`, `Exec.unpack_eq_ok_iff` — the same for arrays that are made of the top
  items and taken apart.
-/

set_option autoImplicit false

namespace DryRun

variable {σ α β : Type}

/-- The items on the evaluation stack and those on the alternative one, top first. -/
abbrev Stacks := List Item × List Item

namespace StackOp

/-! ## The pictures -/

/-- Does the instruction pop a position first? -/
def takesIndex : StackOp → Bool
  | .dropAt | .swapAt | .tuckAt | .pick | .roll => true
  | _ => false

/-- What an instruction makes of the stacks.  A position `n` that it takes is off the stack
already. -/
inductive Rearranges : StackOp → (n : Nat) → Stacks → Stacks → Prop where
  /-- The top twice. -/
  | dup {n : Nat} {x : Item} {s a : List Item} :
    Rearranges .dup n (x :: s, a) (x :: x :: s, a)
  /-- The second item once more, on top. -/
  | over {n : Nat} {x y : Item} {s a : List Item} :
    Rearranges .over n (x :: y :: s, a) (y :: x :: y :: s, a)
  /-- The item with `n` items above it once more, on top. -/
  | pick {n : Nat} {x : Item} {above s a : List Item} (place : above.length = n) :
    Rearranges .pick n (above ++ x :: s, a) (x :: above ++ x :: s, a)
  /-- The top once more, below the second item. -/
  | tuck {n : Nat} {x y : Item} {s a : List Item} :
    Rearranges .tuck n (x :: y :: s, a) (x :: y :: x :: s, a)
  /-- The top once more, below `n` items of which it is the first. -/
  | tuckAt {n : Nat} {x : Item} {above s a : List Item} (place : above.length + 1 = n) :
    Rearranges .tuckAt n (x :: above ++ s, a) (x :: above ++ x :: s, a)
  /-- The top and the second item have changed places. -/
  | swap {n : Nat} {x y : Item} {s a : List Item} :
    Rearranges .swap n (x :: y :: s, a) (y :: x :: s, a)
  /-- The third item is on top. -/
  | rot {n : Nat} {x y z : Item} {s a : List Item} :
    Rearranges .rot n (x :: y :: z :: s, a) (z :: x :: y :: s, a)
  /-- Nothing is above the top. -/
  | rollZero {s a : List Item} : Rearranges .roll 0 (s, a) (s, a)
  /-- The item with `n` items above it is on top. -/
  | roll {n : Nat} {x : Item} {above s a : List Item} (place : above.length = n) (some : 0 < n) :
    Rearranges .roll n (above ++ x :: s, a) (x :: above ++ s, a)
  /-- The top stays where it is. -/
  | swapZero {s a : List Item} : Rearranges .swapAt 0 (s, a) (s, a)
  /-- The top and the item with `n` items above it have changed places. -/
  | swapAt {n : Nat} {x y : Item} {between s a : List Item} (place : between.length + 1 = n) :
    Rearranges .swapAt n (x :: between ++ y :: s, a) (y :: between ++ x :: s, a)
  /-- The second item is gone. -/
  | nip {n : Nat} {x y : Item} {s a : List Item} : Rearranges .nip n (x :: y :: s, a) (x :: s, a)
  /-- The top is gone. -/
  | drop {n : Nat} {x : Item} {s a : List Item} : Rearranges .drop n (x :: s, a) (s, a)
  /-- The item with `n` items above it is gone. -/
  | dropAt {n : Nat} {x : Item} {above s a : List Item} (place : above.length = n) :
    Rearranges .dropAt n (above ++ x :: s, a) (above ++ s, a)
  /-- The top is on the alternative stack. -/
  | toAlt {n : Nat} {x : Item} {s a : List Item} : Rearranges .toAlt n (x :: s, a) (s, x :: a)
  /-- The top of the alternative stack is back. -/
  | fromAlt {n : Nat} {x : Item} {s a : List Item} : Rearranges .fromAlt n (s, x :: a) (x :: s, a)
  /-- The top of the alternative stack once more, on the evaluation stack. -/
  | dupFromAlt {n : Nat} {x : Item} {s a : List Item} :
    Rearranges .dupFromAlt n (s, x :: a) (x :: s, x :: a)
  /-- The number of items is on top. -/
  | depth {n : Nat} {s a : List Item} :
    Rearranges .depth n (s, a) (.ofInt s.length :: s, a)

end StackOp

namespace Machine

variable (m : Machine σ)

/-- The machine with other items on both stacks. -/
def withStacks (after : Stacks) : Machine σ :=
  { m with stack := { m.stack with items := after.1 }, alt := { m.alt with items := after.2 } }

/-- The stacks have changed as the picture of an instruction shows, for a position `n`. -/
def Pictured (op : StackOp) (n : Nat) (m' : Machine σ) : Prop :=
  ∃ s a after, m.stack.items = s ∧ m.alt.items = a ∧ op.Rearranges n (s, a) after ∧
    m' = m.withStacks after

/-- A machine as an instruction leaves it. -/
inductive Rearranged (op : StackOp) (m' : Machine σ) : Prop where
  /-- No position is taken. -/
  | plain (plain : op.takesIndex = false) (shown : m.Pictured op 0 m')
  /-- The top is a position. -/
  | index {item : Item} {n : Nat} {s : List Item} (takes : op.takesIndex = true)
    (items : m.stack.items = item :: s) (read : item.toInt = .ok (n : Int))
    (shown : (m.withItems s).Pictured op n m')

/-- A machine with an array of its top items in place of them and of their number. -/
def Packed (m' : Machine σ) : Prop :=
  ∃ item top s, m.stack.items = item :: (top ++ s) ∧ item.toInt = .ok (top.length : Int) ∧
    top.length ≤ maxCollectionSize ∧
    m' = { m with heap := (m.heap.makeSequence .array top).1 }.withItems
      (.seq (m.heap.makeSequence .array top).2 :: s)

/-- A machine with the elements of a sequence, the first one uppermost, and their number on top in
place of the sequence. -/
def Unpacked (m' : Machine σ) : Prop :=
  ∃ q s, m.stack.items = .seq q :: s ∧
    m' = m.withItems (.ofInt (m.heap.elements q).length :: (m.heap.elements q ++ s))

end Machine

namespace Exec

variable {m m' : Machine σ} {n : Nat} {x : Item} {above below : List Item}

/-! ## Operations at a position -/

theorem bind_eq_ok_iff {c : Exec σ α} {f : α → Exec σ β} {b : β} :
    (c >>= f) m = .ok b m' ↔ ∃ a m₁, c m = .ok a m₁ ∧ f a m₁ = .ok b m' := by
  refine ⟨bind_eq_ok, ?_⟩
  rintro ⟨a, m₁, first, second⟩
  rw [bind_eq, first]
  exact second

theorem liftStack_eq_ok_iff {r : Except StackFault α} {a : α} :
    (liftM r : Exec σ α) m = .ok a m' ↔ r = .ok a ∧ m' = m := by
  cases r with
  | ok b =>
    show EStateM.Result.ok b m = .ok a m' ↔ _
    rw [EStateM.Result.ok.injEq, Except.ok.injEq, eq_comm (a := m)]
  | error cause => exact ⟨nofun, fun h => nomatch h.1⟩

theorem push_eq (item : Item) (m : Machine σ) :
    push item m = .ok () (m.withItems (item :: m.stack.items)) := rfl

theorem push_eq_ok_iff {item : Item} :
    push item m = .ok () m' ↔ m' = m.withItems (item :: m.stack.items) := by
  rw [push_eq, EStateM.Result.ok.injEq, eq_comm (b := m')]
  exact and_iff_right rfl

theorem pop_eq_ok_iff : pop m = .ok x m' ↔ ∃ s, m.stack.items = x :: s ∧ m' = m.withItems s := by
  constructor
  · intro popped
    obtain ⟨operands, s, items, rfl, left⟩ := (takes_pop : Takes m.heap _ pop) m x m' rfl popped
    exact ⟨s, items, left⟩
  · rintro ⟨s, items, rfl⟩
    exact pop_of_items items

theorem popIndex_eq_ok_iff : popIndex m = .ok n m' ↔
    ∃ item s, m.stack.items = item :: s ∧ item.toInt = .ok (n : Int) ∧ m' = m.withItems s := by
  constructor
  · intro popped
    obtain ⟨v, operands, s, items, ⟨item, rfl, read⟩, rest⟩ :=
      (takes_popInt : Takes m.heap _ popInt).of_bind popped
    obtain ⟨inside, done⟩ := eq_ok_of_guarded (fun _ _ => fail_ne_ok _ _) rest
    cases done
    exact ⟨item, s, items, by rw [read, Int.toNat_of_nonneg (Int.not_lt.1 inside)], rfl⟩
  · rintro ⟨item, s, items, read, rfl⟩
    exact popIndex_of_items items read

theorem peek_eq_ok_iff : peek n m = .ok x m' ↔
    (∃ above below, m.stack.items = above ++ x :: below ∧ above.length = n) ∧ m' = m := by
  rw [peek, get_bind, liftStack_eq_ok_iff, Stack.peek_eq_ok_iff]

theorem peek_zero_eq_ok_iff : peek 0 m = .ok x m' ↔ (∃ s, m.stack.items = x :: s) ∧ m' = m := by
  rw [peek_eq_ok_iff]
  refine and_congr_left fun _ => ⟨?_, fun ⟨s, items⟩ => ⟨[], s, items, rfl⟩⟩
  rintro ⟨above, s, items, place⟩
  obtain rfl := List.eq_nil_of_length_eq_zero place
  exact ⟨s, items⟩

theorem remove_eq_ok_iff : remove n m = .ok x m' ↔
    ∃ above below, m.stack.items = above ++ x :: below ∧ above.length = n ∧
      m' = m.withItems (above ++ below) := by
  rw [remove, get_bind, bind_eq_ok_iff]
  constructor
  · rintro ⟨⟨y, stack⟩, m₁, found, done⟩
    obtain ⟨removed, rfl⟩ := liftStack_eq_ok_iff.1 found
    cases done
    obtain ⟨above, below, items, place, rfl⟩ := Stack.remove_eq_ok_iff.1 removed
    exact ⟨above, below, items, place, rfl⟩
  · rintro ⟨above, below, items, place, rfl⟩
    exact ⟨(x, _), m,
      liftStack_eq_ok_iff.2 ⟨Stack.remove_eq_ok_iff.2 ⟨above, below, items, place, rfl⟩, rfl⟩, rfl⟩

/-- The evaluation stack is replaced where there is one to replace it. -/
theorem setStack_eq_ok_iff {r : Except StackFault Stack} :
    (do
      let stack ← r
      modify fun m => { m with stack } : Exec σ Unit) m = .ok () m' ↔
        ∃ stack, r = .ok stack ∧ m' = { m with stack } := by
  cases r with
  | ok stack =>
    constructor
    · intro h
      cases h
      exact ⟨stack, rfl, rfl⟩
    · rintro ⟨_, same, rfl⟩
      cases same
      rfl
  | error cause => exact ⟨nofun, fun ⟨_, h, _⟩ => nomatch h⟩

theorem insert_eq_ok_iff : insert n x m = .ok () m' ↔
    ∃ above below, m.stack.items = above ++ below ∧ above.length = n ∧
      m' = m.withItems (above ++ x :: below) := by
  rw [insert, get_bind, setStack_eq_ok_iff]
  constructor
  · rintro ⟨stack, inserted, rfl⟩
    obtain ⟨above, below, items, place, rfl⟩ := Stack.insert_eq_ok_iff.1 inserted
    exact ⟨above, below, items, place, rfl⟩
  · rintro ⟨above, below, items, place, rfl⟩
    exact ⟨_, Stack.insert_eq_ok_iff.2 ⟨above, below, items, place, rfl⟩, rfl⟩

theorem replace_eq_ok_iff {y : Item} : replace n y m = .ok () m' ↔
    ∃ above x below, m.stack.items = above ++ x :: below ∧ above.length = n ∧
      m' = m.withItems (above ++ y :: below) := by
  rw [replace, get_bind, setStack_eq_ok_iff]
  constructor
  · rintro ⟨stack, changed, rfl⟩
    obtain ⟨above, x, below, items, place, rfl⟩ := Stack.set_eq_ok_iff.1 changed
    exact ⟨above, x, below, items, place, rfl⟩
  · rintro ⟨above, x, below, items, place, rfl⟩
    exact ⟨_, Stack.set_eq_ok_iff.2 ⟨above, x, below, items, place, rfl⟩, rfl⟩

/-! ## What instructions are made of -/

theorem copyUp_eq_ok_iff : (peek n >>= push) m = .ok () m' ↔
    ∃ above x below, m.stack.items = above ++ x :: below ∧ above.length = n ∧
      m' = m.withItems (x :: above ++ x :: below) := by
  constructor
  · intro done
    obtain ⟨x, m₁, seen, pushed⟩ := bind_eq_ok done
    obtain ⟨⟨above, below, items, place⟩, rfl⟩ := peek_eq_ok_iff.1 seen
    rw [push_eq_ok_iff, items] at pushed
    exact ⟨above, x, below, items, place, pushed⟩
  · rintro ⟨above, x, below, items, place, rfl⟩
    rw [bind_eq, peek_eq_ok_iff.2 ⟨⟨above, below, items, place⟩, rfl⟩]
    dsimp only
    rw [push_eq, items]
    rfl

theorem rollUp_eq_ok_iff : rollUp n m = .ok () m' ↔
    ∃ above x below, m.stack.items = above ++ x :: below ∧ above.length = n ∧
      m' = m.withItems (x :: above ++ below) := by
  constructor
  · intro done
    obtain ⟨x, m₁, removed, pushed⟩ := bind_eq_ok done
    obtain ⟨above, below, items, place, rfl⟩ := remove_eq_ok_iff.1 removed
    exact ⟨above, x, below, items, place, push_eq_ok_iff.1 pushed⟩
  · rintro ⟨above, x, below, items, place, rfl⟩
    rw [rollUp, bind_eq, remove_eq_ok_iff.2 ⟨above, below, items, place, rfl⟩]
    rfl

theorem tuckTop_eq_ok_iff (some_ : 0 < n) : tuckTop n m = .ok () m' ↔
    ∃ x above below, m.stack.items = x :: above ++ below ∧ above.length + 1 = n ∧
      m' = m.withItems (x :: above ++ x :: below) := by
  constructor
  · intro done
    obtain ⟨x, m₁, seen, inserted⟩ := bind_eq_ok done
    obtain ⟨⟨s, items⟩, rfl⟩ := peek_zero_eq_ok_iff.1 seen
    obtain ⟨upper, lower, items', place', rfl⟩ := insert_eq_ok_iff.1 inserted
    cases upper with
    | nil => exact absurd place' some_.ne
    | cons y upper =>
      rw [items] at items'
      obtain ⟨rfl, -⟩ := List.cons.inj items'
      exact ⟨x, upper, lower, items.trans items', place', rfl⟩
  · rintro ⟨x, above, below, items, place, rfl⟩
    rw [tuckTop, bind_eq, peek_zero_eq_ok_iff.2 ⟨⟨above ++ below, items⟩, rfl⟩]
    exact insert_eq_ok_iff.2 ⟨x :: above, below, items, place, rfl⟩

theorem swapWithTop_eq_ok_iff (some_ : 0 < n) : swapWithTop n m = .ok () m' ↔
    ∃ x between y below, m.stack.items = x :: between ++ y :: below ∧ between.length + 1 = n ∧
      m' = m.withItems (y :: between ++ x :: below) := by
  rw [swapWithTop, if_pos some_]
  constructor
  · intro h
    obtain ⟨x, m₁, seen, h₁⟩ := bind_eq_ok h
    obtain ⟨⟨s, items⟩, rfl⟩ := peek_zero_eq_ok_iff.1 seen
    obtain ⟨y, m₂, seen', h₂⟩ := bind_eq_ok h₁
    obtain ⟨⟨upper, below, items', place⟩, rfl⟩ := peek_eq_ok_iff.1 seen'
    obtain ⟨u, m₃, first, second⟩ := bind_eq_ok h₂
    cases upper with
    | nil => exact absurd place some_.ne
    | cons top between =>
      obtain ⟨rfl, -⟩ := List.cons.inj (items.symm.trans items')
      obtain ⟨none, old, rest, cut, nowhere, rfl⟩ := replace_eq_ok_iff.1 first
      obtain rfl := List.eq_nil_of_length_eq_zero nowhere
      obtain ⟨-, rfl⟩ := List.cons.inj (items'.symm.trans cut)
      obtain ⟨upper, old', lower, cut', place', rfl⟩ := replace_eq_ok_iff.1 second
      replace cut' : (y :: between) ++ y :: below = upper ++ old' :: lower := cut'
      obtain ⟨rfl, same⟩ := List.append_inj cut' (place.trans place'.symm)
      obtain ⟨-, rfl⟩ := List.cons.inj same
      exact ⟨x, between, y, below, items', place, rfl⟩
  · rintro ⟨x, between, y, below, items, place, rfl⟩
    have top : replace 0 y m = .ok () (m.withItems (y :: between ++ y :: below)) :=
      replace_eq_ok_iff.2 ⟨[], x, between ++ y :: below, items, rfl, rfl⟩
    have other : replace n x (m.withItems (y :: between ++ y :: below)) =
        .ok () (m.withItems (y :: between ++ x :: below)) :=
      replace_eq_ok_iff.2 ⟨y :: between, y, below, rfl, place, rfl⟩
    rw [bind_eq, peek_zero_eq_ok_iff.2 ⟨⟨between ++ y :: below, items⟩, rfl⟩]
    dsimp only
    rw [bind_eq, peek_eq_ok_iff.2 ⟨⟨x :: between, below, items, place⟩, rfl⟩]
    dsimp only
    rw [bind_eq, top]
    exact other

/-! ## Every instruction as its picture shows -/

section

variable {op : StackOp}

theorem eq_ok_iff_of_plain {c : Exec σ Unit} (plain : op.takesIndex = false)
    (h : c m = .ok () m' ↔ m.Pictured op 0 m') : c m = .ok () m' ↔ m.Rearranged op m' := by
  refine h.trans ⟨.plain plain, fun changed => ?_⟩
  cases changed with
  | plain _ shown => exact shown
  | index takes => rw [plain] at takes; cases takes

theorem eq_ok_iff_of_index {f : Nat → Exec σ Unit} (takes : op.takesIndex = true)
    (h : ∀ n (m : Machine σ), f n m = .ok () m' ↔ m.Pictured op n m') :
    (popIndex >>= f) m = .ok () m' ↔ m.Rearranged op m' := by
  constructor
  · intro done
    obtain ⟨n, m₁, popped, rest⟩ := bind_eq_ok done
    obtain ⟨item, s, items, read, rfl⟩ := popIndex_eq_ok_iff.1 popped
    exact .index takes items read ((h n _).1 rest)
  · intro changed
    cases changed with
    | plain plain => rw [plain] at takes; cases takes
    | index _ items read shown =>
      rw [bind_eq, popIndex_eq_ok_iff.2 ⟨_, _, items, read, rfl⟩]
      exact (h _ _).2 shown

end

theorem dup_eq_ok_iff : (peek 0 >>= push) m = .ok () m' ↔ m.Pictured .dup n m' := by
  rw [copyUp_eq_ok_iff]
  constructor
  · rintro ⟨above, x, s, items, place, rfl⟩
    obtain rfl := List.eq_nil_of_length_eq_zero place
    exact ⟨_, _, _, items, rfl, .dup, rfl⟩
  · rintro ⟨s, a, after, items, rfl, shown, rfl⟩
    cases shown
    exact ⟨[], _, _, items, rfl, rfl⟩

theorem over_eq_ok_iff : (peek 1 >>= push) m = .ok () m' ↔ m.Pictured .over n m' := by
  rw [copyUp_eq_ok_iff]
  constructor
  · rintro ⟨above, y, s, items, place, rfl⟩
    obtain ⟨x, rfl⟩ := List.length_eq_one_iff.1 place
    exact ⟨_, _, _, items, rfl, .over, rfl⟩
  · rintro ⟨s, a, after, items, rfl, shown, rfl⟩
    cases shown
    exact ⟨[_], _, _, items, rfl, rfl⟩

theorem pick_eq_ok_iff : (peek n >>= push) m = .ok () m' ↔ m.Pictured .pick n m' := by
  rw [copyUp_eq_ok_iff]
  constructor
  · rintro ⟨above, x, s, items, place, rfl⟩
    exact ⟨_, _, _, items, rfl, .pick place, rfl⟩
  · rintro ⟨s, a, after, items, rfl, shown, rfl⟩
    cases shown with
    | pick place => exact ⟨_, _, _, items, place, rfl⟩

theorem tuck_eq_ok_iff : tuckTop 2 m = .ok () m' ↔ m.Pictured .tuck n m' := by
  rw [tuckTop_eq_ok_iff (by decide)]
  constructor
  · rintro ⟨x, above, s, items, place, rfl⟩
    obtain ⟨y, rfl⟩ := List.length_eq_one_iff.1 (Nat.succ.inj place)
    exact ⟨_, _, _, items, rfl, .tuck, rfl⟩
  · rintro ⟨s, a, after, items, rfl, shown, rfl⟩
    cases shown
    exact ⟨_, [_], _, items, rfl, rfl⟩

theorem tuckAt_eq_ok_iff :
    (do if n = 0 then fail .tuckAtZero
        tuckTop n : Exec σ Unit) m = .ok () m' ↔ m.Pictured .tuckAt n m' := by
  by_cases zero : n = 0
  · subst zero
    refine ⟨nofun, ?_⟩
    rintro ⟨s, a, after, items, rfl, shown, rfl⟩
    cases shown with
    | tuckAt place => cases place
  · rw [if_neg zero, tuckTop_eq_ok_iff (Nat.pos_of_ne_zero zero)]
    constructor
    · rintro ⟨x, above, s, items, place, rfl⟩
      exact ⟨_, _, _, items, rfl, .tuckAt place, rfl⟩
    · rintro ⟨s, a, after, items, rfl, shown, rfl⟩
      cases shown with
      | tuckAt place => exact ⟨_, _, _, items, place, rfl⟩

theorem swap_eq_ok_iff : rollUp 1 m = .ok () m' ↔ m.Pictured .swap n m' := by
  rw [rollUp_eq_ok_iff]
  constructor
  · rintro ⟨above, y, s, items, place, rfl⟩
    obtain ⟨x, rfl⟩ := List.length_eq_one_iff.1 place
    exact ⟨_, _, _, items, rfl, .swap, rfl⟩
  · rintro ⟨s, a, after, items, rfl, shown, rfl⟩
    cases shown
    exact ⟨[_], _, _, items, rfl, rfl⟩

theorem rot_eq_ok_iff : rollUp 2 m = .ok () m' ↔ m.Pictured .rot n m' := by
  rw [rollUp_eq_ok_iff]
  constructor
  · rintro ⟨above, z, s, items, place, rfl⟩
    obtain ⟨x, y, rfl⟩ := List.length_eq_two.1 place
    exact ⟨_, _, _, items, rfl, .rot, rfl⟩
  · rintro ⟨s, a, after, items, rfl, shown, rfl⟩
    cases shown
    exact ⟨[_, _], _, _, items, rfl, rfl⟩

theorem roll_eq_ok_iff :
    (if n > 0 then rollUp n else pure ()) m = .ok () m' ↔ m.Pictured .roll n m' := by
  by_cases some_ : 0 < n
  · rw [if_pos some_, rollUp_eq_ok_iff]
    constructor
    · rintro ⟨above, x, s, items, place, rfl⟩
      exact ⟨_, _, _, items, rfl, .roll place some_, rfl⟩
    · rintro ⟨s, a, after, items, rfl, shown, rfl⟩
      cases shown with
      | rollZero => cases some_
      | roll place _ => exact ⟨_, _, _, items, place, rfl⟩
  · obtain rfl := Nat.eq_zero_of_not_pos some_
    constructor
    · intro h
      cases h
      exact ⟨_, _, _, rfl, rfl, .rollZero, rfl⟩
    · rintro ⟨s, a, after, items, rfl, shown, rfl⟩
      cases shown with
      | rollZero => rw [← items]; rfl
      | roll _ some_ => cases some_

theorem swapAt_eq_ok_iff : swapWithTop n m = .ok () m' ↔ m.Pictured .swapAt n m' := by
  by_cases some_ : 0 < n
  · rw [swapWithTop_eq_ok_iff some_]
    constructor
    · rintro ⟨x, between, y, s, items, place, rfl⟩
      exact ⟨_, _, _, items, rfl, .swapAt place, rfl⟩
    · rintro ⟨s, a, after, items, rfl, shown, rfl⟩
      cases shown with
      | swapZero => cases some_
      | swapAt place => exact ⟨_, _, _, _, items, place, rfl⟩
  · obtain rfl := Nat.eq_zero_of_not_pos some_
    constructor
    · intro h
      cases h
      exact ⟨_, _, _, rfl, rfl, .swapZero, rfl⟩
    · rintro ⟨s, a, after, items, rfl, shown, rfl⟩
      cases shown with
      | swapZero => rw [← items]; rfl
      | swapAt place => cases place

/-- Dropping an item is removing it and forgetting it. -/
theorem discard_eq_ok_iff : (remove n >>= fun _ => pure ()) m = .ok () m' ↔
    ∃ above x below, m.stack.items = above ++ x :: below ∧ above.length = n ∧
      m' = m.withItems (above ++ below) := by
  constructor
  · intro h
    obtain ⟨x, m₁, removed, rest⟩ := bind_eq_ok h
    cases rest
    obtain ⟨above, below, cut⟩ := remove_eq_ok_iff.1 removed
    exact ⟨above, x, below, cut⟩
  · rintro ⟨above, x, below, cut⟩
    rw [bind_eq, remove_eq_ok_iff.2 ⟨above, below, cut⟩]
    rfl

theorem nip_eq_ok_iff : (remove 1 >>= fun _ => pure ()) m = .ok () m' ↔ m.Pictured .nip n m' := by
  rw [discard_eq_ok_iff]
  constructor
  · rintro ⟨above, y, s, items, place, rfl⟩
    obtain ⟨x, rfl⟩ := List.length_eq_one_iff.1 place
    exact ⟨_, _, _, items, rfl, .nip, rfl⟩
  · rintro ⟨s, a, after, items, rfl, shown, rfl⟩
    cases shown
    exact ⟨[_], _, _, items, rfl, rfl⟩

theorem dropAt_eq_ok_iff :
    (remove n >>= fun _ => pure ()) m = .ok () m' ↔ m.Pictured .dropAt n m' := by
  rw [discard_eq_ok_iff]
  constructor
  · rintro ⟨above, x, s, items, place, rfl⟩
    exact ⟨_, _, _, items, rfl, .dropAt place, rfl⟩
  · rintro ⟨s, a, after, items, rfl, shown, rfl⟩
    cases shown with
    | dropAt place => exact ⟨_, _, _, items, place, rfl⟩

theorem drop_eq_ok_iff : (pop >>= fun _ => pure ()) m = .ok () m' ↔ m.Pictured .drop n m' := by
  constructor
  · intro h
    obtain ⟨x, m₁, popped, rest⟩ := bind_eq_ok h
    cases rest
    obtain ⟨s, items, rfl⟩ := pop_eq_ok_iff.1 popped
    exact ⟨_, _, _, items, rfl, .drop, rfl⟩
  · rintro ⟨s, a, after, items, rfl, shown, rfl⟩
    cases shown
    rw [bind_eq, pop_of_items items]
    rfl

theorem toAlt_eq_ok_iff : moveToAlt m = .ok () m' ↔ m.Pictured .toAlt n m' := by
  constructor
  · intro h
    obtain ⟨x, m₁, popped, rest⟩ := bind_eq_ok h
    cases rest
    obtain ⟨s, items, rfl⟩ := pop_eq_ok_iff.1 popped
    exact ⟨_, _, _, items, rfl, .toAlt, rfl⟩
  · rintro ⟨s, a, after, items, rfl, shown, rfl⟩
    cases shown
    rw [moveToAlt, bind_eq, pop_of_items items]
    rfl

theorem fromAlt_eq_ok_iff : moveFromAlt m = .ok () m' ↔ m.Pictured .fromAlt n m' := by
  obtain ⟨frames, stack, ⟨name, items⟩, heap, gas, status, world⟩ := m
  constructor
  · intro h
    cases items with
    | nil => cases h
    | cons x a =>
      cases h
      exact ⟨_, _, _, rfl, rfl, .fromAlt, rfl⟩
  · rintro ⟨s, a, after, rfl, items, shown, rfl⟩
    cases shown
    cases items
    rfl

theorem dupFromAlt_eq_ok_iff : (do push (← (← get).alt.peek 0) : Exec σ Unit) m = .ok () m' ↔
    m.Pictured .dupFromAlt n m' := by
  obtain ⟨frames, stack, ⟨name, items⟩, heap, gas, status, world⟩ := m
  constructor
  · intro h
    cases items with
    | nil => cases h
    | cons x a =>
      cases h
      exact ⟨_, _, _, rfl, rfl, .dupFromAlt, rfl⟩
  · rintro ⟨s, a, after, rfl, items, shown, rfl⟩
    cases shown
    cases items
    rfl

theorem depth_eq_ok_iff : (do pushInt (← get).stack.depth : Exec σ Unit) m = .ok () m' ↔
    m.Pictured .depth n m' := by
  constructor
  · intro h
    cases h
    exact ⟨_, _, _, rfl, rfl, .depth, rfl⟩
  · rintro ⟨s, a, after, rfl, rfl, shown, rfl⟩
    cases shown
    rfl

/-- **An instruction succeeds exactly as its picture shows**, and fails where the picture does not
fit. -/
theorem shuffle_eq_ok_iff (op : StackOp) : shuffle op m = .ok () m' ↔ m.Rearranged op m' := by
  cases op with
  | dupFromAlt => exact eq_ok_iff_of_plain rfl dupFromAlt_eq_ok_iff
  | toAlt => exact eq_ok_iff_of_plain rfl toAlt_eq_ok_iff
  | fromAlt => exact eq_ok_iff_of_plain rfl fromAlt_eq_ok_iff
  | dropAt => exact eq_ok_iff_of_index rfl fun _ _ => dropAt_eq_ok_iff
  | swapAt => exact eq_ok_iff_of_index rfl fun _ _ => swapAt_eq_ok_iff
  | tuckAt => exact eq_ok_iff_of_index rfl fun _ _ => tuckAt_eq_ok_iff
  | depth => exact eq_ok_iff_of_plain rfl depth_eq_ok_iff
  | drop => exact eq_ok_iff_of_plain rfl drop_eq_ok_iff
  | dup => exact eq_ok_iff_of_plain rfl dup_eq_ok_iff
  | nip => exact eq_ok_iff_of_plain rfl nip_eq_ok_iff
  | «over» => exact eq_ok_iff_of_plain rfl over_eq_ok_iff
  | pick => exact eq_ok_iff_of_index rfl fun _ _ => pick_eq_ok_iff
  | roll => exact eq_ok_iff_of_index rfl fun _ _ => roll_eq_ok_iff
  | rot => exact eq_ok_iff_of_plain rfl rot_eq_ok_iff
  | swap => exact eq_ok_iff_of_plain rfl swap_eq_ok_iff
  | tuck => exact eq_ok_iff_of_plain rfl tuck_eq_ok_iff

/-! ## Arrays of the top items -/

/-- Popping several items takes them off from the top. -/
theorem popEach_eq_ok_iff (l : List Unit) : ∀ {m m' : Machine σ} {top : List Item},
    (l.mapM fun _ => pop) m = .ok top m' ↔
      top.length = l.length ∧ ∃ s, m.stack.items = top ++ s ∧ m' = m.withItems s := by
  induction l with
  | nil =>
    intro m m' top
    constructor
    · intro h
      cases h
      exact ⟨rfl, m.stack.items, rfl, rfl⟩
    · rintro ⟨none, s, items, rfl⟩
      obtain rfl := List.eq_nil_of_length_eq_zero none
      rw [show s = m.stack.items from items.symm]
      rfl
  | cons u l ih =>
    intro m m' top
    rw [List.mapM_cons (m := Exec σ)]
    constructor
    · intro h
      obtain ⟨x, m₁, popped, h₁⟩ := bind_eq_ok h
      obtain ⟨more, m₂, taken, h₂⟩ := bind_eq_ok h₁
      obtain ⟨s, items, rfl⟩ := pop_eq_ok_iff.1 popped
      obtain ⟨count, s', items', rfl⟩ := ih.1 taken
      cases h₂
      exact ⟨congrArg (· + 1) count, s', items.trans (congrArg (x :: ·) items'), rfl⟩
    · rintro ⟨count, s, items, rfl⟩
      cases top with
      | nil => cases count
      | cons x top =>
        rw [bind_eq, pop_of_items items]
        dsimp only
        rw [bind_eq, ih.2 ⟨Nat.succ.inj count, s, rfl, rfl⟩]
        rfl

theorem pack_eq_ok_iff : pack m = .ok () m' ↔ m.Packed m' := by
  constructor
  · intro h
    obtain ⟨n, m₁, popped, h₁⟩ := bind_eq_ok h
    obtain ⟨item, s, items, read, rfl⟩ := popIndex_eq_ok_iff.1 popped
    rw [get_bind] at h₁
    obtain ⟨few, h₂⟩ := eq_ok_of_guarded (fun _ _ => fail_ne_ok _ _) h₁
    obtain ⟨top, m₂, taken, pushed⟩ := bind_eq_ok h₂
    obtain ⟨count, rest, cut, rfl⟩ := (popEach_eq_ok_iff _).1 taken
    cases pushed
    rw [List.length_replicate] at count
    subst count
    exact ⟨item, top, rest, items.trans (congrArg (item :: ·) cut), read,
      Nat.not_lt.1 fun more => few (.inr more), rfl⟩
  · rintro ⟨item, top, s, items, read, small, rfl⟩
    have few : ¬(top.length > (m.withItems (top ++ s)).stack.depth ∨
        top.length > maxCollectionSize) := by
      rw [Stack.depth, Machine.items_withItems, List.length_append]
      omega
    rw [pack, bind_eq, popIndex_of_items items read]
    dsimp only
    rw [get_bind, if_neg few, bind_eq,
      (popEach_eq_ok_iff _).2 ⟨List.length_replicate.symm, s, rfl, rfl⟩]
    rfl

/-- Pushing items one by one turns them over. -/
theorem pushEach_eq (l : List Item) (m : Machine σ) :
    l.forM push m = .ok () (m.withItems (l.reverse ++ m.stack.items)) := by
  induction l generalizing m with
  | nil => rfl
  | cons x l ih =>
    show (push x >>= fun _ => l.forM push) m = _
    rw [bind_eq, push_eq]
    dsimp only
    rw [ih, Machine.items_withItems, Machine.withItems_withItems, List.reverse_cons,
      List.append_assoc]
    rfl

theorem unpack_eq_ok_iff : unpack m = .ok () m' ↔ m.Unpacked m' := by
  have seq (q : Sequence) (s : List Item) (items : m.stack.items = .seq q :: s) :
      unpack m =
        .ok () (m.withItems (.ofInt (m.heap.elements q).length :: (m.heap.elements q ++ s))) := by
    rw [unpack, bind_eq, pop_of_items items]
    dsimp only
    rw [get_bind, Machine.heap_withItems, bind_eq, pushEach_eq, List.reverse_reverse]
    rfl
  constructor
  · intro h
    obtain ⟨x, m₁, popped, h₁⟩ := bind_eq_ok h
    obtain ⟨s, items, rfl⟩ := pop_eq_ok_iff.1 popped
    cases x with
    | seq q =>
      rw [seq q s items] at h
      cases h
      exact ⟨q, s, items, rfl⟩
    | _ => cases h₁
  · rintro ⟨q, s, items, rfl⟩
    exact seq q s items

end Exec

end DryRun
