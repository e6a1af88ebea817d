import DryRun.Machine.Step
import DryRun.Proofs.Heap.Equality
import DryRun.Proofs.Item.Integer
import DryRun.Proofs.Machine.Operands
import DryRun.Proofs.Number.Bitwise
import Mathlib.Data.Rat.Floor
import Mathlib.Tactic.LinearCombination

/-!
# Arithmetic is exact or fails

What an instruction on integers should compute is said here without the instruction:
`Opcode.Computes` lists for each of them the laws that determine its result, and `Opcode.Refuses`
the reasons for which there may be none.

* `Division.unique` — the law of division with remainder determines both quotient and remainder.
* `Opcode.Computes.unique` — the laws of each instruction determine its result.
* `Exec.exact_unary` and the like — each family of instructions pushes the result that the laws
  determine or fails for a reason.
* `arithmetic_is_exact` — all of it, with what is special about division and about bits.
-/

set_option autoImplicit false

namespace DryRun

/-! ## What is computed -/

/-- `a` divided by `b` is `q`, and `r` remains: the rounding is toward zero. -/
structure Division (a b q r : Int) : Prop where
  /-- Nothing is lost. -/
  eq : a = q * b + r
  /-- The remainder is smaller than the divisor. -/
  small : |r| < |b|
  /-- The remainder has the sign of the dividend, if it is not zero. -/
  sign : r = 0 ∨ r.sign = a.sign

/-- What an operation makes of two bits, if it goes bit by bit. -/
def BinaryOp.bit? : BinaryOp → Option (Bool → Bool → Bool)
  | .and => some Bool.and
  | .or => some Bool.or
  | .xor => some Bool.xor
  | _ => none

/-- What a comparison asks. -/
def CompareOp.Holds : CompareOp → Int → Int → Prop
  | .numEqual, a, b => a = b
  | .numNotEqual, a, b => a ≠ b
  | .lt, a, b => a < b
  | .gt, a, b => b < a
  | .lte, a, b => a ≤ b
  | .gte, a, b => b ≤ a

namespace Opcode

/-- How many integers an instruction computes its result from. -/
def arity? : Opcode → Option Nat
  | .unary _ => some 1
  | .binary _ => some 2
  | .compare _ => some 2
  | .shift _ => some 2
  | .logic .not => some 1
  | .logic .nonzero => some 1
  | .logic .within => some 3
  | .logic _ => some 2
  | _ => none

/-- What an instruction computes from integers, which are listed in the order in which they were
pushed. -/
inductive Computes : Opcode → List Int → Primitive → Prop where
  /-- Every bit is flipped. -/
  | invert {x r : Int} (bits : ∀ i, Bitwise.testBit r i = !Bitwise.testBit x i) :
    Computes (.unary .invert) [x] (.int r)
  /-- One more. -/
  | inc {x : Int} : Computes (.unary .inc) [x] (.int (x + 1))
  /-- One less. -/
  | dec {x : Int} : Computes (.unary .dec) [x] (.int (x - 1))
  /-- The sign. -/
  | sign {x : Int} :
    Computes (.unary .sign) [x] (.int (if x < 0 then -1 else if 0 < x then 1 else 0))
  /-- The negative. -/
  | negate {x : Int} : Computes (.unary .negate) [x] (.int (-x))
  /-- The absolute value. -/
  | abs {x : Int} : Computes (.unary .abs) [x] (.int |x|)
  /-- Each bit comes from the bits of the operands in its place. -/
  | bitwise {op : BinaryOp} {f : Bool → Bool → Bool} {a b r : Int} (bit : op.bit? = some f)
    (bits : ∀ i, Bitwise.testBit r i = f (Bitwise.testBit a i) (Bitwise.testBit b i)) :
    Computes (.binary op) [a, b] (.int r)
  /-- The sum. -/
  | add {a b : Int} : Computes (.binary .add) [a, b] (.int (a + b))
  /-- The difference. -/
  | sub {a b : Int} : Computes (.binary .sub) [a, b] (.int (a - b))
  /-- The product. -/
  | mul {a b : Int} : Computes (.binary .mul) [a, b] (.int (a * b))
  /-- The quotient. -/
  | div {a b q r : Int} (law : Division a b q r) : Computes (.binary .div) [a, b] (.int q)
  /-- The remainder. -/
  | mod {a b q r : Int} (law : Division a b q r) : Computes (.binary .mod) [a, b] (.int r)
  /-- The smaller one. -/
  | min {a b : Int} : Computes (.binary .min) [a, b] (.int (Min.min a b))
  /-- The larger one. -/
  | max {a b : Int} : Computes (.binary .max) [a, b] (.int (Max.max a b))
  /-- The product with a power of two. -/
  | shiftLeft {x n : Int} (near : 0 ≤ n ∧ n ≤ 256) :
    Computes (.shift .left) [x, n] (.int (x * 2 ^ n.toNat))
  /-- The floor of the quotient by a power of two. -/
  | shiftRight {x n : Int} (near : 0 ≤ n ∧ n ≤ 256) :
    Computes (.shift .right) [x, n] (.int ⌊(x / 2 ^ n.toNat : ℚ)⌋)
  /-- Whether a comparison holds. -/
  | compare {op : CompareOp} {a b : Int} {r : Bool} (holds : r = true ↔ op.Holds a b) :
    Computes (.compare op) [a, b] (.bool r)
  /-- Whether an integer is zero. -/
  | not {x : Int} : Computes (.logic .not) [x] (.bool (x = 0))
  /-- Whether an integer is not zero. -/
  | nonzero {x : Int} : Computes (.logic .nonzero) [x] (.bool (x ≠ 0))
  /-- Whether neither integer is zero. -/
  | and {a b : Int} : Computes (.logic .and) [a, b] (.bool (a ≠ 0 ∧ b ≠ 0))
  /-- Whether not both integers are zero. -/
  | or {a b : Int} : Computes (.logic .or) [a, b] (.bool (a ≠ 0 ∨ b ≠ 0))
  /-- Whether two integers are equal. -/
  | equal {a b : Int} : Computes (.logic .equal) [a, b] (.bool (a = b))
  /-- Whether an integer lies between two others, the second of which is not included. -/
  | within {x lower upper : Int} :
    Computes (.logic .within) [x, lower, upper] (.bool (lower ≤ x ∧ x < upper))

/-- The reasons for which an instruction on integers may fail. -/
inductive Refuses : Opcode → List Int → Fault → Prop where
  /-- The result is out of range. -/
  | range {op : Opcode} {args : List Int} {v : Int} (computes : Computes op args (.int v))
    (outside : ¬InIntegerRange v) : Refuses op args (.item .resultTooLarge)
  /-- The divisor is zero. -/
  | divisor {op : BinaryOp} {a : Int} (divides : op = .div ∨ op = .mod) :
    Refuses (.binary op) [a, 0] (.machine .divisionByZero)
  /-- The shift is too far. -/
  | distance {op : ShiftOp} {x n : Int} (far : n < 0 ∨ 256 < n) :
    Refuses (.shift op) [x, n] (.machine (.shiftOutOfRange n))

/-- An instruction whose result is never out of range: it works on bits, or shifts to the right by a
distance that is allowed. -/
inductive StaysInRange : Opcode → List Int → Prop where
  /-- All bits are flipped. -/
  | invert {x : Int} : StaysInRange (.unary .invert) [x]
  /-- Bits come from bits in the same place. -/
  | bitwise {op : BinaryOp} {f : Bool → Bool → Bool} {a b : Int} (bit : op.bit? = some f) :
    StaysInRange (.binary op) [a, b]
  /-- Bits move to lower places. -/
  | shiftRight {x n : Int} (near : 0 ≤ n ∧ n ≤ 256) : StaysInRange (.shift .right) [x, n]

end Opcode

/-! ## Division -/

theorem division_tdiv_tmod (a : Int) {b : Int} (h : b ≠ 0) :
    Division a b (a.tdiv b) (a.tmod b) where
  eq := by rw [mul_comm, Int.mul_tdiv_add_tmod]
  small := by
    rw [← Int.natCast_natAbs, ← Int.natCast_natAbs, Int.natAbs_tmod]
    exact Int.ofNat_lt.2 (Nat.mod_lt _ (Int.natAbs_pos.2 h))
  sign := by
    rcases lt_trichotomy a 0 with negative | rfl | positive
    · have below : a.tmod b ≤ 0 := by
        have above := Int.tmod_nonneg b (neg_nonneg.2 negative.le)
        rwa [Int.neg_tmod, neg_nonneg] at above
      rcases below.eq_or_lt with zero | below
      · exact .inl zero
      · exact .inr (by rw [Int.sign_eq_neg_one_of_neg below, Int.sign_eq_neg_one_of_neg negative])
    · exact .inl (Int.zero_tmod b)
    · have above : 0 ≤ a.tmod b := Int.tmod_nonneg b positive.le
      rcases above.eq_or_lt with zero | above
      · exact .inl zero.symm
      · exact .inr (by rw [Int.sign_eq_one_of_pos above, Int.sign_eq_one_of_pos positive])

section

variable {a b q r q' r' : Int}

/-- Nothing can be divided by zero. -/
theorem Division.ne_zero (h : Division a b q r) : b ≠ 0 := by
  rintro rfl
  exact absurd (abs_nonneg r) (not_le.2 (abs_zero (α := Int) ▸ h.small))

theorem Division.nonneg (h : Division a b q r) (ha : 0 ≤ a) : 0 ≤ r := by
  rcases h.sign with rfl | same
  · exact le_rfl
  · rwa [← Int.sign_nonneg_iff, same, Int.sign_nonneg_iff]

theorem Division.nonpos (h : Division a b q r) (ha : a ≤ 0) : r ≤ 0 := by
  rcases h.sign with rfl | same
  · exact le_rfl
  · rwa [← Int.sign_nonpos_iff, same, Int.sign_nonpos_iff]

/-- **Division with remainder** is determined by its law. -/
theorem Division.unique (h : Division a b q r) (h' : Division a b q' r') : q = q' ∧ r = r' := by
  have small := h.small
  have small' := h'.small
  -- Both remainders lie on the same side of zero, so they are less than a divisor apart.
  have close : |r' - r| < |b| := by
    rcases le_total 0 a with ha | ha
    · have above := h.nonneg ha
      have above' := h'.nonneg ha
      rw [abs_of_nonneg above] at small
      rw [abs_of_nonneg above'] at small'
      rw [abs_lt]
      omega
    · have below := h.nonpos ha
      have below' := h'.nonpos ha
      rw [abs_of_nonpos below] at small
      rw [abs_of_nonpos below'] at small'
      rw [abs_lt]
      omega
  have same : q * b + r = q' * b + r' := h.eq.symm.trans h'.eq
  have multiple : |b| ∣ r' - r := (abs_dvd _ _).2 ⟨q - q', by linear_combination -same⟩
  have rest : r' - r = 0 := Int.eq_zero_of_abs_lt_dvd multiple close
  have quotients : q * b = q' * b := by linear_combination same + rest
  exact ⟨mul_right_cancel₀ h.ne_zero quotients, (sub_eq_zero.1 rest).symm⟩

/-- Rounding down would give `-4` and `1`. -/
example : Division (-7) 2 (-3) (-1) := ⟨by decide, by decide, .inr rfl⟩

end

/-! ## Laws and functions -/

namespace Opcode

theorem computes_unary (op : UnaryOp) (x : Int) : Computes (.unary op) [x] (.int (op.eval x)) := by
  cases op with
  | invert => exact .invert (Bitwise.testBit_complement x)
  | inc => exact .inc
  | dec => exact .dec
  | negate => exact .negate
  | sign =>
    have sign : (if x < 0 then -1 else if 0 < x then 1 else 0) = x.sign := by
      rcases lt_trichotomy x 0 with negative | rfl | positive
      · rw [if_pos negative, Int.sign_eq_neg_one_of_neg negative]
      · rfl
      · rw [if_neg positive.not_gt, if_pos positive, Int.sign_eq_one_of_pos positive]
    rw [UnaryOp.eval, ← sign]
    exact .sign
  | abs =>
    rw [UnaryOp.eval, Int.natCast_natAbs]
    exact .abs

/-- Only division by zero has no value. -/
theorem computes_binary (op : BinaryOp) (a b : Int) :
    (∃ v, op.eval a b = .ok v ∧ Computes (.binary op) [a, b] (.int v)) ∨
      (op = .div ∨ op = .mod) ∧ b = 0 ∧ op.eval a b = .error .divisionByZero := by
  cases op with
  | and => exact .inl ⟨_, rfl, .bitwise rfl (Bitwise.testBit_and a b)⟩
  | or => exact .inl ⟨_, rfl, .bitwise rfl (Bitwise.testBit_or a b)⟩
  | xor => exact .inl ⟨_, rfl, .bitwise rfl (Bitwise.testBit_xor a b)⟩
  | add => exact .inl ⟨_, rfl, .add⟩
  | sub => exact .inl ⟨_, rfl, .sub⟩
  | mul => exact .inl ⟨_, rfl, .mul⟩
  | div =>
    by_cases zero : b = 0
    · exact .inr ⟨.inl rfl, zero, if_pos zero⟩
    · exact .inl ⟨_, if_neg zero, .div (division_tdiv_tmod a zero)⟩
  | mod =>
    by_cases zero : b = 0
    · exact .inr ⟨.inr rfl, zero, if_pos zero⟩
    · exact .inl ⟨_, if_neg zero, .mod (division_tdiv_tmod a zero)⟩
  | min => exact .inl ⟨_, rfl, min_def a b ▸ .min⟩
  | max => exact .inl ⟨_, rfl, max_def a b ▸ .max⟩

theorem computes_compare (op : CompareOp) (a b : Int) :
    Computes (.compare op) [a, b] (.bool (op.eval a b)) := by
  refine .compare ?_
  cases op <;> simp [CompareOp.eval, CompareOp.Holds]

theorem computes_shift (op : ShiftOp) (x : Int) {n : Int} (near : 0 ≤ n ∧ n ≤ 256) :
    Computes (.shift op) [x, n] (.int (op.eval x n.toNat)) := by
  have power : ((Nat.pow 2 n.toNat : Nat) : Int) = 2 ^ n.toNat := Int.natCast_pow 2 n.toNat
  cases op with
  | left =>
    rw [ShiftOp.eval, power]
    exact .shiftLeft near
  | right =>
    have floor : ⌊(x / 2 ^ n.toNat : ℚ)⌋ = x / (Nat.pow 2 n.toNat : Nat) := by
      rw [← Rat.floor_intCast_div_natCast]
      simp
    rw [ShiftOp.eval, ← floor]
    exact .shiftRight near

/-- **The laws determine the result.** -/
theorem Computes.unique {op : Opcode} {args : List Int} {r r' : Primitive} (h : Computes op args r)
    (h' : Computes op args r') : r = r' := by
  cases h with
  | invert bits =>
    cases h' with
    | invert bits' =>
      rw [Bitwise.eq_of_testBit_eq fun i => (bits i).trans (bits' i).symm]
  | bitwise bit bits =>
    cases h' with
    | bitwise bit' bits' =>
      cases bit.symm.trans bit'
      rw [Bitwise.eq_of_testBit_eq fun i => (bits i).trans (bits' i).symm]
    | _ => cases bit
  | div law =>
    cases h' with
    | div law' => rw [(law.unique law').1]
    | bitwise bit => cases bit
  | mod law =>
    cases h' with
    | mod law' => rw [(law.unique law').2]
    | bitwise bit => cases bit
  | compare holds =>
    cases h' with
    | compare holds' => rw [Bool.eq_iff_iff.2 (holds.trans holds'.symm)]
  | add | sub | mul | min | max =>
    cases h' with
    | bitwise bit => cases bit
    | _ => rfl
  | _ =>
    cases h'
    rfl

end Opcode

/-! ## Instructions -/

variable {σ : Type}

/-- The integers that an instruction takes lie on top of the stack, the last one first, each of them
in any of its forms. -/
structure Machine.HasIntegers (m : Machine σ) (op : Opcode) (args : List Int) (rest : List Item) :
    Prop where
  /-- There are as many as the instruction takes. -/
  arity : op.arity? = some args.length
  /-- They are the integer forms of the items.  Only where items are compared as they are do these
  have to be integers themselves. -/
  items : ∃ items, m.stack.items = items.reverse ++ rest ∧
    List.Forall₂ (fun item v => Item.toInt item = .ok v) items args ∧
    (op = .logic .equal → items = args.map .ofInt)
  /-- They are in range. -/
  range : ∀ v ∈ args, InIntegerRange v

/-- Two instructions that take as many integers find the same ones. -/
theorem Machine.HasIntegers.congr {m : Machine σ} {op op' : Opcode} {args : List Int}
    {rest : List Item} (h : m.HasIntegers op args rest) (arity : op'.arity? = op.arity?)
    (other : op' ≠ .logic .equal) : m.HasIntegers op' args rest := by
  obtain ⟨items, stack, forms, -⟩ := h.items
  exact ⟨arity.trans h.arity, ⟨items, stack, forms, fun equal => absurd equal other⟩, h.range⟩

namespace Exec

variable {m : Machine σ} {op : Opcode} {args : List Int} {rest : List Item}

/-- What comes of an instruction is what it should compute, pushed in the place of the operands and
in range, or a fault for a reason. -/
def ExactOrFaults (op : Opcode) (args : List Int) (rest : List Item) (m : Machine σ)
    (outcome : EStateM.Result Fault (Machine σ) Unit) : Prop :=
  (∃ r, op.Computes args r ∧ r.InRange ∧ outcome = .ok () (m.withItems (.prim r :: rest))) ∨
    ∃ fault m', op.Refuses args fault ∧ outcome = .error fault m'

/-! ### Operands -/

section

variable (h : m.HasIntegers op args rest)
include h

theorem eq_of_arity_one (arity : op.arity? = some 1) :
    ∃ item a, args = [a] ∧ m.stack.items = item :: rest ∧ item.toInt = .ok a := by
  obtain ⟨items, stack, forms, -⟩ := h.items
  obtain ⟨a, rfl⟩ := List.length_eq_one_iff.1 (Option.some.inj (h.arity.symm.trans arity))
  rcases forms with _ | ⟨form, _ | _⟩
  exact ⟨_, a, rfl, stack, form⟩

theorem eq_of_arity_two (arity : op.arity? = some 2) :
    ∃ left right a b, args = [a, b] ∧ m.stack.items = right :: left :: rest ∧
      left.toInt = .ok a ∧ right.toInt = .ok b ∧
        (op = .logic .equal → left = .ofInt a ∧ right = .ofInt b) := by
  obtain ⟨items, stack, forms, plain⟩ := h.items
  obtain ⟨a, b, rfl⟩ := List.length_eq_two.1 (Option.some.inj (h.arity.symm.trans arity))
  rcases forms with _ | ⟨form, _ | ⟨form', _ | _⟩⟩
  refine ⟨_, _, a, b, rfl, stack, form, form', fun equal => ?_⟩
  have same := plain equal
  simp only [List.map_cons, List.map_nil, List.cons.injEq, and_true] at same
  exact same

theorem eq_of_arity_three (arity : op.arity? = some 3) :
    ∃ x y z a b c, args = [a, b, c] ∧ m.stack.items = z :: y :: x :: rest ∧
      x.toInt = .ok a ∧ y.toInt = .ok b ∧ z.toInt = .ok c := by
  obtain ⟨items, stack, forms, -⟩ := h.items
  obtain ⟨a, b, c, rfl⟩ := List.length_eq_three.1 (Option.some.inj (h.arity.symm.trans arity))
  rcases forms with _ | ⟨form, _ | ⟨form', _ | ⟨form'', _ | _⟩⟩⟩
  exact ⟨_, _, _, a, b, c, rfl, stack, form, form', form''⟩

end

/-- The upper of two integers is popped first and is the right one. -/
theorem popPair_of_items {left right : Item} {a b : Int}
    (stack : m.stack.items = right :: left :: rest) (form : left.toInt = .ok a)
    (form' : right.toInt = .ok b) : popPair m = .ok (a, b) (m.withItems rest) := by
  rw [popPair, bind_eq, popInt_of_items stack form']
  dsimp only
  rw [bind_eq, popInt_of_items (m := m.withItems (left :: rest)) rfl form]
  rfl

/-- The upper of two truth values is popped first, too; an integer is true if it is not zero. -/
theorem popTruths_of_items {left right : Item} {a b : Int} {f : Bool → Bool → Exec σ Unit}
    (stack : m.stack.items = right :: left :: rest) (form : left.toInt = .ok a)
    (form' : right.toInt = .ok b) :
    (do
      let upper ← popBool
      let lower ← popBool
      f lower upper) m = f (a != 0) (b != 0) (m.withItems rest) := by
  rw [bind_eq, popBool_of_items stack]
  dsimp only
  rw [bind_eq, popBool_of_items (m := m.withItems (left :: rest)) rfl,
    Item.toBool_of_toInt form, Item.toBool_of_toInt form']
  rfl

/-! ### Results -/

/-- A result is pushed exactly if it is in range. -/
theorem pushResult_eq (v : Int) (m : Machine σ) :
    pushResult v m =
      if InIntegerRange v then .ok () (m.withItems (.ofInt v :: m.stack.items))
      else .error (.item .resultTooLarge) m := by
  rw [pushResult, checkInteger_eq]
  by_cases inside : InIntegerRange v
  · rw [if_pos inside, if_pos inside]
    rfl
  · rw [if_neg inside, if_neg inside]
    rfl

/-- Pushing the right result, where it is in range, is all there is to do. -/
theorem exact_pushResult {v : Int} (computes : op.Computes args (.int v)) :
    ExactOrFaults op args rest m (pushResult v (m.withItems rest)) := by
  rw [pushResult_eq]
  by_cases inside : InIntegerRange v
  · rw [if_pos inside]
    exact .inl ⟨.int v, computes, inside, rfl⟩
  · rw [if_neg inside]
    exact .inr ⟨_, _, .range computes inside, rfl⟩

theorem exact_pushBool {b : Bool} (computes : op.Computes args (.bool b)) :
    ExactOrFaults op args rest m (pushBool b (m.withItems rest)) :=
  .inl ⟨.bool b, computes, trivial, rfl⟩

/-! ### The families of instructions -/

theorem exact_unary {op : UnaryOp} (h : m.HasIntegers (.unary op) args rest) :
    ExactOrFaults (.unary op) args rest m (unary op m) := by
  obtain ⟨item, a, rfl, stack, form⟩ := eq_of_arity_one h rfl
  rw [unary, bind_eq, popInt_of_items stack form]
  exact exact_pushResult (Opcode.computes_unary op a)

theorem exact_binary {op : BinaryOp} (h : m.HasIntegers (.binary op) args rest) :
    ExactOrFaults (.binary op) args rest m (binary op m) := by
  obtain ⟨left, right, a, b, rfl, stack, form, form', -⟩ := eq_of_arity_two h rfl
  rw [binary, bind_eq, popPair_of_items stack form form']
  dsimp only
  rcases Opcode.computes_binary op a b with ⟨v, value, computes⟩ | ⟨divides, rfl, undefined⟩
  · rw [value]
    exact exact_pushResult computes
  · rw [undefined]
    exact .inr ⟨_, _, .divisor divides, rfl⟩

theorem exact_compare {op : CompareOp} (h : m.HasIntegers (.compare op) args rest) :
    ExactOrFaults (.compare op) args rest m (compare op m) := by
  obtain ⟨left, right, a, b, rfl, stack, form, form', -⟩ := eq_of_arity_two h rfl
  rw [compare, bind_eq, popPair_of_items stack form form']
  exact exact_pushBool (Opcode.computes_compare op a b)

theorem exact_shift {op : ShiftOp} (h : m.HasIntegers (.shift op) args rest) :
    ExactOrFaults (.shift op) args rest m (shift op m) := by
  obtain ⟨left, right, x, n, rfl, stack, form, form', -⟩ := eq_of_arity_two h rfl
  have limit : Machine.maxShift = 256 := rfl
  rw [shift, bind_eq, popInt_of_items stack form']
  dsimp only
  by_cases far : n < 0 ∨ n > Machine.maxShift
  · rw [if_pos far]
    exact .inr ⟨_, _, .distance far, rfl⟩
  · rw [if_neg far, bind_eq, popInt_of_items (m := m.withItems (left :: rest)) rfl form]
    rw [limit] at far
    exact exact_pushResult (Opcode.computes_shift op x (by omega))

theorem exact_logic {op : LogicOp} (h : m.HasIntegers (.logic op) args rest) :
    ExactOrFaults (.logic op) args rest m (logic op m) := by
  cases op with
  | equal =>
    obtain ⟨left, right, a, b, rfl, stack, -, -, plain⟩ := eq_of_arity_two h rfl
    obtain ⟨rfl, rfl⟩ := plain rfl
    have equal (heap : Heap) : heap.equal (.ofInt a) (.ofInt b) = decide (a = b) := by
      rw [Item.ofInt, Item.ofInt, Heap.equal_prim, Bool.eq_iff_iff, beq_iff_eq, decide_eq_true_iff]
      exact TwosComplement.encode_injective.eq_iff
    rw [logic, bind_eq, pop_of_items stack]
    dsimp only
    rw [bind_eq, pop_of_items (m := m.withItems (.ofInt a :: rest)) rfl]
    dsimp only
    rw [get_bind, equal]
    exact exact_pushBool .equal
  | not =>
    obtain ⟨item, a, rfl, stack, form⟩ := eq_of_arity_one h rfl
    have value : (!item.toBool) = decide (a = 0) := by
      rw [Item.toBool_of_toInt form, Bool.eq_iff_iff]
      simp
    rw [logic, bind_eq, popBool_of_items stack]
    dsimp only
    rw [value]
    exact exact_pushBool .not
  | nonzero =>
    obtain ⟨item, a, rfl, stack, form⟩ := eq_of_arity_one h rfl
    have value : (a != 0) = decide (a ≠ 0) := by
      rw [Bool.eq_iff_iff]
      simp
    rw [logic, bind_eq, popInt_of_items stack form]
    dsimp only
    rw [value]
    exact exact_pushBool .nonzero
  | and =>
    obtain ⟨left, right, a, b, rfl, stack, form, form', -⟩ := eq_of_arity_two h rfl
    have value : (a != 0 && b != 0) = decide (a ≠ 0 ∧ b ≠ 0) := by
      rw [Bool.eq_iff_iff]
      simp
    rw [logic, popTruths_of_items stack form form', value]
    exact exact_pushBool .and
  | or =>
    obtain ⟨left, right, a, b, rfl, stack, form, form', -⟩ := eq_of_arity_two h rfl
    have value : (a != 0 || b != 0) = decide (a ≠ 0 ∨ b ≠ 0) := by
      rw [Bool.eq_iff_iff]
      simp
    rw [logic, popTruths_of_items stack form form', value]
    exact exact_pushBool .or
  | within =>
    obtain ⟨x, y, z, a, b, c, rfl, stack, form, form', form''⟩ := eq_of_arity_three h rfl
    have value : (decide (b ≤ a) && decide (a < c)) = decide (b ≤ a ∧ a < c) :=
      (Bool.decide_and _ _).symm
    rw [logic, bind_eq, popInt_of_items stack form'']
    dsimp only
    rw [bind_eq, popInt_of_items (m := m.withItems (y :: x :: rest)) rfl form',
      Machine.withItems_withItems]
    dsimp only
    rw [bind_eq, popInt_of_items (m := m.withItems (x :: rest)) rfl form]
    dsimp only
    rw [value]
    exact exact_pushBool .within

/-- **Every instruction on integers** is exact or fails. -/
theorem exact_execute (host : Host σ) (frame : Frame) {i : Instruction}
    (h : m.HasIntegers i.opcode args rest) :
    ExactOrFaults i.opcode args rest m (execute host frame i m) := by
  rw [execute]
  cases code : i.opcode with
  | unary op => exact exact_unary (code ▸ h)
  | binary op => exact exact_binary (code ▸ h)
  | compare op => exact exact_compare (code ▸ h)
  | shift op => exact exact_shift (code ▸ h)
  | logic op => exact exact_logic (code ▸ h)
  | _ =>
    have arity := h.arity
    rw [code] at arity
    cases arity

end Exec

/-! ## Ranges -/

section

variable {a b q r : Int} (ha : InIntegerRange a)
include ha

/-- **Only one quotient is out of range.** -/
theorem Division.inIntegerRange_quotient_iff (law : Division a b q r) :
    InIntegerRange q ↔ ¬(a = -integerBound ∧ b = -1) := by
  obtain ⟨rfl, -⟩ := law.unique (division_tdiv_tmod a law.ne_zero)
  have some_ := law.ne_zero
  rw [InIntegerRange] at ha ⊢
  by_cases unit : b.natAbs = 1
  · rcases Int.natAbs_eq b with sign | sign <;> rw [unit] at sign
    · rw [show b = 1 from sign, Int.tdiv_one]
      omega
    · rw [show b = -1 from sign, Int.tdiv_neg, Int.tdiv_one]
      omega
  · -- Any other divisor at least halves the distance to zero.
    have size := Int.natAbs_tdiv a b
    have half : a.natAbs / b.natAbs ≤ a.natAbs / 2 := Nat.div_le_div_left (by omega) (by decide)
    have bound : 0 < integerBound := by decide
    change _ = a.natAbs / b.natAbs at size
    omega

omit ha in
/-- A remainder is never out of range. -/
theorem Division.inIntegerRange_remainder (law : Division a b q r) (hb : InIntegerRange b) :
    InIntegerRange r := by
  have small := law.small
  rw [← Int.natCast_natAbs, ← Int.natCast_natAbs] at small
  rw [InIntegerRange] at hb ⊢
  omega

theorem inIntegerRange_shiftRight (n : Nat) : InIntegerRange (ShiftOp.right.eval a n) := by
  have positive : (0 : Int) < (Nat.pow 2 n : Nat) := Int.natCast_pos.2 (Nat.two_pow_pos n)
  have wider : integerBound ≤ integerBound * (Nat.pow 2 n : Nat) :=
    le_mul_of_one_le_right (by decide) positive
  obtain ⟨low, high⟩ := ha
  constructor
  · rw [ShiftOp.eval, Int.le_ediv_iff_mul_le positive, neg_mul]
    exact (neg_le_neg wider).trans low
  · rw [ShiftOp.eval, Int.ediv_lt_iff_lt_mul positive]
    exact high.trans_le wider

end

namespace Opcode

/-- Where there is a result, only its range can be a reason to fail. -/
theorem Refuses.of_computes {op : Opcode} {args : List Int} {fault : Fault} {r : Primitive}
    (h : Refuses op args fault) (computes : Computes op args r) :
    fault = .item .resultTooLarge ∧ ¬r.InRange := by
  cases h with
  | range computes' outside => exact ⟨rfl, computes.unique computes' ▸ outside⟩
  | divisor divides =>
    rcases divides with rfl | rfl
    · cases computes with
      | div law => exact absurd rfl law.ne_zero
      | bitwise bit => cases bit
    · cases computes with
      | mod law => exact absurd rfl law.ne_zero
      | bitwise bit => cases bit
  | distance far =>
    cases computes with
    | shiftLeft near | shiftRight near => omega

/-- What works on bits or shifts to the right stays in range. -/
theorem StaysInRange.inRange {op : Opcode} {args : List Int} {r : Primitive}
    (h : StaysInRange op args) (range : ∀ v ∈ args, InIntegerRange v)
    (computes : Computes op args r) : r.InRange := by
  cases h with
  | @invert x =>
    have hx := range x List.mem_cons_self
    rw [computes.unique (computes_unary .invert x)]
    show InIntegerRange (-x - 1)
    rw [InIntegerRange] at hx ⊢
    omega
  | @bitwise op f a b bit =>
    have ha := range a List.mem_cons_self
    have hb := range b (List.mem_cons_of_mem _ List.mem_cons_self)
    rcases computes_binary op a b with ⟨v, value, computes'⟩ | ⟨rfl | rfl, -, -⟩
    · rw [computes.unique computes']
      cases op with
      | and =>
        cases value
        exact Bitwise.inIntegerRange_and ha hb
      | or =>
        cases value
        exact Bitwise.inIntegerRange_or ha hb
      | xor =>
        cases value
        exact Bitwise.inIntegerRange_xor ha hb
      | _ => cases bit
    · cases bit
    · cases bit
  | @shiftRight x n near =>
    rw [computes.unique (computes_shift .right x near)]
    exact inIntegerRange_shiftRight (range x List.mem_cons_self) n.toNat

/-- What stays in range has no reason to fail. -/
theorem StaysInRange.not_refuses {op : Opcode} {args : List Int} {fault : Fault}
    (h : StaysInRange op args) (range : ∀ v ∈ args, InIntegerRange v) : ¬Refuses op args fault := by
  intro refuses
  cases refuses with
  | range computes outside => exact outside (h.inRange range computes)
  | divisor divides =>
    cases h with
    | bitwise bit => rcases divides with rfl | rfl <;> cases bit
  | distance far =>
    cases h with
    | shiftRight near => omega

end Opcode

namespace Exec.ExactOrFaults

variable {m : Machine σ} {op : Opcode} {args : List Int} {rest : List Item}
  {outcome : EStateM.Result Fault (Machine σ) Unit}

theorem eq_ok {r : Primitive} (h : ExactOrFaults op args rest m outcome)
    (computes : op.Computes args r) (inside : r.InRange) :
    outcome = .ok () (m.withItems (.prim r :: rest)) := by
  rcases h with ⟨r', computes', -, done⟩ | ⟨fault, m', refuses, -⟩
  · rw [done, computes.unique computes']
  · exact absurd inside (refuses.of_computes computes).2

theorem eq_error {v : Int} (h : ExactOrFaults op args rest m outcome)
    (computes : op.Computes args (.int v)) (outside : ¬InIntegerRange v) :
    ∃ m', outcome = .error (.item .resultTooLarge) m' := by
  rcases h with ⟨r, computes', inside, -⟩ | ⟨fault, m', refuses, failed⟩
  · cases computes'.unique computes
    exact absurd inside outside
  · rw [(refuses.of_computes computes).1] at failed
    exact ⟨m', failed⟩

end Exec.ExactOrFaults

/-! ## The laws -/

/-- What instructions on integers come to. -/
structure Exec.ArithmeticLaws (host : Host σ) (frame : Frame) : Prop where
  /-- The laws of an instruction leave no choice. -/
  unique : ∀ op args r r', Opcode.Computes op args r → Opcode.Computes op args r' → r = r'
  /-- Each instruction pushes what the laws say, which is in range, or it fails because that is out
  of range, a divisor is zero or a shift is too far. -/
  exact : ∀ (i : Instruction) (m : Machine σ) args rest, m.HasIntegers i.opcode args rest →
    Exec.ExactOrFaults i.opcode args rest m (Exec.execute host frame i m)
  /-- Division and remainder by anything but zero satisfy the law of division together.  A remainder
  is always pushed, and the one quotient that is not is that of the least integer and `-1`. -/
  division : ∀ (i j : Instruction) (m : Machine σ) a b rest, i.opcode = .binary .div →
    j.opcode = .binary .mod → m.HasIntegers (.binary .div) [a, b] rest → b ≠ 0 →
    ∃ q r, a = q * b + r ∧ |r| < |b| ∧ (r = 0 ∨ r.sign = a.sign) ∧
      (if a = -integerBound ∧ b = -1 then
        ∃ m', Exec.execute host frame i m = .error (.item .resultTooLarge) m'
      else Exec.execute host frame i m = .ok () (m.withItems (.ofInt q :: rest))) ∧
      Exec.execute host frame j m = .ok () (m.withItems (.ofInt r :: rest))
  /-- What works on bits, or shifts to the right by a distance that is allowed, never fails. -/
  closed : ∀ (i : Instruction) (m : Machine σ) args rest, m.HasIntegers i.opcode args rest →
    i.opcode.StaysInRange args → ∃ r, i.opcode.Computes args r ∧ r.InRange ∧
      Exec.execute host frame i m = .ok () (m.withItems (.prim r :: rest))

/-- **All arithmetic is exact or fails**, for one of three reasons. -/
theorem arithmetic_is_exact (host : Host σ) (frame : Frame) : Exec.ArithmeticLaws host frame where
  unique _ _ _ _ := Opcode.Computes.unique
  exact _ _ _ _ := Exec.exact_execute host frame
  division i j m a b rest divides remains h some_ := by
    have law := division_tdiv_tmod a some_
    have ha := h.range a List.mem_cons_self
    have hb := h.range b (List.mem_cons_of_mem _ List.mem_cons_self)
    have quotient : Exec.ExactOrFaults (.binary .div) [a, b] rest m (Exec.execute host frame i m) :=
      divides ▸ Exec.exact_execute host frame (divides.symm ▸ h)
    have remainder :
        Exec.ExactOrFaults (.binary .mod) [a, b] rest m (Exec.execute host frame j m) :=
      remains ▸ Exec.exact_execute host frame (remains.symm ▸ h.congr rfl nofun)
    refine ⟨_, _, law.eq, law.small, law.sign, ?_,
      remainder.eq_ok (.mod law) (law.inIntegerRange_remainder hb)⟩
    split
    · next least =>
      exact quotient.eq_error (.div law) fun inside =>
        (law.inIntegerRange_quotient_iff ha).1 inside least
    · next other => exact quotient.eq_ok (.div law) ((law.inIntegerRange_quotient_iff ha).2 other)
  closed i m args rest h stays := by
    rcases Exec.exact_execute host frame h with done | ⟨fault, m', refuses, -⟩
    · exact done
    · exact absurd refuses (stays.not_refuses h.range)

end DryRun
