import DryRun.Number.Bitwise
import DryRun.Proofs.Item.Limits
import Mathlib.Data.Nat.Bitwise

/-!
# The bits of an integer

An integer is the string of its bits: two integers with the same bits are the same
(`Bitwise.eq_of_testBit_eq`), and each of the operations is what it is called, bit by bit
(`Bitwise.testBit_and` and the like).

All bits from some place on are equal.  `Bitwise.core` is the number of those in front of them, and
the operations on bits never make it longer, so that their results stay in every range whose ends
are powers of two (`Bitwise.inIntegerRange_and` and the like).
-/

set_option autoImplicit false

namespace DryRun.Bitwise

/-! ## Bits -/

theorem testBit_ofNat (m i : Nat) : testBit (.ofNat m) i = m.testBit i := by
  have power : ((Nat.pow 2 i : Nat) : Int) = ((2 ^ i : Nat) : Int) := rfl
  rw [testBit, Nat.testBit_eq_decide_div_mod_eq, decide_eq_decide, power]
  show ((m : Int) / ((2 ^ i : Nat) : Int)) % 2 = 1 ↔ _
  rw [← Int.natCast_ediv]
  omega

theorem testBit_negSucc (m i : Nat) : testBit (.negSucc m) i = !m.testBit i := by
  have power : ((Nat.pow 2 i : Nat) : Int) = ((2 ^ i : Nat) : Int) := rfl
  have positive : (0 : Int) < ((2 ^ i : Nat) : Int) := Int.natCast_pos.2 (Nat.two_pow_pos i)
  rw [testBit, Nat.testBit_eq_decide_div_mod_eq, ← decide_not, decide_eq_decide, power,
    Int.negSucc_ediv _ positive]
  show -(((m : Int) / ((2 ^ i : Nat) : Int)) + 1) % 2 = 1 ↔ _
  rw [← Int.natCast_ediv]
  omega

/-- A natural number and a negative integer differ in their high bits. -/
theorem exists_testBit_ne (m n : Nat) : ∃ i, testBit (.ofNat m) i ≠ testBit (.negSucc n) i := by
  have small (k : Nat) (le : k ≤ m + n) : k.testBit (m + n) = false :=
    Nat.testBit_lt_two_pow (Nat.lt_of_le_of_lt le Nat.lt_two_pow_self)
  refine ⟨m + n, ?_⟩
  rw [testBit_ofNat, testBit_negSucc, small m (Nat.le_add_right m n),
    small n (Nat.le_add_left n m)]
  decide

/-- **An integer is the string of its bits.** -/
theorem eq_of_testBit_eq {v w : Int} (h : ∀ i, testBit v i = testBit w i) : v = w := by
  match v, w with
  | .ofNat m, .ofNat n =>
    congr 1
    refine Nat.eq_of_testBit_eq fun i => ?_
    rw [← testBit_ofNat, ← testBit_ofNat, h]
  | .ofNat m, .negSucc n =>
    obtain ⟨i, other⟩ := exists_testBit_ne m n
    exact absurd (h i) other
  | .negSucc m, .ofNat n =>
    obtain ⟨i, other⟩ := exists_testBit_ne n m
    exact absurd (h i).symm other
  | .negSucc m, .negSucc n =>
    congr 1
    refine Nat.eq_of_testBit_eq fun i => ?_
    rw [← Bool.not_inj_iff, ← testBit_negSucc, ← testBit_negSucc, h]

theorem testBit_without (m n i : Nat) :
    (without m n).testBit i = (m.testBit i && !n.testBit i) := by
  rw [without, Nat.testBit_xor, Nat.testBit_and]
  cases m.testBit i <;> cases n.testBit i <;> rfl

theorem testBit_and (v w : Int) (i : Nat) :
    testBit (and v w) i = (testBit v i && testBit w i) := by
  match v, w with
  | .ofNat m, .ofNat n =>
    rw [and, testBit_ofNat, testBit_ofNat, testBit_ofNat, Nat.testBit_and]
  | .ofNat m, .negSucc n =>
    rw [and, testBit_ofNat, testBit_ofNat, testBit_negSucc, testBit_without]
  | .negSucc m, .ofNat n =>
    rw [and, testBit_ofNat, testBit_negSucc, testBit_ofNat, testBit_without, Bool.and_comm]
  | .negSucc m, .negSucc n =>
    rw [and, testBit_negSucc, testBit_negSucc, testBit_negSucc, Nat.testBit_or, Bool.not_or]

theorem testBit_or (v w : Int) (i : Nat) : testBit (or v w) i = (testBit v i || testBit w i) := by
  match v, w with
  | .ofNat m, .ofNat n =>
    rw [or, testBit_ofNat, testBit_ofNat, testBit_ofNat, Nat.testBit_or]
  | .ofNat m, .negSucc n =>
    rw [or, testBit_negSucc, testBit_ofNat, testBit_negSucc, testBit_without, Bool.not_and,
      Bool.not_not, Bool.or_comm]
  | .negSucc m, .ofNat n =>
    rw [or, testBit_negSucc, testBit_negSucc, testBit_ofNat, testBit_without, Bool.not_and,
      Bool.not_not]
  | .negSucc m, .negSucc n =>
    rw [or, testBit_negSucc, testBit_negSucc, testBit_negSucc, Nat.testBit_and, Bool.not_and]

theorem testBit_xor (v w : Int) (i : Nat) :
    testBit (xor v w) i = (testBit v i ^^ testBit w i) := by
  match v, w with
  | .ofNat m, .ofNat n =>
    rw [xor, testBit_ofNat, testBit_ofNat, testBit_ofNat, Nat.testBit_xor]
  | .ofNat m, .negSucc n =>
    rw [xor, testBit_negSucc, testBit_ofNat, testBit_negSucc, Nat.testBit_xor, Bool.xor_not]
  | .negSucc m, .ofNat n =>
    rw [xor, testBit_negSucc, testBit_negSucc, testBit_ofNat, Nat.testBit_xor, Bool.not_xor]
  | .negSucc m, .negSucc n =>
    rw [xor, testBit_ofNat, testBit_negSucc, testBit_negSucc, Nat.testBit_xor, Bool.not_xor,
      Bool.xor_not, Bool.not_not]

/-- The complement has every bit flipped. -/
theorem testBit_complement (v : Int) (i : Nat) : testBit (-v - 1) i = !testBit v i := by
  match v with
  | .ofNat m =>
    have complement : -Int.ofNat m - 1 = .negSucc m := by
      rw [Int.negSucc_eq, Int.ofNat_eq_natCast]
      omega
    rw [complement, testBit_ofNat, testBit_negSucc]
  | .negSucc m =>
    have complement : -Int.negSucc m - 1 = .ofNat m := by
      rw [Int.negSucc_eq, Int.ofNat_eq_natCast]
      omega
    rw [complement, testBit_ofNat, testBit_negSucc, Bool.not_not]

/-! ## Ranges -/

/-- The number whose bits are those of an integer up to the place from which on all are equal. -/
def core : Int → Nat
  | .ofNat m => m
  | .negSucc m => m

/-- An integer lies in the range of integers if its core does not reach the place of the sign. -/
theorem inIntegerRange_iff_core (v : Int) : InIntegerRange v ↔ core v < Nat.pow 2 255 := by
  have bound : integerBound = (Nat.pow 2 255 : Nat) := rfl
  rw [InIntegerRange, bound]
  cases v with
  | ofNat m =>
    show _ ↔ m < _
    rw [Int.ofNat_eq_natCast]
    omega
  | negSucc m =>
    show _ ↔ m < _
    rw [Int.negSucc_eq]
    omega

theorem without_lt {m n k : Nat} (hm : m < 2 ^ k) : without m n < 2 ^ k :=
  Nat.xor_lt_two_pow hm (Nat.lt_of_le_of_lt Nat.and_le_left hm)

variable {v w : Int} (hv : InIntegerRange v) (hw : InIntegerRange w)
include hv hw

theorem inIntegerRange_and : InIntegerRange (and v w) := by
  rw [inIntegerRange_iff_core] at hv hw ⊢
  match v, w with
  | .ofNat m, .ofNat n => exact Nat.lt_of_le_of_lt Nat.and_le_left hv
  | .ofNat m, .negSucc n => exact without_lt hv
  | .negSucc m, .ofNat n => exact without_lt hw
  | .negSucc m, .negSucc n => exact Nat.or_lt_two_pow hv hw

theorem inIntegerRange_or : InIntegerRange (or v w) := by
  rw [inIntegerRange_iff_core] at hv hw ⊢
  match v, w with
  | .ofNat m, .ofNat n => exact Nat.or_lt_two_pow hv hw
  | .ofNat m, .negSucc n => exact without_lt hw
  | .negSucc m, .ofNat n => exact without_lt hv
  | .negSucc m, .negSucc n => exact Nat.lt_of_le_of_lt Nat.and_le_left hv

theorem inIntegerRange_xor : InIntegerRange (xor v w) := by
  rw [inIntegerRange_iff_core] at hv hw ⊢
  match v, w with
  | .ofNat m, .ofNat n | .ofNat m, .negSucc n | .negSucc m, .ofNat n | .negSucc m, .negSucc n =>
    exact Nat.xor_lt_two_pow hv hw

end DryRun.Bitwise
