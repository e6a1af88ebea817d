import DryRun.Item
import DryRun.Proofs.Item.Limits
import DryRun.Proofs.Number.Shortest
import Mathlib.Algebra.Ring.Int.Defs

/-!
# Integers as items

An integer can lie on the stack as itself, as its bytes or, if it is zero or one, as a truth value.
This file says that the conversions between these forms agree with each other, as far as an integer
may go.

* `readInteger_of_length_le`, `checkInteger_eq` — reading and checking, by the range of the value.
* `Item.toBool_of_toInt`, `Item.toInt_toBytes` — the other forms of an item that has an integer
  form.
* `integer_encoding_is_minimal` — all of it, together with what is known of the bytes.
-/

set_option autoImplicit false

namespace DryRun

open TwosComplement

/-! ## Reading and checking -/

theorem readInteger_of_length_le {bytes : Bytes} (h : bytes.length ≤ maxIntegerSize) :
    readInteger bytes = .ok (decode bytes) :=
  if_neg (Nat.not_lt.2 h)

/-- What is written in the limits is read back. -/
theorem readInteger_encode {v : Int} (h : InIntegerRange v) : readInteger (encode v) = .ok v := by
  rw [readInteger_of_length_le ((inIntegerRange_iff v).1 h), decode_encode]

/-- A result passes the check exactly if it is in range. -/
theorem checkInteger_eq (v : Int) :
    checkInteger v = if InIntegerRange v then .ok v else .error .resultTooLarge := by
  rw [checkInteger]
  by_cases inside : InIntegerRange v
  · rw [if_pos inside, if_neg (Nat.not_lt.2 ((inIntegerRange_iff v).1 inside))]
  · rw [if_neg inside,
      if_pos (Nat.lt_of_not_le fun short => inside ((inIntegerRange_iff v).2 short))]

theorem inIntegerRange_iff_pow (v : Int) : InIntegerRange v ↔ -2 ^ 255 ≤ v ∧ v < 2 ^ 255 := Iff.rfl

/-! ## The forms of an item -/

/-- Bytes that are all zero are the bytes that spell zero. -/
theorem anyNonzero_eq (bytes : Bytes) : Bytes.anyNonzero bytes = (decode bytes != 0) := by
  induction bytes with
  | nil => rfl
  | cons b rest ih =>
    have any : Bytes.anyNonzero (b :: rest) = (b != 0 || Bytes.anyNonzero rest) := rfl
    have byte : b = 0 ↔ b.toNat = 0 := UInt8.toNat_inj.symm
    have b_lt : b.toNat < 256 := b.toNat_lt
    rw [any, ih, Bool.eq_iff_iff]
    simp only [Bool.or_eq_true, bne_iff_ne, ne_eq, byte]
    cases rest with
    | nil =>
      simp only [decode, not_true_eq_false, or_false]
      split <;> omega
    | cons c cs =>
      rw [decode_cons (List.cons_ne_nil c cs)]
      omega

namespace Item

variable {item : Item} {v : Int}

/-- Only plain values have an integer form. -/
theorem exists_prim_of_toInt (h : item.toInt = .ok v) : ∃ p, item = .prim p ∧ p.toInt = .ok v := by
  cases item with
  | prim p => exact ⟨p, rfl, h⟩
  | seq | map | handle => cases h

/-- An item that has an integer form is true exactly if this is not zero. -/
theorem toBool_of_toInt (h : item.toInt = .ok v) : item.toBool = (v != 0) := by
  obtain ⟨p, rfl, h⟩ := exists_prim_of_toInt h
  cases p with
  | bytes b =>
    change readInteger b = .ok v at h
    rw [readInteger] at h
    split at h
    · cases h
    · cases h
      exact anyNonzero_eq b
  | int w =>
    cases h
    rfl
  | bool b =>
    cases h
    cases b <;> rfl

/-- The bytes of an item in range have the integer form of the item. -/
theorem toInt_toBytes (h : item.toInt = .ok v) (inside : InIntegerRange v) :
    ∃ bytes, item.toBytes = .ok bytes ∧ (ofBytes bytes).toInt = .ok v := by
  obtain ⟨p, rfl, h⟩ := exists_prim_of_toInt h
  refine ⟨p.toBytes, rfl, ?_⟩
  cases p with
  | bytes b => exact h
  | int w =>
    cases h
    exact readInteger_encode inside
  | bool b =>
    cases h
    cases b <;> rfl

end Item

/-! ## The encoding -/

/-- Integers are encoded as the shortest bytes in two's complement, and the forms of an item agree
with that. -/
structure IntegerEncoding : Prop where
  /-- A byte string spells the number of its bytes, the least significant one first, from which a
  whole round is taken if the top bit is set. -/
  spells : ∀ bytes, decode bytes =
    (Bytes.toNatLE bytes : Int) - if isNegative bytes then span bytes.length else 0
  /-- An integer is written in as many bytes as its bits surely fit into, less the bytes at the end
  that repeat the sign. -/
  writes : ∀ v, encode v = trimmed v
  /-- What is written is read back. -/
  decode_encode : ∀ v, decode (encode v) = v
  /-- No shorter byte string spells the integer. -/
  shortest : ∀ v bytes, decode bytes = v → (encode v).length ≤ bytes.length
  /-- The check on results accepts the integers that have a place in 32 bytes. -/
  check_ok : ∀ v, checkInteger v = .ok v ↔ -2 ^ 255 ≤ v ∧ v < 2 ^ 255
  /-- The check on results refuses the integers that do not, and says that they are too large. -/
  check_error : ∀ v, checkInteger v = .error .resultTooLarge ↔
    ¬(-2 ^ 255 ≤ v ∧ v < 2 ^ 255)
  /-- A byte string within the limit begins with the bytes that its integer is written as, and these
  are all of it if it is the shortest. -/
  reads : ∀ bytes, bytes.length ≤ 32 → ∃ v, readInteger bytes = .ok v ∧
    encode v <+: bytes ∧
      (encode v = bytes ↔ ∀ other, decode other = v → bytes.length ≤ other.length)
  /-- An item that has an integer form is true exactly if this is not zero. -/
  truth : ∀ (item : Item) v, item.toInt = .ok v → item.toBool = (v != 0)
  /-- If the integer form of an item is within the range, its bytes have the same integer form. -/
  bytes : ∀ (item : Item) v, item.toInt = .ok v → InIntegerRange v →
    ∃ bytes, item.toBytes = .ok bytes ∧ (Item.ofBytes bytes).toInt = .ok v

/-- **Integers are encoded minimally**, and plain items stand for the same integer in all forms. -/
theorem integer_encoding_is_minimal : IntegerEncoding where
  spells := decode_eq
  writes v := (trimmed_eq v).symm
  decode_encode := TwosComplement.decode_encode
  shortest _ _ := length_encode_le
  check_ok v := by
    rw [← inIntegerRange_iff_pow, checkInteger_eq]
    split
    · next inside => exact iff_of_true rfl inside
    · next outside => exact iff_of_false nofun outside
  check_error v := by
    rw [← inIntegerRange_iff_pow, checkInteger_eq]
    split
    · next inside => exact iff_of_false nofun (not_not_intro inside)
    · next outside => exact iff_of_true rfl outside
  reads bytes short := ⟨_, readInteger_of_length_le short, encode_decode_begins bytes,
    encode_decode_eq_iff bytes⟩
  truth _ _ form := Item.toBool_of_toInt form
  bytes _ _ form inside := Item.toInt_toBytes form inside

/-- A byte string with a sign too many, and the two ends of the range. -/
example : (readInteger [0x80, 0xFF]).toOption = some (-128) ∧ encode (-128) = [0x80] ∧
    (checkInteger (-integerBound)).toOption = some (-integerBound) ∧
    (checkInteger integerBound).toOption = none := by
  decide +kernel

end DryRun
