import DryRun.Wire.Writer
import Mathlib.Algebra.Order.Ring.Int

/-!
# Numbers that fit

An integer of unknown size is written by a computation that refuses what does not fit its field
(`Writer.fixed`).  `Writes c bytes` says that nothing is refused and that these bytes are appended.
A number of a fixed-width type fits a field of its width, and a length fits as long as it can be
counted in eight bytes (`writes_varUint`).
-/

set_option autoImplicit false

namespace DryRun

/-- Whatever was written before, nothing is refused and these bytes are appended. -/
def Writes {ε : Type} (c : EStateM ε Bytes Unit) (bytes : Bytes) : Prop :=
  ∀ buffer, c buffer = .ok () (buffer ++ bytes)

/-- The first length that eight bytes cannot count. -/
def Wire.lengthBound : Nat := Nat.pow 256 8

namespace Writes

variable {α ε : Type} {c d : EStateM ε Bytes Unit} {bytes more : Bytes}

theorem bind (hc : Writes c bytes) (hd : Writes d more) :
    Writes (c >>= fun _ => d) (bytes ++ more) := by
  intro buffer
  show EStateM.bind c _ buffer = _
  rw [EStateM.bind, hc]
  dsimp only
  rw [hd, List.append_assoc]

theorem forM {f : α → EStateM ε Bytes Unit} {write : α → Bytes} :
    ∀ {xs : List α}, (∀ x ∈ xs, Writes (f x) (write x)) → Writes (xs.forM f) (xs.flatMap write)
  | [], _ => fun buffer => congrArg (EStateM.Result.ok ()) (List.append_nil buffer).symm
  | _ :: _, h => ((List.forall_mem_cons.1 h).1).bind (forM (List.forall_mem_cons.1 h).2)

end Writes

namespace Writer

theorem writes_append (bytes : Bytes) : Writes (append bytes) bytes := fun _ => rfl

/-- A natural number fits if there are enough bytes. -/
theorem writes_fixed {width v : Nat} (h : v < Nat.pow 256 width) :
    Writes (fixed width false v) (Bytes.ofNatLE width v) := by
  intro buffer
  have inside : 0 ≤ (v : Int) ∧ (v : Int) < 0 + (Nat.pow 256 width : Nat) := by omega
  have kept : ((v : Int) % (Nat.pow 256 width : Nat)).toNat = v := by
    rw [Int.emod_eq_of_lt (Int.natCast_nonneg v) (Int.ofNat_lt.2 h), Int.toNat_natCast]
  rw [fixed]
  simp only [Bool.false_eq_true, if_false]
  rw [if_pos inside, kept]
  exact writes_append _ buffer

theorem writes_u8 (v : UInt8) : Writes (fixed 1 false v.toNat) (Wire.u8 v) := by
  have byte : Bytes.ofNatLE 1 v.toNat = Wire.u8 v := by simp [Bytes.ofNatLE, Wire.u8]
  rw [← byte]
  exact writes_fixed v.toNat_lt

theorem writes_u32 (v : UInt32) : Writes (fixed 4 false v.toNat) (Wire.u32 v) :=
  writes_fixed v.toNat_lt

theorem writes_u64 (v : UInt64) : Writes (fixed 8 false v.toNat) (Wire.u64 v) :=
  writes_fixed v.toNat_lt

theorem writes_bool (v : Bool) :
    Writes (fixed 1 false (if v then 1 else 0)) (Wire.bool v) := by
  cases v with
  | false => exact writes_u8 0
  | true => exact writes_u8 1

/-- A signed number fits a field of its width. -/
theorem writes_i64 (v : Int64) : Writes (fixed 8 true v.toInt) (Wire.i64 v) := by
  intro buffer
  have inside : -(((Nat.pow 256 8 : Nat) : Int) / 2) ≤ v.toInt ∧
      v.toInt < -(((Nat.pow 256 8 : Nat) : Int) / 2) + (Nat.pow 256 8 : Nat) :=
    ⟨v.le_toInt, v.toInt_lt⟩
  have wrapped : v.toInt = Int.bmod v.toUInt64.toNat (2 ^ 64) := by
    rw [← Int64.toInt_toBitVec, BitVec.toInt_eq_toNat_bmod]
    rfl
  have kept : (v.toInt % (Nat.pow 256 8 : Nat)).toNat = v.toUInt64.toNat := by
    have power : (Nat.pow 256 8 : Nat) = 2 ^ 64 := rfl
    rw [power, wrapped, Int.bmod_emod, Int.emod_eq_of_lt (Int.natCast_nonneg _), Int.toNat_natCast]
    exact Int.ofNat_lt.2 v.toUInt64.toNat_lt
  rw [fixed]
  simp only [if_true]
  rw [if_pos inside, kept]
  exact writes_append _ buffer

theorem writes_varUint {v : Nat} (h : v < Wire.lengthBound) :
    Writes (varUint v) (Wire.varUint v) := by
  have marked {width : Nat} (mark : UInt8) (fits : v < Nat.pow 256 width) :
      Writes (do fixed 1 false mark.toNat; fixed width false v : Writer Unit)
        (mark :: Bytes.ofNatLE width v) :=
    (writes_u8 mark).bind (writes_fixed fits)
  rw [varUint, Wire.varUint]
  by_cases h₁ : v < 0xFD
  · rw [if_pos h₁, if_pos (by omega)]
    have byte : Bytes.ofNatLE 1 v = [UInt8.ofNat v] := rfl
    rw [← byte]
    exact writes_fixed (Nat.lt_trans h₁ (by decide))
  rw [if_neg h₁, if_neg (by omega)]
  by_cases h₂ : v ≤ 0xFFFF
  · rw [if_pos h₂, if_pos (by omega)]
    exact marked 0xFD (Nat.lt_succ_of_le h₂)
  rw [if_neg h₂, if_neg (by omega)]
  by_cases h₃ : v ≤ 0xFFFFFFFF
  · rw [if_pos h₃, if_pos (by omega)]
    exact marked 0xFE (Nat.lt_succ_of_le h₃)
  rw [if_neg h₃, if_neg (by omega)]
  exact marked 0xFF h

/-- Append bytes with their number in front. -/
def varBytes (bytes : Bytes) : Writer Unit := do
  varUint bytes.length
  append bytes

theorem writes_varBytes {bytes : Bytes} (h : bytes.length < Wire.lengthBound) :
    Writes (varBytes bytes) (Wire.varBytes bytes) :=
  (writes_varUint h).bind (writes_append bytes)

/-- Append text as UTF-8 with its number of bytes in front. -/
def varString (text : String) : Writer Unit :=
  varBytes (Utf8.encode text)

theorem writes_varString {text : String} (h : (Utf8.encode text).length < Wire.lengthBound) :
    Writes (varString text) (Wire.varString text) :=
  writes_varBytes h

end Writer

end DryRun
