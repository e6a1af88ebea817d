import DryRun.Machine.Step
import DryRun.Proofs.Script.Encoding
import DryRun.Script.Builder

/-!
# Constants in scripts

A builder chooses one of many instructions to push a value: the code alone for small integers, a
code that is the length for short byte strings, and one of three that have the length behind them
for long ones.  `Constant.instruction` says which, apart from the bytes that the builder appends for
it (`Constant.encode_instruction`), and `Constant.pushes_instruction` that executing it gives back
the value, as far as an item can tell: its byte form.
-/

set_option autoImplicit false

namespace DryRun

/-! ## Codes -/

namespace Opcode

/-- The first codes are the numbers of bytes they push. -/
theorem ofByte_of_le {n : Nat} (h : n ≤ 0x4B) : ofByte (.ofNat n) = .pushBytes n := by
  have all : ∀ n : Fin 0x4C, ofByte (.ofNat n.1) = .pushBytes n.1 := by decide
  exact all ⟨n, Nat.lt_succ_of_le h⟩

/-- Sixteen codes are integers. -/
theorem ofByte_of_small {v : Int} (h : 1 ≤ v ∧ v ≤ 16) :
    ofByte (.ofNat (0x50 + v.toNat)) = .pushInt v := by
  have all : ∀ n : Fin 17, 1 ≤ n.1 → ofByte (.ofNat (0x50 + n.1)) = .pushInt n.1 := by decide
  have nonneg : (v.toNat : Int) = v := Int.toNat_of_nonneg (by omega)
  rw [all ⟨v.toNat, by omega⟩ (by dsimp only; omega), nonneg]

end Opcode

/-! ## Instructions that push -/

namespace Instruction

/-- The instruction that pushes a byte string. -/
def pushingBytes (data : Bytes) : Instruction :=
  if data.length ≤ 0x4B then ⟨.ofNat data.length, data⟩
  else if data.length < 0x100 then ⟨0x4C, data⟩
  else if data.length < 0x10000 then ⟨0x4D, data⟩
  else ⟨0x4E, data⟩

/-- The instruction that pushes an integer. -/
def pushingInt (v : Int) : Instruction :=
  if v = -1 then ⟨0x4F, []⟩
  else if 1 ≤ v ∧ v ≤ 16 then ⟨.ofNat (0x50 + v.toNat), []⟩
  else pushingBytes (TwosComplement.encode v)

/-- Whichever code is chosen, what holds of all four holds of the instruction. -/
theorem pushingBytes_cases {P : Instruction → Prop} {data : Bytes}
    (short : data.length ≤ 0x4B → P ⟨.ofNat data.length, data⟩)
    (one : data.length < Nat.pow 256 1 → P ⟨0x4C, data⟩)
    (two : data.length < Nat.pow 256 2 → P ⟨0x4D, data⟩)
    (four : P ⟨0x4E, data⟩) : P (pushingBytes data) := by
  rw [pushingBytes]
  split
  · next h => exact short h
  · split
    · next h => exact one h
    · split
      · next h => exact two h
      · exact four

theorem opcode_short {data : Bytes} (h : data.length ≤ 0x4B) :
    opcode ⟨.ofNat data.length, data⟩ = .pushBytes data.length := Opcode.ofByte_of_le h

theorem encode_pushingBytes (data : Bytes) :
    (pushingBytes data).encode = Builder.pushBytes data := by
  rw [pushingBytes, Builder.pushBytes]
  split
  · next h => rw [encode, sizeField, opcode_short h]; rfl
  · split
    · rfl
    · split
      · rfl
      · rfl

theorem fits_pushingBytes {data : Bytes} (h : data.length ≤ maxItemSize) :
    (pushingBytes data).Fits := by
  refine pushingBytes_cases (fun short => ?_) (fun one => ⟨one, h⟩) (fun two => ⟨two, h⟩)
    ⟨Nat.lt_of_le_of_lt h (by decide), h⟩
  rw [Fits, opcode_short short]

theorem encode_pushingInt (v : Int) : (pushingInt v).encode = Builder.pushInt v := by
  rw [pushingInt, Builder.pushInt]
  split
  · rfl
  · split
    · next small => rw [encode, sizeField, opcode, Opcode.ofByte_of_small small]; rfl
    · exact encode_pushingBytes _

theorem fits_pushingInt {v : Int} (h : (TwosComplement.encode v).length ≤ maxItemSize) :
    (pushingInt v).Fits := by
  rw [pushingInt]
  split
  · rfl
  · split
    · next small =>
      rw [Fits, opcode, Opcode.ofByte_of_small small]
    · exact fits_pushingBytes h

end Instruction

/-- Executing an instruction pushes an item of a byte form, and does nothing else. -/
def Instruction.Pushes (i : Instruction) (form : Bytes) : Prop :=
  ∃ item : Item, item.toBytes = .ok form ∧ ∀ (σ : Type) (host : Host σ) (frame : Frame)
    (m : Machine σ), Exec.execute host frame i m = .ok () { m with stack := m.stack.push item }

namespace Instruction

theorem pushes_pushingBytes (data : Bytes) : (pushingBytes data).Pushes data := by
  have of_execute {i : Instruction} (h : ∀ (σ : Type) (host : Host σ) (frame : Frame),
      Exec.execute host frame i = Exec.pushBytes i.operand) : i.Pushes i.operand :=
    ⟨.ofBytes i.operand, rfl, fun σ host frame m => by rw [h]; rfl⟩
  refine pushingBytes_cases (P := (Pushes · data)) (fun short => ?_)
    (fun _ => of_execute fun _ _ _ => rfl) (fun _ => of_execute fun _ _ _ => rfl)
    (of_execute fun _ _ _ => rfl)
  refine of_execute fun σ host frame => ?_
  rw [Exec.execute, opcode_short short]

theorem pushes_pushingInt (v : Int) : (pushingInt v).Pushes (TwosComplement.encode v) := by
  have of_execute {i : Instruction} (h : ∀ (σ : Type) (host : Host σ) (frame : Frame),
      Exec.execute host frame i = Exec.pushInt v) : i.Pushes (TwosComplement.encode v) :=
    ⟨.ofInt v, rfl, fun σ host frame m => by rw [h]; rfl⟩
  rw [pushingInt]
  split
  · next same => exact of_execute fun _ _ _ => same ▸ rfl
  · split
    · next small =>
      refine of_execute fun σ host frame => ?_
      rw [Exec.execute, opcode, Opcode.ofByte_of_small small]
    · exact pushes_pushingBytes _

end Instruction

/-! ## Values -/

namespace Constant

/-- The byte form of a value. -/
def byteForm : Constant → Bytes
  | .int v => TwosComplement.encode v
  | .bool b => if b then [1] else []
  | .text t => Utf8.encode (RawText.toString t)
  | .bytes data => data

/-- The instruction that pushes a value. -/
def instruction : Constant → Instruction
  | .int v => .pushingInt v
  | .bool b => .pushingInt (if b then 1 else 0)
  | .text t => .pushingBytes (Utf8.encode (RawText.toString t))
  | .bytes data => .pushingBytes data

/-- The truth values are pushed as the integers that have their byte form. -/
theorem encode_bool (b : Bool) :
    TwosComplement.encode (if b then 1 else 0) = if b then [1] else [] := by
  cases b with
  | true =>
    rw [if_pos rfl, if_pos rfl, TwosComplement.encode, if_neg (by decide),
      TwosComplement.encodeNonempty]
    rfl
  | false => rfl

theorem fits_instruction {v : Constant} (h : v.byteForm.length ≤ maxItemSize) :
    v.instruction.Fits := by
  cases v with
  | int v => exact Instruction.fits_pushingInt h
  | bool b =>
    refine Instruction.fits_pushingInt ?_
    rw [encode_bool]
    exact h
  | text t => exact Instruction.fits_pushingBytes h
  | bytes data => exact Instruction.fits_pushingBytes h

/-- A builder appends the bytes of this instruction. -/
theorem push_eq_ok {v : Constant} {b b' : Builder} (h : Builder.push v b = .ok () b') :
    b' = { b with code := b.code ++ v.instruction.encode } := by
  cases v with
  | int v =>
    cases h
    rw [instruction, Instruction.encode_pushingInt]
  | bool v =>
    cases h
    rw [instruction, Instruction.encode_pushingInt]
  | text t =>
    rw [Builder.push] at h
    split at h
    · cases h
      rw [instruction, Instruction.encode_pushingBytes]
    · cases h
  | bytes data =>
    cases h
    rw [instruction, Instruction.encode_pushingBytes]

/-- **What is pushed has the byte form of the value**, and nothing else is changed. -/
theorem pushes_instruction (v : Constant) : v.instruction.Pushes v.byteForm := by
  cases v with
  | int n => exact Instruction.pushes_pushingInt n
  | bool b =>
    have pushed := Instruction.pushes_pushingInt (if b then 1 else 0)
    rwa [encode_bool] at pushed
  | text t => exact Instruction.pushes_pushingBytes _
  | bytes data => exact Instruction.pushes_pushingBytes data

end Constant

end DryRun
