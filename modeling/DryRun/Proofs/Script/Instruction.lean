import DryRun.Proofs.Item.Limits
import DryRun.Proofs.Returns
import DryRun.Proofs.Wire.Reader
import DryRun.Script.Instruction

/-!
# Reading instructions

What a run needs to know about reading: an instruction that is read lies inside the script, the
next one starts behind it, and only behind the end of a script does reading stand still.
`fetch_ok` says this of a whole instruction; it rests on `Forward`, which says it of any reading
that takes bytes one part after another.  What an instruction holds that it pushes by itself is
within the limits on items (`modest_fetch`).

The codes up to `0x61` are those that are free.  They push or do nothing, so none of them is among
the instructions that `Opcode.isTransfer` lists, which change where the run goes on.
-/

set_option autoImplicit false

namespace DryRun

namespace Instruction

variable {α β : Type} {script : Script}

/-! ## Reading goes forward -/

/-- Inside a script, reading that succeeds never goes back and stays inside. -/
def Forward (script : Script) (c : Fetch α) : Prop :=
  ∀ position a next, position ≤ script.size → c position = .ok a next →
    position ≤ next ∧ next ≤ script.size

theorem forward_pure (a : α) : Forward script (pure a : Fetch α) := by
  intro position b next hle h
  cases h
  exact ⟨Nat.le_refl _, hle⟩

theorem forward_throw (cause : FetchFault) : Forward script (throw cause : Fetch α) := by
  intro position b next _ h
  cases h

theorem forward_take (n : Nat) : Forward script (take script n) := by
  intro position b next _ h
  rw [take] at h
  split at h
  · next inside =>
    cases h
    exact ⟨Nat.le_add_right _ _, inside⟩
  · cases h

theorem Forward.bind {c : Fetch α} {f : α → Fetch β} (hc : Forward script c)
    (hf : ∀ a, Forward script (f a)) : Forward script (c >>= f) := by
  intro position b next hle h
  simp only [Bind.bind, EStateM.bind] at h
  split at h
  · next a middle ha =>
    have first := hc _ _ _ hle ha
    have second := hf a _ _ _ first.2 h
    exact ⟨Nat.le_trans first.1 second.1, second.2⟩
  · cases h

theorem forward_takeNumber (width : Nat) : Forward script (takeNumber script width) := by
  rw [takeNumber, map_eq_pure_bind]
  exact (forward_take width).bind fun _ => forward_pure _

/-- A number of bytes, refused if it is too great, and then as many bytes. -/
theorem forward_counted {p : Nat → Prop} [DecidablePred p] {cause : Nat → FetchFault}
    (width : Nat) :
    Forward script (do
      let size ← takeNumber script width
      if p size then throw (cause size)
      take script size) := by
  refine (forward_takeNumber width).bind fun size => ?_
  split
  · exact (forward_throw _).bind fun _ => forward_take _
  · exact forward_take _

theorem forward_takeOperand (code : UInt8) : Forward script (takeOperand script code) := by
  rw [takeOperand]
  split
  · exact forward_take _
  · exact forward_counted _
  · exact forward_take _
  · exact forward_take _
  · exact forward_take _
  · exact forward_take _
  · exact forward_take _
  · exact forward_take _
  · exact forward_counted _
  · exact forward_pure _

/-- **Where an instruction lies.**  Behind the end of the script stands the implied return, which
takes no room.  Every other instruction starts with its code and takes up at least that byte. -/
theorem fetch_ok {position next : Nat} {i : Instruction}
    (h : fetch script position = .ok i next) :
    (script.size ≤ position ∧ i = impliedReturn ∧ next = position) ∨
      (position < next ∧ next ≤ script.size ∧ script.byte? position = some i.code) := by
  rw [fetch] at h
  split at h
  · next behind =>
    cases h
    exact .inl ⟨Array.getElem?_eq_none_iff.1 behind, rfl, rfl⟩
  · next code inside =>
    have lt : position < script.size := (Array.getElem?_eq_some_iff.1 inside).1
    split at h
    · next operand stop taken =>
      cases h
      have := forward_takeOperand code _ _ _ lt taken
      exact .inr ⟨this.1, this.2, inside⟩
    · cases h

end Instruction

/-! ## What instructions push by themselves -/

/-- The numbers that codes stand for are small, and so are the numbers of bytes that they take
without a check. -/
def Opcode.Modest : Opcode → Prop
  | .pushBytes n => n ≤ maxItemSize
  | .pushData width => width = 1 ∨ width = 2 ∨ width = 4
  | .pushInt v => -maxItemSize ≤ v ∧ v ≤ maxItemSize
  | _ => True

instance : (op : Opcode) → Decidable op.Modest
  | .pushBytes n => inferInstanceAs (Decidable (n ≤ maxItemSize))
  | .pushData width => inferInstanceAs (Decidable (width = 1 ∨ width = 2 ∨ width = 4))
  | .pushInt v => inferInstanceAs (Decidable (-maxItemSize ≤ v ∧ v ≤ maxItemSize))
  | .flow _ | .stack _ | .splice _ | .unary _ | .binary _ | .compare _ | .shift _ | .logic _
  | .crypto _ | .collection _ | .reserved | .unknown => inferInstanceAs (Decidable True)

theorem Opcode.modest_ofByte (code : UInt8) : (ofByte code).Modest := by
  have all : ∀ n : Fin 256, (ofByte (.ofNat n.1)).Modest := by decide +kernel
  simpa using all ⟨code.toNat, code.toNat_lt⟩

namespace Instruction

variable {script : Script}

theorem returns_take (n : Nat) : Returns (fun data => data.length = n) (take script n) := by
  intro position data next h
  rw [take] at h
  split at h
  · next inside =>
    cases h
    rw [Script.slice_eq_take_drop, List.length_take, List.length_drop, ← Script.size_eq_length]
    omega
  · cases h

theorem returns_takeNumber (width : Nat) :
    Returns (fun n => n < Nat.pow 256 width) (takeNumber script width) :=
  ((returns_take width).mono fun data length => by
    rw [← length]
    exact Bytes.toNatLE_lt data).map

/-- The number of bytes is counted on a byte or two, or else checked. -/
theorem returns_takeOperand (code : UInt8) :
    Returns (fun operand => operand.length ≤ maxItemSize) (takeOperand script code) := by
  have modest := Opcode.modest_ofByte code
  have fixed {n : Nat} (h : n ≤ maxItemSize) :
      Returns (fun operand => operand.length ≤ maxItemSize) (take script n) :=
    (returns_take n).mono fun operand length => by rwa [length]
  have counted {width n : Nat} (h : n < Nat.pow 256 width)
      (small : Nat.pow 256 width ≤ maxItemSize) :
      Returns (fun operand => operand.length ≤ maxItemSize) (take script n) :=
    fixed (Nat.le_of_lt (Nat.lt_of_lt_of_le h small))
  rw [takeOperand]
  split
  · next n same =>
    rw [same] at modest
    exact fixed modest
  · next width same =>
    rw [same] at modest
    refine (returns_takeNumber width).bind fun n hn => .guarded fun checked => ?_
    rcases modest with rfl | rfl | rfl
    · exact counted hn (by decide)
    · exact counted hn (by decide)
    · exact fixed (Nat.le_of_not_lt fun large => checked ⟨rfl, large⟩)
  · exact fixed (by decide)
  · exact fixed (by decide)
  · exact fixed (by decide)
  · exact fixed (by decide)
  · exact fixed (by decide)
  · exact fixed (by decide)
  · exact (returns_takeNumber 1).bind fun n hn => .guarded fun _ => counted hn (by decide)
  · exact .pure (Nat.zero_le _)

/-- The operand is no longer than an item may be, and a number that the code stands for is small. -/
structure Modest (i : Instruction) : Prop where
  /-- The operand. -/
  operand : i.operand.length ≤ maxItemSize
  /-- The code. -/
  opcode : i.opcode.Modest

/-- The code of a call fixes the size of its operand, and the next instruction stands behind it. -/
theorem next_of_call {position next : Nat} {i : Instruction}
    (h : fetch script position = .ok i next)
    (call : i.opcode = .flow .call ∨ i.opcode = .flow .appCall) :
    next = position + 1 + i.operand.length := by
  rw [fetch] at h
  split at h
  · cases h
    rcases call with call | call <;> cases call
  · next code inside =>
    split at h
    · next operand stop taken =>
      cases h
      have fixed {n : Nat} (h : take script n (position + 1) = .ok operand next) :
          next = position + 1 + operand.length := by
        rw [returns_take n _ _ _ h]
        rw [take] at h
        split at h
        · cases h; rfl
        · cases h
      rw [takeOperand] at taken
      rcases call with call | call
      · rw [show Opcode.ofByte code = .flow .call from call] at taken
        exact fixed taken
      · rw [show Opcode.ofByte code = .flow .appCall from call] at taken
        exact fixed taken
    · cases h

/-- **What is read from a script is modest.** -/
theorem modest_fetch {position next : Nat} {i : Instruction}
    (h : fetch script position = .ok i next) : i.Modest := by
  rw [fetch] at h
  split at h
  · cases h
    exact ⟨Nat.zero_le _, trivial⟩
  · next code inside =>
    split at h
    · next operand stop taken =>
      cases h
      exact ⟨returns_takeOperand code _ _ _ taken, Opcode.modest_ofByte code⟩
    · cases h

end Instruction

/-! ## Instructions that change where the run goes on -/

/-- Is this an operation that jumps, calls or returns? -/
def FlowOp.isTransfer : FlowOp → Bool
  | .jump | .jumpIf | .jumpIfNot | .call | .ret | .appCall | .tailCall => true
  | .nop | .sysCall | .throw | .throwIfNot => false

/-- Is this the operation of an instruction that changes where the run goes on? -/
def Opcode.isTransfer : Opcode → Bool
  | .flow op => op.isTransfer
  | _ => false

/-- The free codes do not change where the run goes on. -/
theorem Opcode.isTransfer_of_le {code : UInt8} (h : code ≤ 0x61) :
    (ofByte code).isTransfer = false := by
  have all : ∀ n : Fin 0x62, (ofByte (.ofNat n.1)).isTransfer = false := by decide
  have lt : code.toNat < 0x62 := Nat.lt_succ_of_le (UInt8.le_iff_toNat_le.1 h)
  simpa using all ⟨code.toNat, lt⟩

/-! ## Instructions that are charged for by more than their code -/

/-- Is this a system call, a digest or a check of signatures? -/
def Opcode.isService : Opcode → Bool
  | .flow .sysCall | .crypto _ => true
  | _ => false

/-- The free codes are none of these. -/
theorem Opcode.isService_of_le {code : UInt8} (h : code ≤ 0x61) :
    (ofByte code).isService = false := by
  have all : ∀ n : Fin 0x62, (ofByte (.ofNat n.1)).isService = false := by decide
  have lt : code.toNat < 0x62 := Nat.lt_succ_of_le (UInt8.le_iff_toNat_le.1 h)
  simpa using all ⟨code.toNat, lt⟩

end DryRun
