import DryRun.Proofs.Script.Instruction

/-!
# The bytes of instructions

An instruction is read from a script; here is the converse, its bytes (`Instruction.encode`).  In
the middle of a script they are read as this instruction, if its operand is one that the code can
have (`Instruction.Fits`), and the next instruction is read from behind them.  So the bytes of
several instructions, one behind the other, are read as these instructions (`decodes_encode`).

Reading depends on the position only through the bytes that stand there.  `Found c bytes a` says so
of one part of an instruction: wherever in a script the bytes stand, `c` gives `a` and stops behind
them.
-/

set_option autoImplicit false

namespace DryRun

namespace Instruction

variable {α β : Type}

/-! ## Reading bytes in the middle of a script -/

/-- Wherever in a script these bytes stand, reading there takes them and gives `a`. -/
def Found (c : Script → Fetch α) (bytes : Bytes) (a : α) : Prop :=
  ∀ before behind, c (.ofBytes (before ++ (bytes ++ behind))) before.length =
    .ok a (before.length + bytes.length)

theorem found_pure (a : α) : Found (fun _ => pure a) [] a := fun _ _ => rfl

theorem Found.bind {c : Script → Fetch α} {f : Script → α → Fetch β} {bytes more : Bytes} {a : α}
    {b : β} (hc : Found c bytes a) (hf : Found (f · a) more b) :
    Found (fun script => c script >>= f script) (bytes ++ more) b := by
  intro before behind
  have first := hc before (more ++ behind)
  have second := hf (before ++ bytes) behind
  rw [List.append_assoc, List.length_append] at second
  show EStateM.bind _ _ _ = _
  rw [EStateM.bind, List.append_assoc bytes, first]
  rw [List.length_append, ← Nat.add_assoc]
  exact second

theorem found_take (bytes : Bytes) : Found (take · bytes.length) bytes bytes := by
  intro before behind
  have inside :
      before.length + bytes.length ≤ (Script.ofBytes (before ++ (bytes ++ behind))).size := by
    rw [Script.size_eq_length, Script.bytes_ofBytes, List.length_append, List.length_append]
    omega
  dsimp only
  rw [take, if_pos inside, Script.slice_eq_take_drop, Script.bytes_ofBytes, List.drop_left,
    List.take_left]

theorem found_take_of_length {bytes : Bytes} {n : Nat} (h : bytes.length = n) :
    Found (take · n) bytes bytes :=
  h ▸ found_take bytes

theorem found_takeNumber {width n : Nat} (h : n < Nat.pow 256 width) :
    Found (takeNumber · width) (Bytes.ofNatLE width n) n := by
  have number := (found_take_of_length (Bytes.length_ofNatLE width n)).bind
    (f := fun _ bytes => pure (Bytes.toNatLE bytes)) (found_pure _)
  rw [Bytes.toNatLE_ofNatLE, Nat.mod_eq_of_lt h, List.append_nil] at number
  exact number

/-- As many bytes as are counted in front of them, unless that is too many. -/
theorem found_counted {p : Nat → Prop} [DecidablePred p] (cause : Nat → FetchFault)
    {width : Nat} {bytes : Bytes} (counted : bytes.length < Nat.pow 256 width)
    (allowed : ¬p bytes.length) :
    Found (fun script => do
      let size ← takeNumber script width
      if p size then throw (cause size)
      take script size) (Bytes.ofNatLE width bytes.length ++ bytes) bytes := by
  refine (found_takeNumber counted).bind ?_
  simp only [if_neg allowed]
  exact found_take bytes

/-! ## The bytes of an instruction -/

/-- The bytes in front of an operand that say how long it is. -/
def sizeField (i : Instruction) : Bytes :=
  match i.opcode with
  | .pushData width => Bytes.ofNatLE width i.operand.length
  | .flow .sysCall => Bytes.ofNatLE 1 i.operand.length
  | _ => []

/-- The bytes of an instruction. -/
def encode (i : Instruction) : Bytes :=
  i.code :: (i.sizeField ++ i.operand)

/-- The operand is one that the code can have. -/
def Fits (i : Instruction) : Prop :=
  match i.opcode with
  | .pushBytes n => i.operand.length = n
  | .pushData width => i.operand.length < Nat.pow 256 width ∧ i.operand.length ≤ maxItemSize
  | .flow .jump | .flow .jumpIf | .flow .jumpIfNot | .flow .call => i.operand.length = offsetSize
  | .flow .appCall | .flow .tailCall => i.operand.length = contractSize
  | .flow .sysCall => i.operand.length ≤ maxSyscallName
  | _ => i.operand = []

theorem found_takeOperand {i : Instruction} (h : i.Fits) :
    Found (takeOperand · i.code) (i.sizeField ++ i.operand) i.operand := by
  obtain ⟨code, operand⟩ := i
  simp only [Fits, sizeField, takeOperand, opcode] at h ⊢
  generalize Opcode.ofByte code = op at h ⊢
  cases op with
  | pushBytes n => exact found_take_of_length h
  | pushData width =>
    exact found_counted (p := fun size => width = 4 ∧ size > maxItemSize) .pushTooLarge h.1
      fun large => Nat.not_lt_of_le h.2 large.2
  | flow op =>
    cases op with
    | jump | jumpIf | jumpIfNot | call => exact found_take_of_length h
    | appCall | tailCall => exact found_take_of_length h
    | sysCall =>
      have counted : operand.length < Nat.pow 256 1 := Nat.lt_of_le_of_lt h (by decide)
      exact found_counted (fun _ => .nameTooLong) counted (Nat.not_lt_of_le h)
    | nop | ret | throw | throwIfNot =>
      cases h
      exact found_pure []
  | _ =>
    cases h
    exact found_pure []

/-- **The bytes of an instruction are read as this instruction**, wherever in a script they
stand. -/
theorem found_fetch {i : Instruction} (h : i.Fits) : Found fetch i.encode i := by
  intro before behind
  have inside : (Script.ofBytes (before ++ (i.encode ++ behind))).byte? before.length =
      some i.code := by
    rw [Script.byte?_eq_getElem?, Script.bytes_ofBytes, encode, List.getElem?_append_right
      (Nat.le_refl _), Nat.sub_self]
    rfl
  have operand := found_takeOperand h (before ++ [i.code]) behind
  rw [List.append_assoc, List.length_append, List.length_singleton] at operand
  dsimp only at operand
  rw [fetch, inside, encode]
  dsimp only
  rw [show before ++ (i.code :: (i.sizeField ++ i.operand) ++ behind) =
    before ++ ([i.code] ++ (i.sizeField ++ i.operand ++ behind)) from rfl, operand]
  dsimp only
  rw [List.length_cons, Nat.add_assoc, Nat.add_comm 1]

end Instruction

/-! ## Reading whole scripts -/

/-- From a position up to the end of the script these instructions are read, each at the place that
is given with it. -/
inductive Decodes (script : Script) : Nat → List (Nat × Instruction) → Prop
  /-- Nothing is read behind the end. -/
  | done : Decodes script script.size []
  /-- An instruction is read inside the script, and then those behind it. -/
  | next {position next : Nat} {i : Instruction} {rest : List (Nat × Instruction)}
    (inside : position < script.size) (read : Instruction.fetch script position = .ok i next)
    (behind : Decodes script next rest) : Decodes script position ((position, i) :: rest)

/-- What is read from a position on is determined by the script. -/
theorem Decodes.unique {script : Script} {position : Nat}
    {listing listing' : List (Nat × Instruction)} (h : Decodes script position listing)
    (h' : Decodes script position listing') : listing = listing' := by
  induction h generalizing listing' with
  | done =>
    cases h' with
    | done => rfl
    | next inside => exact absurd inside (Nat.lt_irrefl _)
  | next inside read behind ih =>
    cases h' with
    | done => exact absurd inside (Nat.lt_irrefl _)
    | next inside' read' behind' =>
      cases read.symm.trans read'
      rw [ih behind']

/-- One instruction in front of others. -/
theorem Decodes.of_encode {i : Instruction} (fits : i.Fits) {before behind : Bytes}
    {rest : List (Nat × Instruction)}
    (h : Decodes (.ofBytes (before ++ i.encode ++ behind)) (before ++ i.encode).length rest) :
    Decodes (.ofBytes (before ++ i.encode ++ behind)) before.length
      ((before.length, i) :: rest) := by
  rw [List.length_append] at h
  refine .next ?_ ?_ h
  · rw [Script.size_eq_length, Script.bytes_ofBytes, List.append_assoc, List.length_append,
      List.length_append, Instruction.encode, List.length_cons]
    omega
  · rw [List.append_assoc]
    exact Instruction.found_fetch fits before behind

end DryRun
