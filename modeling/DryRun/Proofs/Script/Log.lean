import DryRun.Proofs.Script.Constant

/-!
# What calls on a builder emit

A builder is called any number of times, and the calls that succeed are logged with the length that
the script had (`Builder.perform`).  From the log alone one can tell what has been emitted
(`Builder.emissions`): every call but the placing of a label has emitted one instruction, and only
that of a jump depends on anything else, namely on where the labels are.  While the script is being
built a jump has two zeros in the place of its distance, as if there were no labels at all
(`Builder.unplaced`).

`Builder.logged` says that the builder holds what its log tells, and that every instruction that has
been emitted is one that can be read.
-/

set_option autoImplicit false

namespace DryRun

/-! ## Codes of two kinds -/

namespace Opcode

/-- Does an operand follow the code? -/
def takesOperand : Opcode → Bool
  | .pushBytes n => n != 0
  | .pushData _ => true
  | .flow .jump | .flow .jumpIf | .flow .jumpIfNot | .flow .call => true
  | .flow .appCall | .flow .tailCall | .flow .sysCall => true
  | _ => false

/-- Does a distance follow the code? -/
def isJump : Opcode → Bool
  | .flow .jump | .flow .jumpIf | .flow .jumpIfNot | .flow .call => true
  | _ => false

end Opcode

namespace Instruction

/-- Only in two kinds of instructions does a size stand in front of the operand. -/
theorem encode_of_unsized {code : UInt8} (data : ∀ width, Opcode.ofByte code ≠ .pushData width)
    (service : Opcode.ofByte code ≠ .flow .sysCall) (operand : Bytes) :
    encode ⟨code, operand⟩ = code :: operand := by
  rw [encode, sizeField, opcode]
  split
  · next same => exact absurd same (data _)
  · next same => exact absurd same service
  · rfl

theorem encode_of_not_takesOperand {code : UInt8} (h : (Opcode.ofByte code).takesOperand = false) :
    encode ⟨code, []⟩ = [code] :=
  encode_of_unsized (fun _ same => by rw [same] at h; cases h)
    (fun same => by rw [same] at h; cases h) []

theorem fits_of_not_takesOperand {code : UInt8} (h : (Opcode.ofByte code).takesOperand = false) :
    Fits ⟨code, []⟩ := by
  rw [Fits, opcode]
  generalize Opcode.ofByte code = op at h ⊢
  cases op with
  | pushBytes n => exact (bne_eq_false_iff_eq.1 h).symm
  | pushData width => cases h
  | flow op =>
    cases op with
    | jump | jumpIf | jumpIfNot | call | appCall | tailCall | sysCall => cases h
    | nop | ret | throw | throwIfNot => rfl
  | _ => rfl

theorem encode_of_isJump {code : UInt8} (h : (Opcode.ofByte code).isJump = true) (operand : Bytes) :
    encode ⟨code, operand⟩ = code :: operand :=
  encode_of_unsized (fun _ same => by rw [same] at h; cases h)
    (fun same => by rw [same] at h; cases h) operand

theorem fits_of_isJump {code : UInt8} (h : (Opcode.ofByte code).isJump = true) {operand : Bytes}
    (size : operand.length = offsetSize) : Fits ⟨code, operand⟩ := by
  rw [Fits, opcode]
  generalize Opcode.ofByte code = op at h ⊢
  cases op with
  | flow op =>
    cases op with
    | jump | jumpIf | jumpIfNot | call => exact size
    | _ => cases h
  | _ => cases h

/-- How long the bytes are depends on the code and on the length of the operand only. -/
theorem length_encode_congr {code : UInt8} {operand operand' : Bytes}
    (h : operand.length = operand'.length) :
    (encode ⟨code, operand⟩).length = (encode ⟨code, operand'⟩).length := by
  simp only [encode, sizeField, opcode, List.length_cons, List.length_append, h]

end Instruction

namespace Builder

/-! ## Calls -/

/-- A call on a builder. -/
inductive Call where
  /-- Push a value. -/
  | push (value : Constant)
  /-- Append a code. -/
  | emit (code : UInt8)
  /-- Append a system call. -/
  | syscall (name : String)
  /-- Append a call of another contract, or a jump into it. -/
  | appCall (contract : Bytes) (tail : Bool)
  /-- Place a label. -/
  | label (name : RawText)
  /-- Append a jump to a label. -/
  | jump (code : UInt8) (name : RawText)
deriving DecidableEq

/-- An opinion on where the labels are. -/
abbrev Places := RawText → Option Nat

/-- No label has been placed. -/
def unplaced : Places := fun _ => none

/-- The operand of a jump that starts at `start`. -/
def distance (start : Nat) : Option Nat → Bytes
  | none => [0, 0]
  | some target => Bytes.ofNatLE 2 (((target : Int) - start) % 0x10000).toNat

namespace Call

/-- Make a call. -/
def make : Call → Building Unit
  | .push value => Builder.push value
  | .emit code => Builder.emit code.toNat []
  | .syscall name => Builder.syscall name
  | .appCall contract tail => Builder.appCall contract tail
  | .label name => Builder.label name
  | .jump code name => Builder.jump code.toNat name

/-- What a call may ask for: a value that an item can hold, a code without an operand, a name that
is not too long, or a jump. -/
def Allowed : Call → Prop
  | .push value => value.byteForm.length ≤ maxItemSize
  | .emit code => (Opcode.ofByte code).takesOperand = false
  | .syscall name => ∀ raw, SyscallId.ascii? name = some raw →
    raw.length ≤ Instruction.maxSyscallName
  | .appCall .. | .label _ => True
  | .jump code _ => (Opcode.ofByte code).isJump = true

/-- The instruction that a call emits at `start`. -/
def instruction (place : Places) (start : Nat) : Call → Option Instruction
  | .push value => some value.instruction
  | .emit code => some ⟨code, []⟩
  | .syscall name => (SyscallId.ascii? name).map (⟨0x68, ·⟩)
  | .appCall contract tail => some ⟨if tail then 0x69 else 0x67, contract⟩
  | .label _ => none
  | .jump code name => some ⟨code, distance start (place name)⟩

/-- The bytes that a call emits at `start`. -/
def bytes (place : Places) (start : Nat) (call : Call) : Bytes :=
  (call.instruction place start).elim [] Instruction.encode

/-- The label that a call places at `start`. -/
def placed (start : Nat) : Call → Option (RawText × Nat)
  | .label name => some (name, start)
  | _ => none

/-- The jump that a call leaves to be resolved. -/
def pending (start : Nat) : Call → Option PendingJump
  | .jump _ name => some ⟨start, name⟩
  | _ => none

end Call

/-! ## Logs -/

/-- Calls that have been made, each with the length that the script had. -/
abbrev Log := List (Nat × Call)

/-- Make one call after the other.  One that fails is not logged. -/
def perform : List Call → Builder → Log × Builder
  | [], b => ([], b)
  | call :: calls, b =>
    match call.make b with
    | .ok _ b' => ((b.code.length, call) :: (perform calls b').1, (perform calls b').2)
    | .error _ b' => perform calls b'

/-- The instructions that have been emitted, each with its place. -/
def emissions (place : Places) (log : Log) : List (Nat × Instruction) :=
  log.filterMap fun (start, call) => (call.instruction place start).map (start, ·)

/-- Their bytes. -/
def codeOf (place : Places) (log : Log) : Bytes :=
  log.flatMap fun (start, call) => call.bytes place start

/-- The labels that have been placed, in order. -/
def labelsOf (log : Log) : List (RawText × Nat) :=
  log.flatMap fun (start, call) => (call.placed start).toList

/-- The jumps that have been left to be resolved, in order. -/
def jumpsOf (log : Log) : List PendingJump :=
  log.flatMap fun (start, call) => (call.pending start).toList

/-- Where the labels of a log are.  A label that was placed several times is where it was placed
last. -/
def placeOf (log : Log) : Places := fun name =>
  (log.reverse.find? fun entry => entry.2 = .label name).map (·.1)

section

variable (places : Places) (start : Nat) (call : Call) (log : Log)

theorem codeOf_cons :
    codeOf places ((start, call) :: log) = call.bytes places start ++ codeOf places log := rfl

theorem emissions_cons : emissions places ((start, call) :: log) =
    ((call.instruction places start).map (start, ·)).toList ++ emissions places log := by
  rw [emissions, List.filterMap_cons]
  dsimp only
  cases call.instruction places start <;> rfl

theorem labelsOf_cons :
    labelsOf ((start, call) :: log) = (call.placed start).toList ++ labelsOf log := rfl

theorem jumpsOf_cons :
    jumpsOf ((start, call) :: log) = (call.pending start).toList ++ jumpsOf log := rfl

end

/-! ## What a call does -/

theorem emit_eq (code : UInt8) (operand : Bytes) :
    Builder.emit code.toNat operand = append (code :: operand) := by
  have byte : 0 ≤ (code.toNat : Int) ∧ (code.toNat : Int) < 256 :=
    ⟨Int.natCast_nonneg _, Int.ofNat_lt.2 code.toNat_lt⟩
  rw [Builder.emit, if_pos byte, Int.toNat_natCast, UInt8.ofNat_toNat]

/-- A system call that succeeds has a name of bytes, and appends them behind their number. -/
theorem syscall_eq_ok {name : String} {b b' : Builder}
    (h : Builder.syscall name b = .ok () b') : ∃ raw, SyscallId.ascii? name = some raw ∧
      b' = { b with code := b.code ++ Instruction.encode ⟨0x68, raw⟩ } := by
  rw [Builder.syscall] at h
  cases found : SyscallId.ascii? name with
  | none =>
    rw [found] at h
    cases h
  | some raw =>
    rw [found] at h
    dsimp only at h
    split at h
    · cases h
    · cases h
      exact ⟨raw, rfl, rfl⟩

/-- A call of another contract that succeeds appends a name of the right size. -/
theorem appCall_eq_ok {contract : Bytes} {tail : Bool} {b b' : Builder}
    (h : Builder.appCall contract tail b = .ok () b') : contract.length = Instruction.contractSize ∧
      b' = { b with
        code := b.code ++ Instruction.encode ⟨if tail then 0x69 else 0x67, contract⟩ } := by
  rw [Builder.appCall] at h
  by_cases size : contract.length = Instruction.contractSize
  · rw [if_neg (fun other => other size)] at h
    cases h
    refine ⟨size, ?_⟩
    cases tail <;> rfl
  · rw [if_pos size] at h
    cases h

theorem length_distance (start : Nat) (target : Option Nat) :
    (distance start target).length = Instruction.offsetSize := by
  cases target with
  | none => rfl
  | some target => exact Bytes.length_ofNatLE _ _

namespace Call

variable {call : Call} {b b' : Builder}

/-- What a call has done that has succeeded: it has appended its bytes, placed its label and left
its jump to be resolved. -/
structure Made (call : Call) (b b' : Builder) : Prop where
  /-- The bytes. -/
  code : b'.code = b.code ++ call.bytes unplaced b.code.length
  /-- The label. -/
  labels : b'.labels = (call.placed b.code.length).toList ++ b.labels
  /-- The jump. -/
  jumps : b'.jumps = b.jumps ++ (call.pending b.code.length).toList
  /-- What has been emitted can be read again. -/
  fits : ∀ place start i, call.instruction place start = some i → i.Fits

theorem made (allowed : call.Allowed) (h : call.make b = .ok () b') : call.Made b b' := by
  cases call with
  | push value =>
    rw [Constant.push_eq_ok h]
    refine ⟨rfl, rfl, (List.append_nil _).symm, fun _ _ i same => ?_⟩
    cases same
    exact Constant.fits_instruction allowed
  | emit code =>
    rw [make, emit_eq] at h
    cases h
    refine ⟨congrArg (b.code ++ ·) ?_, rfl, (List.append_nil _).symm, fun _ _ i same => ?_⟩
    · exact (Instruction.encode_of_not_takesOperand allowed).symm
    · cases same
      exact Instruction.fits_of_not_takesOperand allowed
  | syscall name =>
    obtain ⟨raw, found, rfl⟩ := syscall_eq_ok h
    refine ⟨?_, rfl, (List.append_nil _).symm, fun _ _ i same => ?_⟩
    · rw [bytes, instruction, found]
      rfl
    · rw [instruction, found] at same
      cases same
      exact allowed raw found
  | appCall contract tail =>
    obtain ⟨size, rfl⟩ := appCall_eq_ok h
    refine ⟨rfl, rfl, (List.append_nil _).symm, fun _ _ i same => ?_⟩
    cases same
    cases tail <;> exact size
  | label name =>
    cases h
    exact ⟨(List.append_nil _).symm, rfl, (List.append_nil _).symm, fun _ _ i same => by cases same⟩
  | jump code name =>
    rw [make, Builder.jump, emit_eq] at h
    cases h
    refine ⟨congrArg (b.code ++ ·) (Instruction.encode_of_isJump allowed [0, 0]).symm, rfl, rfl,
      fun place start i same => ?_⟩
    cases same
    exact Instruction.fits_of_isJump allowed (length_distance start _)

/-- A call that fails leaves nothing behind. -/
theorem eq_of_error {cause : BuildFault} (h : call.make b = .error cause b') : b' = b := by
  cases call with
  | push value =>
    cases value with
    | text t =>
      rw [make, Builder.push] at h
      split at h
      · cases h
      · cases h; rfl
    | _ => cases h
  | emit code =>
    rw [make, emit_eq] at h
    cases h
  | syscall name =>
    rw [make, Builder.syscall] at h
    cases found : SyscallId.ascii? name with
    | none =>
      rw [found] at h
      cases h
      rfl
    | some raw =>
      rw [found] at h
      dsimp only at h
      split at h
      · cases h; rfl
      · cases h
  | appCall contract tail =>
    rw [make, Builder.appCall] at h
    split at h
    · cases h; rfl
    · cases h
  | label name => cases h
  | jump code name =>
    rw [make, Builder.jump, emit_eq] at h
    cases h

/-- How long the bytes are that a call emits does not depend on the labels. -/
theorem length_bytes (call : Call) (place place' : Places) (start start' : Nat) :
    (call.bytes place start).length = (call.bytes place' start').length := by
  cases call with
  | jump code name =>
    exact Instruction.length_encode_congr ((length_distance _ _).trans (length_distance _ _).symm)
  | _ => rfl

end Call

/-! ## What several calls do -/

/-- The calls of a log have emitted their bytes one behind the other, from a place on. -/
def Laid : Nat → Log → Prop
  | _, [] => True
  | position, (start, call) :: log =>
    start = position ∧ Laid (position + (call.bytes unplaced start).length) log

/-- What the calls in a log have done to a builder. -/
structure Logged (log : Log) (b b' : Builder) : Prop where
  /-- They have emitted their bytes one behind the other. -/
  laid : Laid b.code.length log
  /-- The bytes have been appended. -/
  code : b'.code = b.code ++ codeOf unplaced log
  /-- The labels have been placed. -/
  labels : b'.labels = (labelsOf log).reverse ++ b.labels
  /-- The jumps have been left to be resolved. -/
  jumps : b'.jumps = b.jumps ++ jumpsOf log
  /-- What has been emitted can be read again. -/
  fits : ∀ entry ∈ log, ∀ place start i, entry.2.instruction place start = some i → i.Fits
  /-- The calls were allowed. -/
  allowed : ∀ entry ∈ log, entry.2.Allowed

theorem logged {calls : List Call} (allowed : ∀ call ∈ calls, call.Allowed) (b : Builder) :
    Logged (perform calls b).1 b (perform calls b).2 := by
  induction calls generalizing b with
  | nil =>
    exact ⟨trivial, (List.append_nil _).symm, rfl, (List.append_nil _).symm,
      fun _ mem => absurd mem List.not_mem_nil, fun _ mem => absurd mem List.not_mem_nil⟩
  | cons call calls ih =>
    obtain ⟨first, others⟩ := List.forall_mem_cons.1 allowed
    rw [perform]
    split
    · next b' h =>
      have made := Call.made first h
      have rest := ih others b'
      refine ⟨⟨rfl, ?_⟩, ?_, ?_, ?_, ?_, ?_⟩
      · rw [← List.length_append, ← made.code]
        exact rest.laid
      · rw [rest.code, made.code, List.append_assoc]
        rfl
      · have one : ∀ placed : Option (RawText × Nat), placed.toList.reverse = placed.toList
          | none => rfl
          | some _ => rfl
        rw [rest.labels, made.labels, labelsOf_cons, List.reverse_append, one, List.append_assoc]
      · rw [rest.jumps, made.jumps, jumpsOf_cons, List.append_assoc]
      · exact List.forall_mem_cons.2 ⟨made.fits, rest.fits⟩
      · exact List.forall_mem_cons.2 ⟨first, rest.allowed⟩
    · next cause b' h =>
      rw [Call.eq_of_error h]
      exact ih others b

end Builder

end DryRun
