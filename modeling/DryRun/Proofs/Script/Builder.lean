import DryRun.Proofs.Script.Log

/-!
# Builder and machine agree on instructions

Resolving a jump writes over two bytes in the middle of a script.  In terms of the log it changes
where one jump takes its label to be: the script before and the script after are the same function
of the log (`Builder.codeOf`), for two opinions on where the labels are.  So resolving all jumps
goes through the log entry by entry and puts the places of the labels where there were none
(`Builder.resolve_all`).  No length changes on the way, so everything stays where it was.

`builder_agrees_with_machine` says that what the calls have emitted is what the machine reads.
-/

set_option autoImplicit false

namespace DryRun

namespace Builder

/-! ## Resolving -/

/-- Where the labels of a builder are. -/
def placeIn (labels : List (RawText × Nat)) : Places := fun name =>
  (labels.find? fun entry => entry.1 = name).map (·.2)

theorem placeIn_labelsOf (log : Log) : placeIn (labelsOf log).reverse = placeOf log := by
  funext name
  induction log with
  | nil => rfl
  | cons entry log ih =>
    obtain ⟨start, call⟩ := entry
    rw [placeIn, placeOf] at ih ⊢
    rw [labelsOf_cons, List.reverse_append, List.reverse_cons, List.find?_append, List.find?_append,
      Option.map_or, Option.map_or, ih]
    congr 1
    cases call with
    | label other =>
      by_cases same : other = name
      · subst same
        simp [Call.placed]
      · simp [Call.placed, same]
    | _ => rfl

/-- A distance that can be written. -/
def Near (start target : Nat) : Prop :=
  -0x8000 ≤ (target : Int) - start ∧ (target : Int) - start ≤ 0x7FFF

theorem get_bind {α : Type} (f : Builder → Building α) (b : Builder) :
    (get >>= f : Building α) b = f b b := rfl

/-- **Resolving a jump** writes the distance over the two bytes behind the code, and leaves all
other bytes as they are. -/
theorem resolve_eq_ok {start : Nat} {name : RawText} {b b' : Builder} {before behind : Bytes}
    {code : UInt8} {hole : Bytes} (place : before.length = start)
    (size : hole.length = Instruction.offsetSize)
    (split : b.code = before ++ (code :: hole ++ behind))
    (h : resolve ⟨start, name⟩ b = .ok () b') :
    ∃ target, placeIn b.labels name = some target ∧ Near start target ∧
      b' = { b with code := before ++ (code :: distance start (some target) ++ behind) } := by
  cases found : b.labels.find? fun entry => entry.1 = name with
  | none =>
    rw [resolve, get_bind, found] at h
    cases h
  | some entry =>
    obtain ⟨other, target⟩ := entry
    rw [resolve, get_bind, found] at h
    dsimp only at h
    split at h
    · cases h
    · next near =>
      cases h
      refine ⟨target, by rw [placeIn, found]; rfl, by rw [Near]; omega, ?_⟩
      subst place
      have first : b.code.take (before.length + 1) = before ++ [code] := by
        rw [split, List.cons_append, List.append_cons]
        exact List.take_left' (by rw [List.length_append, List.length_singleton])
      have last : b.code.drop (before.length + 1 + 2) = behind := by
        rw [split, ← List.append_assoc]
        refine List.drop_left' ?_
        rw [List.length_append, List.length_cons, size]
        rfl
      rw [first, last, List.append_assoc, List.append_assoc]
      rfl

/-- **Resolving the jumps of a log** changes where its labels are taken to be, and every jump has a
label that is near. -/
theorem resolve_all {log : Log} {before : Bytes} {b b' : Builder} (laid : Laid before.length log)
    (allowed : ∀ entry ∈ log, entry.2.Allowed)
    (code : b.code = before ++ codeOf unplaced log)
    (h : (jumpsOf log).forM resolve b = .ok () b') :
    b'.code = before ++ codeOf (placeIn b.labels) log ∧
      ∀ start code name, (start, .jump code name) ∈ log →
        ∃ target, placeIn b.labels name = some target ∧ Near start target := by
  induction log generalizing before b with
  | nil =>
    cases h
    exact ⟨code, fun _ _ _ mem => absurd mem List.not_mem_nil⟩
  | cons entry log ih =>
    obtain ⟨start, call⟩ := entry
    obtain ⟨rfl, laid⟩ := laid
    obtain ⟨first, others⟩ := List.forall_mem_cons.1 allowed
    -- only a jump has other bytes afterwards
    have plain (same : call.bytes (placeIn b.labels) before.length =
        call.bytes unplaced before.length) (none : call.pending before.length = none) :
        b'.code = before ++ codeOf (placeIn b.labels) ((before.length, call) :: log) ∧
          ∀ start code name, (start, .jump code name) ∈ (before.length, call) :: log →
            ∃ target, placeIn b.labels name = some target ∧ Near start target := by
      rw [jumpsOf_cons, none] at h
      rw [codeOf_cons, ← List.append_assoc] at code ⊢
      rw [← List.length_append] at laid
      rw [same]
      obtain ⟨code', near⟩ := ih laid others code h
      refine ⟨code', fun start code name mem => ?_⟩
      rcases List.mem_cons.1 mem with same | mem
      · cases same
        cases none
      · exact near _ _ _ mem
    cases call with
    | jump op name =>
      have unresolved : (Call.jump op name).bytes unplaced before.length = op :: [0, 0] :=
        Instruction.encode_of_isJump first _
      rw [codeOf_cons, unresolved] at code
      change EStateM.bind (resolve ⟨before.length, name⟩)
        (fun _ => (jumpsOf log).forM resolve) b = _ at h
      rw [EStateM.bind] at h
      split at h
      · next b₁ done =>
        obtain ⟨target, found, near, rfl⟩ := resolve_eq_ok rfl rfl code done
        have resolved : (Call.jump op name).bytes (placeIn b.labels) before.length =
            op :: distance before.length (some target) := by
          rw [← found]
          exact Instruction.encode_of_isJump first _
        rw [unresolved] at laid
        have size : (before ++ op :: distance before.length (some target)).length =
            before.length + (op :: [0, 0]).length := by
          rw [List.length_append, List.length_cons, length_distance]
          rfl
        rw [← size] at laid
        obtain ⟨code', all⟩ := ih laid others (List.append_assoc before _ _).symm h
        refine ⟨?_, fun start code name' mem => ?_⟩
        · rw [code', codeOf_cons, resolved, List.append_assoc]
        · rcases List.mem_cons.1 mem with same | mem
          · cases same
            exact ⟨target, found, near⟩
          · exact all _ _ _ mem
      · cases h
    | _ => exact plain rfl rfl

/-- The bytes that have been emitted are as many, wherever the labels are. -/
theorem length_codeOf (places places' : Places) (log : Log) :
    (codeOf places log).length = (codeOf places' log).length := by
  induction log with
  | nil => rfl
  | cons entry log ih =>
    rw [codeOf_cons, codeOf_cons, List.length_append, List.length_append, ih,
      Call.length_bytes _ places places' entry.1 entry.1]

/-- No call was made behind the end. -/
theorem Laid.le {log : Log} {position : Nat} (laid : Laid position log) {start : Nat} {call : Call}
    (mem : (start, call) ∈ log) : start ≤ position + (codeOf unplaced log).length := by
  induction log generalizing position with
  | nil => exact absurd mem List.not_mem_nil
  | cons entry log ih =>
    obtain ⟨rfl, laid⟩ := laid
    rw [codeOf_cons, List.length_append]
    rcases List.mem_cons.1 mem with rfl | mem
    · exact Nat.le_add_right _ _
    · have := ih laid mem
      omega

theorem mem_of_placeOf {log : Log} {name : RawText} {target : Nat}
    (h : placeOf log name = some target) : (target, .label name) ∈ log := by
  obtain ⟨⟨place, call⟩, found, rfl⟩ := Option.map_eq_some_iff.1 h
  have same := List.find?_some found
  cases of_decide_eq_true same
  exact List.mem_reverse.1 (List.mem_of_find?_eq_some found)

/-- A distance that can be written is read again. -/
theorem Near.decode_distance {start target : Nat} (near : Near start target) :
    (start : Int) + TwosComplement.decode (distance start (some target)) = target := by
  obtain ⟨low, high⟩ := near
  have spelled (n : Nat) : TwosComplement.decode (Bytes.ofNatLE 2 n) =
      (n % 256 : Nat) + 256 * if n / 256 % 256 < 128 then ((n / 256 % 256 : Nat) : Int)
        else (n / 256 % 256 : Nat) - 256 := rfl
  rw [distance, spelled]
  split <;> omega

/-! ## Reading what has been built -/

/-- **What has been emitted is read**, in front of nothing and behind anything. -/
theorem decodes_emissions (places : Places) {log : Log} {before : Bytes}
    (laid : Laid before.length log)
    (fits : ∀ entry ∈ log, ∀ place start i, entry.2.instruction place start = some i → i.Fits) :
    Decodes (.ofBytes (before ++ codeOf places log)) before.length (emissions places log) := by
  induction log generalizing before with
  | nil =>
    have size : (Script.ofBytes (before ++ codeOf places [])).size = before.length := by
      rw [Script.size_eq_length, Script.bytes_ofBytes]
      exact congrArg List.length (List.append_nil before)
    exact size ▸ .done
  | cons entry log ih =>
    obtain ⟨start, call⟩ := entry
    obtain ⟨rfl, laid⟩ := laid
    obtain ⟨first, others⟩ := List.forall_mem_cons.1 fits
    rw [Call.length_bytes call unplaced places before.length before.length] at laid
    rw [codeOf_cons, emissions_cons]
    cases emitted : call.instruction places before.length with
    | none =>
      have nothing : call.bytes places before.length = [] := by rw [Call.bytes, emitted]; rfl
      rw [nothing] at laid ⊢
      exact ih laid others
    | some i =>
      have bytes : call.bytes places before.length = i.encode := by rw [Call.bytes, emitted]; rfl
      rw [bytes, ← List.length_append] at laid
      rw [bytes, ← List.append_assoc]
      exact .of_encode (first _ _ _ emitted) (ih laid others)

/-- A log and a script agree, in which labels are where they were placed last. -/
structure Agrees (log : Log) (script : Bytes) : Prop where
  /-- From the beginning of the script to its end exactly that is read which the calls have emitted,
  in the same order and at the same places. -/
  reads : ∀ listing, Decodes (.ofBytes script) 0 listing ↔ listing = emissions (placeOf log) log
  /-- The distance in a jump leads from its place to that of its label, and the machine takes it. -/
  jumps : ∀ start code name, (start, .jump code name) ∈ log → ∃ operand target,
    (Call.jump code name).instruction (placeOf log) start = some ⟨code, operand⟩ ∧
      operand.length = Instruction.offsetSize ∧ placeOf log name = some target ∧
      (start : Int) + TwosComplement.decode operand = target ∧
      ∀ (σ : Type) (dynamicInvoke : Bool) (m : Machine σ),
        Exec.jumpTarget ⟨.ofBytes script, start, dynamicInvoke⟩ operand m = .ok target m
  /-- The instruction that was emitted for a value pushes an item of its byte form. -/
  pushes : ∀ start value, (start, .push value) ∈ log → ∃ i,
    (Call.push value).instruction (placeOf log) start = some i ∧ i.Pushes value.byteForm

theorem build_eq_ok {b b' : Builder} {script : Bytes} (h : build b = .ok script b') :
    b.jumps.forM resolve b = .ok () b' ∧ script = b'.code := by
  change EStateM.bind (b.jumps.forM resolve) (fun _ => do return (← get).code) b = _ at h
  rw [EStateM.bind] at h
  split at h
  · next b₁ done =>
    cases h
    exact ⟨done, rfl⟩
  · cases h

/-- A jump to a place that is near, in a script that goes as far, is taken. -/
theorem Near.jumpTarget_eq {start target : Nat} (near : Near start target) {script : Bytes}
    (inside : target ≤ script.length) {σ : Type} (dynamicInvoke : Bool) (m : Machine σ) :
    Exec.jumpTarget ⟨.ofBytes script, start, dynamicInvoke⟩ (distance start (some target)) m =
      .ok target m := by
  have size : (Script.ofBytes script).size = script.length := by
    rw [Script.size_eq_length, Script.bytes_ofBytes]
  rw [Exec.jumpTarget]
  dsimp only
  rw [near.decode_distance, if_neg (by omega), Int.toNat_natCast]
  rfl

end Builder

open Builder

/-- **Builder and machine agree on the format of instructions**: whatever is built from calls that
are allowed is read as what the calls have emitted. -/
theorem builder_agrees_with_machine (calls : List Call) (allowed : ∀ call ∈ calls, call.Allowed)
    (script : Bytes) (b : Builder) (built : build (perform calls .empty).2 = .ok script b) :
    Agrees (perform calls .empty).1 script := by
  have logged := logged allowed .empty
  generalize perform calls .empty = performed at logged built
  obtain ⟨log, b₀⟩ := performed
  obtain ⟨resolved, rfl⟩ := build_eq_ok built
  have jumps : b₀.jumps = jumpsOf log := logged.jumps
  have labels : placeIn b₀.labels = placeOf log := by
    rw [logged.labels, Builder.empty, List.append_nil, placeIn_labelsOf]
  rw [jumps] at resolved
  have laid : Laid ([] : Bytes).length log := logged.laid
  obtain ⟨code, near⟩ := resolve_all laid logged.allowed logged.code resolved
  rw [labels] at code near
  refine ⟨?_, fun start op name mem => ?_, fun start value mem => ?_⟩
  · have decodes := decodes_emissions (placeOf log) laid logged.fits
    rw [← code] at decodes
    exact fun listing => ⟨fun other => other.unique decodes, fun same => same ▸ decodes⟩
  · obtain ⟨target, found, near⟩ := near start op name mem
    have inside : target ≤ b.code.length := by
      have le := logged.laid.le (mem_of_placeOf found)
      rw [length_codeOf unplaced (placeOf log)] at le
      rw [code]
      exact Nat.le_trans le (Nat.le_of_eq (Nat.zero_add _))
    refine ⟨distance start (some target), target, ?_, length_distance _ _, found,
      near.decode_distance, fun _ dynamicInvoke m => near.jumpTarget_eq inside dynamicInvoke m⟩
    rw [Call.instruction, found]
  · exact ⟨value.instruction, rfl, value.pushes_instruction⟩

/-- A loop that is left by a jump forwards, and goes on by a jump backwards. -/
theorem builder_agrees_with_machine_on_loop :
    let calls : List Call := [.label [97], .push (.bytes [1, 2]), .jump 0x63 [98], .emit 0x61,
      .jump 0x62 [97], .label [98], .emit 0x66]
    ∃ b, build (perform calls .empty).2 =
        .ok [2, 1, 2, 0x63, 7, 0, 0x61, 0x62, 0xF9, 0xFF, 0x66] b ∧
      Agrees (perform calls .empty).1 [2, 1, 2, 0x63, 7, 0, 0x61, 0x62, 0xF9, 0xFF, 0x66] :=
  ⟨_, rfl, builder_agrees_with_machine _ (by simp [Call.Allowed]; decide) _ _ rfl⟩

end DryRun
