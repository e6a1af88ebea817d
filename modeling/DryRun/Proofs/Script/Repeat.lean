import DryRun.Proofs.Script.Builder

/-!
# Builders that are used again and again

A builder may be asked for its script at any time and then be used further, and some of the calls on
it fail.  Asking writes distances into the script, and an attempt that fails may have written some
of them and not others.  This leaves no trace in what is built later, because the next attempt
writes over the same bytes: two builders that differ in nothing but the operands of jumps that they
both have still to resolve build the same script (`Builder.Tracks.built_eq`).

Calls that fail leave no trace either, with one exception.  A jump is noted before its code is
looked at, so a jump that is refused is resolved with the others, although nothing was emitted for
it.

* `Builder.Action.make_eq` — what a call does, from which the exception can be read off.
* `Builder.Tracks` — what a builder with a history has in common with a fresh one that was given
  only the calls that have succeeded.
* `builds_are_repeatable` — the promise, for all histories in which no jump is refused, and what a
  refused jump does to the others.
-/

set_option autoImplicit false

namespace DryRun

namespace Builder

/-! ## Calls that may fail -/

/-- A computation that appends bytes or fails, and does not look at the builder. -/
def Appends (result : Except BuildFault Bytes) (c : Building Unit) : Prop :=
  ∀ b, c b = match result with
    | .ok bytes => .ok () { b with code := b.code ++ bytes }
    | .error fault => .error fault b

theorem exists_appends_append (bytes : Bytes) : ∃ result, Appends result (append bytes) :=
  ⟨.ok bytes, fun _ => rfl⟩

theorem exists_appends_throw (fault : BuildFault) : ∃ result, Appends result (throw fault) :=
  ⟨.error fault, fun _ => rfl⟩

theorem exists_appends_emit (code : Int) (operand : Bytes) :
    ∃ result, Appends result (emit code operand) := by
  rw [emit]
  split
  · exact exists_appends_append _
  · exact exists_appends_throw _

theorem exists_appends_push (value : Constant) : ∃ result, Appends result (push value) := by
  cases value with
  | text t =>
    rw [push]
    split
    · exact exists_appends_append _
    · exact exists_appends_throw _
  | _ => exact exists_appends_append _

theorem exists_appends_syscall (name : String) : ∃ result, Appends result (syscall name) := by
  rw [syscall]
  split
  · split
    · exact exists_appends_throw _
    · exact exists_appends_append _
  · exact exists_appends_throw _

theorem exists_appends_appCall (contract : Bytes) (tail : Bool) :
    ∃ result, Appends result (appCall contract tail) := by
  rw [appCall]
  split
  · exact exists_appends_throw _
  · exact exists_appends_append _

/-- A call on a builder.  Any integer may be given for a code. -/
inductive Action where
  /-- Append an instruction. -/
  | emit (code : Int) (operand : Bytes)
  /-- Push a value. -/
  | push (value : Constant)
  /-- Append a system call. -/
  | syscall (name : String)
  /-- Append a call of another contract, or a jump into it. -/
  | appCall (contract : Bytes) (tail : Bool)
  /-- Place a label. -/
  | label (name : RawText)
  /-- Append a jump to a label. -/
  | jump (code : Int) (name : RawText)
deriving DecidableEq

namespace Action

/-- Make a call. -/
def make : Action → Building Unit
  | .emit code operand => Builder.emit code operand
  | .push value => Builder.push value
  | .syscall name => Builder.syscall name
  | .appCall contract tail => Builder.appCall contract tail
  | .label name => Builder.label name
  | .jump code name => Builder.jump code name

/-- The bytes that a call appends, or the cause for which it fails. -/
def bytes (action : Action) : Except BuildFault Bytes :=
  match action.make .empty with
  | .ok _ b => .ok b.code
  | .error fault _ => .error fault

/-- The label that it places at `start`. -/
def placed (start : Nat) : Action → List (RawText × Nat)
  | .label name => [(name, start)]
  | _ => []

/-- The jump that it notes. -/
def noted (start : Nat) : Action → List PendingJump
  | .jump _ name => [⟨start, name⟩]
  | _ => []

/-- A call is a jump whose code is not a byte. -/
def RefusedJump : Action → Prop
  | .jump code _ => ¬ (0 ≤ code ∧ code < 256)
  | _ => False

/-- What a call does to a builder: it appends its bytes and places its label unless it fails, and it
notes its jump in either case. -/
def result (action : Action) (b : Builder) : EStateM.Result BuildFault Builder Unit :=
  match action.bytes with
  | .ok bytes => .ok () ⟨b.code ++ bytes, action.placed b.code.length ++ b.labels,
      b.jumps ++ action.noted b.code.length⟩
  | .error fault => .error fault { b with jumps := b.jumps ++ action.noted b.code.length }

theorem result_of_appends {action : Action} {b : Builder}
    (appends : ∃ result, Appends result action.make) (places : action.placed b.code.length = [])
    (notes : action.noted b.code.length = []) : action.make b = action.result b := by
  obtain ⟨result, appends⟩ := appends
  rw [Action.result, bytes, appends b, appends .empty, places, notes, List.append_nil]
  cases result <;> rfl

/-- **What a call does.** -/
theorem make_eq (action : Action) (b : Builder) : action.make b = action.result b := by
  cases action with
  | emit code operand => exact result_of_appends (exists_appends_emit code operand) rfl rfl
  | push value => exact result_of_appends (exists_appends_push value) rfl rfl
  | syscall name => exact result_of_appends (exists_appends_syscall name) rfl rfl
  | appCall contract tail =>
    exact result_of_appends (exists_appends_appCall contract tail) rfl rfl
  | label name =>
    show _ = EStateM.Result.ok () (Builder.mk (b.code ++ []) _ (b.jumps ++ []))
    rw [List.append_nil, List.append_nil]
    rfl
  | jump code name =>
    obtain ⟨result, appends⟩ := exists_appends_emit code [0, 0]
    have jumps (b : Builder) : (Action.jump code name).make b =
        Builder.emit code [0, 0] { b with jumps := b.jumps ++ [⟨b.code.length, name⟩] } := rfl
    rw [Action.result, bytes, jumps, jumps, appends, appends]
    cases result <;> rfl

/-- A jump fails if its code is not a byte, and has three bytes otherwise. -/
theorem bytes_jump (code : Int) (name : RawText) : (Action.jump code name).bytes =
    if 0 ≤ code ∧ code < 256 then .ok [UInt8.ofNat code.toNat, 0, 0]
    else .error (.codeOutOfRange code) := by
  show (match Builder.emit code [0, 0] ⟨[], [], [⟨0, name⟩]⟩ with
    | .ok _ b => Except.ok b.code
    | .error fault _ => .error fault) = _
  rw [Builder.emit]
  by_cases byte : 0 ≤ code ∧ code < 256
  · rw [if_pos byte, if_pos byte]
    rfl
  · rw [if_neg byte, if_neg byte]
    rfl

/-- **Calls that fail** leave the builder as it was, unless they are jumps. -/
theorem noted_of_error {action : Action} {fault : BuildFault} (fails : action.bytes = .error fault)
    (other : ¬ action.RefusedJump) (start : Nat) : action.noted start = [] := by
  cases action with
  | jump code name =>
    rw [bytes_jump, if_pos (Classical.not_not.1 other)] at fails
    cases fails
  | _ => rfl

end Action

/-! ## Histories -/

/-- What a builder is used for. -/
inductive Use where
  /-- A call, which may fail. -/
  | call (action : Action)
  /-- An attempt to build the script. -/
  | build

/-- The state that a computation has left, however it came out. -/
def left {α : Type} : EStateM.Result BuildFault Builder α → Builder
  | .ok _ b => b
  | .error _ b => b

/-- How a computation came out. -/
def outcome {α : Type} : EStateM.Result BuildFault Builder α → Except BuildFault α
  | .ok a _ => .ok a
  | .error fault _ => .error fault

/-- The builder after a use. -/
def Use.apply (b : Builder) : Use → Builder
  | .call action => left (action.make b)
  | .build => left (Builder.build b)

/-- The builder after a history. -/
def after (b : Builder) (uses : List Use) : Builder := uses.foldl Use.apply b

/-- The calls of a history that have succeeded. -/
def succeeded : Builder → List Use → List Action
  | _, [] => []
  | b, .build :: uses => succeeded (left (build b)) uses
  | b, .call action :: uses =>
    match action.make b with
    | .ok _ b' => action :: succeeded b' uses
    | .error _ b' => succeeded b' uses

end Builder

open Builder

/-! ## Operands of jumps -/

namespace PendingJump

/-- A place in the operand of a jump. -/
def Covers (jump : PendingJump) (i : Nat) : Prop :=
  i = jump.position + 1 ∨ i = jump.position + 2

/-- The operand of a jump, if its label was placed and is near. -/
def operand (labels : List (RawText × Nat)) (jump : PendingJump) : Except BuildFault Bytes :=
  match labels.find? fun entry => entry.1 = jump.label with
  | none => .error (.undefinedLabel jump.label)
  | some (_, target) =>
    let offset := (target : Int) - jump.position
    if offset < -0x8000 ∨ 0x7FFF < offset then .error (.offsetTooFar offset)
    else .ok (Bytes.ofNatLE 2 (offset % 0x10000).toNat)

/-- Write an operand over the two bytes behind the code of a jump. -/
def fill (jump : PendingJump) (operand code : Bytes) : Bytes :=
  code.take (jump.position + 1) ++ operand ++ code.drop (jump.position + 1 + 2)

/-- The jump lies within the script. -/
def Inside (jump : PendingJump) (code : Bytes) : Prop := jump.position + 3 ≤ code.length

variable {jump : PendingJump} {labels : List (RawText × Nat)} {operand code : Bytes}

theorem length_of_operand (h : jump.operand labels = .ok operand) : operand.length = 2 := by
  rw [PendingJump.operand] at h
  split at h
  · cases h
  · dsimp only at h
    split at h
    · cases h
    · cases h
      exact Bytes.length_ofNatLE _ _

section

variable (inside : jump.Inside code) (size : operand.length = 2)

include inside size

theorem length_fill : (jump.fill operand code).length = code.length := by
  rw [Inside] at inside
  rw [fill, List.length_append, List.length_append, List.length_take, List.length_drop, size]
  omega

/-- Only the operand is written. -/
theorem getElem?_fill_of_not_covers {i : Nat} (other : ¬ jump.Covers i) :
    (jump.fill operand code)[i]? = code[i]? := by
  rw [Inside] at inside
  rw [Covers] at other
  have taken : (code.take (jump.position + 1)).length = jump.position + 1 := by
    rw [List.length_take]
    omega
  rw [fill, List.append_assoc]
  by_cases before : i < jump.position + 1
  · rw [List.getElem?_append_left (by omega), List.getElem?_take, if_pos before]
  · rw [List.getElem?_append_right (by omega), taken, List.getElem?_append_right (by omega), size,
      List.getElem?_drop]
    congr 1
    omega

/-- What was there before does not matter. -/
theorem getElem?_fill_of_covers {i : Nat} (covers : jump.Covers i) :
    (jump.fill operand code)[i]? = operand[i - (jump.position + 1)]? := by
  rw [Inside] at inside
  rw [Covers] at covers
  have taken : (code.take (jump.position + 1)).length = jump.position + 1 := by
    rw [List.length_take]
    omega
  rw [fill, List.append_assoc, List.getElem?_append_right (by omega), taken,
    List.getElem?_append_left (by omega)]

end

end PendingJump

namespace Builder

variable {jump : PendingJump} {jumps : List PendingJump} {b c : Builder}
  {code code' code'' operand : Bytes}

/-- Two scripts differ at most in the operands of some jumps. -/
structure Alike (jumps : List PendingJump) (code code' : Bytes) : Prop where
  /-- They have the same length. -/
  length : code'.length = code.length
  /-- All other bytes are the same. -/
  same : ∀ i, (∀ jump ∈ jumps, ¬ jump.Covers i) → code'[i]? = code[i]?

theorem Alike.refl (jumps : List PendingJump) (code : Bytes) : Alike jumps code code :=
  ⟨rfl, fun _ _ => rfl⟩

theorem Alike.trans (h : Alike jumps code code') (k : Alike jumps code' code'') :
    Alike jumps code code'' :=
  ⟨k.length.trans h.length, fun i others => (k.same i others).trans (h.same i others)⟩

theorem Alike.mono {more : List PendingJump} (h : Alike jumps code code')
    (subset : ∀ jump ∈ jumps, jump ∈ more) : Alike more code code' :=
  ⟨h.length, fun i others => h.same i fun jump mem => others jump (subset jump mem)⟩

theorem Alike.eq (h : Alike [] code code') : code' = code :=
  List.ext_getElem? fun i => h.same i fun _ mem => absurd mem List.not_mem_nil

theorem Alike.append (h : Alike jumps code code') (bytes : Bytes) :
    Alike jumps (code ++ bytes) (code' ++ bytes) where
  length := by rw [List.length_append, List.length_append, h.length]
  same i others := by
    rw [List.getElem?_append, List.getElem?_append, h.length, h.same i others]

section

variable (inside : jump.Inside code) (size : operand.length = 2)

include inside size

theorem alike_fill : Alike [jump] code (jump.fill operand code) where
  length := PendingJump.length_fill inside size
  same _ others := PendingJump.getElem?_fill_of_not_covers inside size
    (others jump List.mem_cons_self)

/-- **Writing the same operand** into two scripts makes them alike there. -/
theorem Alike.fill (h : Alike (jump :: jumps) code code') :
    Alike jumps (jump.fill operand code) (jump.fill operand code') := by
  have inside' : jump.Inside code' := Nat.le_trans inside (Nat.le_of_eq h.length.symm)
  refine ⟨?_, fun i others => ?_⟩
  · rw [PendingJump.length_fill inside size, PendingJump.length_fill inside' size, h.length]
  · by_cases covers : jump.Covers i
    · rw [PendingJump.getElem?_fill_of_covers inside size covers,
        PendingJump.getElem?_fill_of_covers inside' size covers]
    · rw [PendingJump.getElem?_fill_of_not_covers inside size covers,
        PendingJump.getElem?_fill_of_not_covers inside' size covers]
      exact h.same i (List.forall_mem_cons.2 ⟨covers, others⟩)

end

/-! ## Resolving -/

theorem resolve_eq (jump : PendingJump) (b : Builder) : resolve jump b =
    match jump.operand b.labels with
    | .ok operand => .ok () { b with code := jump.fill operand b.code }
    | .error fault => .error fault b := by
  rw [resolve, get_bind, PendingJump.operand]
  cases b.labels.find? fun entry => entry.1 = jump.label with
  | none => rfl
  | some entry =>
    dsimp only
    split <;> rfl

/-- Resolve jumps and return the script. -/
def resolveAll (jumps : List PendingJump) : Building Bytes := do
  jumps.forM resolve
  return (← get).code

theorem build_eq (b : Builder) : build b = resolveAll b.jumps b := rfl

theorem resolveAll_cons (jump : PendingJump) (jumps : List PendingJump) (b : Builder) :
    resolveAll (jump :: jumps) b =
      match jump.operand b.labels with
      | .ok operand => resolveAll jumps { b with code := jump.fill operand b.code }
      | .error fault => .error fault b := by
  show EStateM.bind (EStateM.bind (resolve jump) fun _ => jumps.forM resolve)
    (fun _ => do return (← get).code) b = _
  rw [EStateM.bind, EStateM.bind, resolve_eq]
  cases jump.operand b.labels <;> rfl

/-- Whether it goes well or not, nothing happens to labels and to what is noted. -/
theorem labels_left_resolveAll (jumps : List PendingJump) (b : Builder) :
    (left (resolveAll jumps b)).labels = b.labels ∧
      (left (resolveAll jumps b)).jumps = b.jumps := by
  induction jumps generalizing b with
  | nil => exact ⟨rfl, rfl⟩
  | cons jump jumps ih =>
    rw [resolveAll_cons]
    cases jump.operand b.labels with
    | error fault => exact ⟨rfl, rfl⟩
    | ok operand => exact ih { b with code := jump.fill operand b.code }

/-- Nothing but operands is written. -/
theorem alike_left_resolveAll (inside : ∀ jump ∈ jumps, jump.Inside b.code) :
    Alike jumps b.code (left (resolveAll jumps b)).code := by
  induction jumps generalizing b with
  | nil => exact .refl [] b.code
  | cons jump jumps ih =>
    rw [resolveAll_cons]
    cases found : jump.operand b.labels with
    | error fault => exact .refl _ b.code
    | ok operand =>
      obtain ⟨first, others⟩ := List.forall_mem_cons.1 inside
      have size := PendingJump.length_of_operand found
      have filled := alike_fill first size
      have rest := ih (b := { b with code := jump.fill operand b.code })
        fun jump mem => Nat.le_trans (others jump mem) (Nat.le_of_eq filled.length.symm)
      exact (filled.mono fun other mem => List.mem_cons.2 (.inl (List.mem_singleton.1 mem))).trans
        (rest.mono fun other mem => List.mem_cons_of_mem _ mem)

/-- **Two builders that differ in operands build the same**, if these are still to be written. -/
theorem outcome_resolveAll (labels : b.labels = c.labels) (alike : Alike jumps c.code b.code)
    (inside : ∀ jump ∈ jumps, jump.Inside c.code) :
    outcome (resolveAll jumps b) = outcome (resolveAll jumps c) := by
  induction jumps generalizing b c with
  | nil => exact congrArg Except.ok alike.eq
  | cons jump jumps ih =>
    rw [resolveAll_cons, resolveAll_cons, labels]
    cases found : jump.operand c.labels with
    | error fault => rfl
    | ok operand =>
      obtain ⟨first, others⟩ := List.forall_mem_cons.1 inside
      have size := PendingJump.length_of_operand found
      refine ih (b := ⟨jump.fill operand b.code, c.labels, b.jumps⟩)
        (c := { c with code := jump.fill operand c.code }) rfl (alike.fill first size)
        fun jump mem => ?_
      exact Nat.le_trans (others jump mem) (Nat.le_of_eq (alike_fill first size).length.symm)

/-- Without its label a jump cannot be resolved. -/
theorem outcome_resolveAll_of_not_placed (mem : jump ∈ jumps)
    (missing : ∀ entry ∈ b.labels, entry.1 ≠ jump.label) :
    ∃ fault, outcome (resolveAll jumps b) = .error fault := by
  induction jumps generalizing b with
  | nil => cases mem
  | cons first jumps ih =>
    rw [resolveAll_cons]
    cases found : first.operand b.labels with
    | error fault => exact ⟨fault, rfl⟩
    | ok operand =>
      rcases List.mem_cons.1 mem with rfl | mem
      · rw [PendingJump.operand, List.find?_eq_none.2 fun entry mem => by
          simpa using missing entry mem] at found
        cases found
      · exact ih mem missing

/-! ## Fresh builders -/

/-- A builder has all that a fresh one has to build its script from, and what is different will be
written anew. -/
structure Tracks (b c : Builder) : Prop where
  /-- The labels are the same. -/
  labels : b.labels = c.labels
  /-- The jumps are the same. -/
  jumps : b.jumps = c.jumps
  /-- The scripts differ at most in operands of these jumps. -/
  alike : Alike c.jumps c.code b.code
  /-- For all of them something was emitted. -/
  inside : ∀ jump ∈ c.jumps, jump.Inside c.code

namespace Tracks

theorem outcome_build (h : Tracks b c) : outcome (build b) = outcome (build c) := by
  rw [build_eq, build_eq, h.jumps]
  exact outcome_resolveAll h.labels h.alike h.inside

theorem build (h : Tracks b c) : Tracks (left (build b)) c := by
  have inside : ∀ jump ∈ b.jumps, jump.Inside b.code := by
    rw [h.jumps]
    exact fun jump mem => Nat.le_trans (h.inside jump mem) (Nat.le_of_eq h.alike.length.symm)
  obtain ⟨labels, jumps⟩ := labels_left_resolveAll b.jumps b
  have alike : Alike b.jumps b.code (left (Builder.build b)).code := alike_left_resolveAll inside
  rw [h.jumps] at alike
  exact ⟨labels.trans h.labels, jumps.trans h.jumps, h.alike.trans alike, h.inside⟩

theorem result {action : Action} (h : Tracks b c) {bytes : Bytes}
    (succeeds : action.bytes = .ok bytes) :
    Tracks (left (action.result b)) (left (action.result c)) := by
  rw [Action.result, Action.result, succeeds]
  have length : b.code.length = c.code.length := h.alike.length
  refine ⟨?_, ?_, ?_, ?_⟩
  · show action.placed _ ++ b.labels = action.placed _ ++ c.labels
    rw [length, h.labels]
  · show b.jumps ++ action.noted _ = c.jumps ++ action.noted _
    rw [length, h.jumps]
  · exact (h.alike.append bytes).mono fun jump mem => List.mem_append_left _ mem
  · intro jump mem
    change jump ∈ c.jumps ++ action.noted c.code.length at mem
    show jump.position + 3 ≤ (c.code ++ bytes).length
    rw [List.length_append]
    rcases List.mem_append.1 mem with mem | mem
    · exact Nat.le_trans (h.inside jump mem) (Nat.le_add_right _ _)
    · cases action with
      | jump code name =>
        rw [Action.bytes_jump] at succeeds
        split at succeeds
        · cases succeeds
          cases List.mem_singleton.1 mem
          exact Nat.le_refl _
        · cases succeeds
      | _ => cases mem

/-- **Failing calls and builds leave no trace**: a history keeps track of the fresh builder that is
given the calls that succeed. -/
theorem after {uses : List Use} (h : Tracks b c)
    (accepted : ∀ action, .call action ∈ uses → ¬ action.RefusedJump) :
    Tracks (Builder.after b uses) (Builder.after c ((succeeded b uses).map .call)) := by
  induction uses generalizing b c with
  | nil => exact h
  | cons use uses ih =>
    have others : ∀ action, .call action ∈ uses → ¬ action.RefusedJump :=
      fun action mem => accepted action (List.mem_cons_of_mem _ mem)
    cases use with
    | build => exact ih h.build others
    | call action =>
      rw [succeeded]
      show Tracks (Builder.after (left (action.make b)) uses) _
      cases attempt : action.bytes with
      | ok bytes =>
        have made := h.result attempt
        have success : ∃ b', action.result b = .ok () b' := by
          rw [Action.result, attempt]
          exact ⟨_, rfl⟩
        obtain ⟨b', success⟩ := success
        rw [Action.make_eq, success]
        show Tracks _ (Builder.after (left (action.make c)) _)
        rw [Action.make_eq]
        rw [success] at made
        exact ih made others
      | error fault =>
        have quiet : action.result b = .error fault b := by
          rw [Action.result, attempt,
            Action.noted_of_error attempt (accepted action List.mem_cons_self), List.append_nil]
        rw [Action.make_eq, quiet]
        exact ih h others

end Tracks

/-! ## Jumps that were refused -/

/-- What has been noted stays noted. -/
theorem Use.jumps_apply (b : Builder) (use : Use) : b.jumps <+: (use.apply b).jumps := by
  cases use with
  | build =>
    have same : (left (Builder.build b)).jumps = b.jumps := (labels_left_resolveAll b.jumps b).2
    exact ⟨[], by rw [List.append_nil, Use.apply, same]⟩
  | call action =>
    rw [Use.apply, Action.make_eq, Action.result]
    split <;> exact List.prefix_append _ _

/-- Labels are placed by the calls that say so, and by no others. -/
theorem Use.labels_apply {use : Use} {entry : RawText × Nat}
    (mem : entry ∈ (use.apply b).labels) :
    entry ∈ b.labels ∨ use = .call (.label entry.1) := by
  cases use with
  | build =>
    have same : (left (Builder.build b)).labels = b.labels := (labels_left_resolveAll b.jumps b).1
    rw [Use.apply, same] at mem
    exact .inl mem
  | call action =>
    rw [Use.apply, Action.make_eq, Action.result] at mem
    split at mem
    · rcases List.mem_append.1 mem with mem | mem
      · cases action with
        | label name =>
          cases List.mem_singleton.1 mem
          exact .inr rfl
        | _ => cases mem
      · exact .inl mem
    · exact .inl mem

theorem jumps_after (b : Builder) (uses : List Use) : b.jumps <+: (after b uses).jumps := by
  induction uses generalizing b with
  | nil => exact List.prefix_refl _
  | cons use uses ih => exact (use.jumps_apply b).trans (ih (use.apply b))

theorem labels_after {uses : List Use} {entry : RawText × Nat}
    (mem : entry ∈ (after b uses).labels) :
    entry ∈ b.labels ∨ .call (.label entry.1) ∈ uses := by
  induction uses generalizing b with
  | nil => exact .inl mem
  | cons use uses ih =>
    rcases ih mem with mem | later
    · rcases Use.labels_apply mem with mem | rfl
      · exact .inl mem
      · exact .inr List.mem_cons_self
    · exact .inr (List.mem_cons_of_mem _ later)

/-- A jump is noted whether it is refused or not. -/
theorem noted_of_mem {uses : List Use} {code : Int} {name : RawText}
    (mem : .call (.jump code name) ∈ uses) :
    ∃ jump ∈ (after b uses).jumps, jump.label = name := by
  induction uses generalizing b with
  | nil => cases mem
  | cons use uses ih =>
    rcases List.mem_cons.1 mem with rfl | mem
    · refine ⟨⟨b.code.length, name⟩, (jumps_after _ uses).subset ?_, rfl⟩
      rw [Use.apply, Action.make_eq, Action.result]
      split <;> exact List.mem_append_right _ List.mem_cons_self
    · exact ih mem

end Builder

/-- What can be relied on when a builder is used again and again. -/
structure Builder.Repeatable (uses : List Use) : Prop where
  /-- A call that fails leaves the builder as it was, unless it is a jump whose code is not a byte.
  Such a jump is noted all the same. -/
  fails : ∀ (action : Action) (b : Builder) fault b', action.make b = .error fault b' →
    (¬ action.RefusedJump → b' = b) ∧
      ∀ code name, action = .jump code name →
        b' = { b with jumps := b.jumps ++ [⟨b.code.length, name⟩] }
  /-- If no jump was refused, the script that is built is the one that a fresh builder builds from
  the calls that have succeeded, whatever failed and whatever was built before.  If it cannot be
  built, that one cannot build it for the same cause. -/
  repeats : (∀ action, .call action ∈ uses → ¬ action.RefusedJump) →
    outcome (build (after .empty uses)) =
      outcome (build (after .empty ((succeeded .empty uses).map .call)))
  /-- A jump that was noted, refused or not, has to be resolved: nothing can be built until its
  label is placed. -/
  pending : ∀ code name, .call (.jump code name) ∈ uses → .call (.label name) ∉ uses →
    ∃ fault, outcome (build (after .empty uses)) = .error fault

/-- **A script can be built again and again**, and what fails on the way leaves no trace, with the
exception of jumps that are refused. -/
theorem builds_are_repeatable (uses : List Use) : Repeatable uses where
  fails action b fault b' failed := by
    rw [Action.make_eq, Action.result] at failed
    cases attempt : action.bytes with
    | ok bytes =>
      rw [attempt] at failed
      cases failed
    | error cause =>
      rw [attempt] at failed
      cases failed
      refine ⟨fun other => ?_, ?_⟩
      · rw [Action.noted_of_error attempt other, List.append_nil]
      · rintro code name rfl
        rfl
  repeats accepted := by
    have fresh : Tracks .empty .empty :=
      ⟨rfl, rfl, .refl _ _, fun jump mem => absurd mem List.not_mem_nil⟩
    exact (fresh.after accepted).outcome_build
  pending code name noted missing := by
    obtain ⟨jump, mem, rfl⟩ := noted_of_mem (b := .empty) noted
    refine outcome_resolveAll_of_not_placed mem fun entry placed same => ?_
    rcases labels_after placed with nothing | later
    · cases nothing
    · exact missing (same ▸ later)

/-- A jump is refused, its label is placed and a code is appended.  The distance of the jump is
written behind that code, although a builder that is given only the calls that have succeeded builds
the code alone. -/
example :
    let uses : List Use := [.call (.jump 256 [97]), .call (.label [97]), .call (.emit 0x61 [])]
    outcome (build (after .empty uses)) = .ok [0x61, 0, 0] ∧
      outcome (build (after .empty ((succeeded .empty uses).map .call))) = .ok [0x61] :=
  ⟨rfl, rfl⟩

end DryRun
