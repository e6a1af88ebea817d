import DryRun.Proofs.Machine.Copying
import DryRun.Proofs.Run.Nesting
import DryRun.Proofs.Syscall.Charge

/-!
# Structs as values in a run

A struct is handed on as a value: it equals another one if its elements do, and what is stored or
handed out is a copy.  Both are matters of the heap, and the heap of a run is shared by everything
that the script gets at.  This file says that they hold in every state of every run.

* `equality_laws_hold` — equality is an equivalence, which agrees with the keys of maps.
* `Machine.Separate` — two structs have no struct in common, and nothing that is written into the
  one or into what is nested in it reaches the other.  A run keeps them apart if they are apart at
  some point (`Machine.Separate.of_disjoint`), since a step puts nothing but copies into structs.
* `Machine.StandsAlone` — a struct was made anew.  No struct that was there before will ever be
  nested in it, and what is written into other structs does nothing to it.
* `struct_copies_stay_separate` — a copy that is stored or pushed stands alone, and is separate from
  the original.  The one exception is a copy that is stored in the original itself, or in a struct
  that is nested in it: such a copy is a part of the original from then on, as `copy_inside_changes`
  shows.
-/

set_option autoImplicit false

namespace DryRun

/-! ## Equality -/

/-- **Equality is an equivalence** that agrees with the keys of maps, in every state of every
run. -/
theorem equality_laws_hold (setting : Setting) (limit : GasLimit) (script : Bytes)
    (dynamicInvoke : Bool) (link : Link) (n : Nat) :
    ((Machine.load script dynamicInvoke (.fresh link)).runFor
      (setting.host limit) n).heap.EqualityLaws := by
  have sound := (Setting.sound_run setting.supplies_any limit script dynamicInvoke link n).heap
  exact Heap.equalityLaws sound.nesting sound.names

/-! ## What the host does to sequences -/

namespace Machine

instance (height : Nat) : QueryBlind height (SameSequences (σ := World)) where
  asked _ _ _ _ := Exec.keeps_asking _ fun m _ => .refl m.heap

instance : EventBlind (SameSequences (σ := World)) where
  announced _ := Exec.keeps_modify fun m => .refl m.heap
  evolved _ _ h same := .of_objects h.size same

instance : ContractBlind (SameSequences (σ := World)) where
  stored m _ := .refl m.heap
  deployed _ m _ _ := .refl m.heap
  destroyed m _ := .refl m.heap

instance : GrantBlind (SameSequences (σ := World)) where
  granted context m :=
    .of_objects (Heap.Retains.makeObject m.heap (.storageContext context)).size (.makeObject _ _)

end Machine

/-- The host of a run writes into no sequence. -/
theorem Setting.host_sparing (setting : Setting) (limit : GasLimit) :
    (setting.host limit).Sparing where
  contract := by
    rw [contract_host]
    exact fun name => Exec.keeps_findCallee name
  syscall id call found := by
    rw [host_eq_hostWith] at found
    obtain ⟨c, rfl⟩ := setting.exists_of_syscall_hostWith limit found
    exact Syscall.keeps_run_all setting c

/-! ## Separate structs -/

namespace Machine

variable {σ : Type}

/-- Of all structs, the steps from the state `k` to the state `l` write only into the struct `o` and
into those that are nested in it. -/
def WritesWithin (run : Nat → Machine σ) (o k l : Nat) : Prop :=
  ∀ t, k ≤ t → t < l → ∀ i, (run t).target? = some ⟨.struct, i⟩ → i ∈ (run t).heap.nest o

/-- In the steps from the state `k` to the state `l`, nothing is written into the struct `o` or into
one that is nested in it. -/
def WritesOutside (run : Nat → Machine σ) (o k l : Nat) : Prop :=
  ∀ t, k ≤ t → t < l → ∀ i ∈ (run t).heap.nest o, (run t).target? ≠ some ⟨.struct, i⟩

/-- A struct that was made in the step from the state `n` on stands alone. -/
structure StandsAlone (run : Nat → Machine σ) (n c : Nat) : Prop where
  /-- No struct that was there before is ever nested in it. -/
  new : ∀ k, n < k → ∀ i ∈ (run k).heap.nest c, ¬ (run n).heap.Has (.seq ⟨.struct, i⟩)
  /-- What is written into structs that are not nested in it does nothing to it. -/
  spared : ∀ k l, n < k → k ≤ l → WritesOutside run c k l → (run k).heap.Untouched (run l).heap c
  /-- What is written into it, at any depth, does nothing to a struct that is not nested in it. -/
  others : ∀ k l, n < k → k ≤ l → WritesWithin run c k l → ∀ i,
    (run k).heap.Has (.seq ⟨.struct, i⟩) → i ∉ (run k).heap.nest c →
    (run l).heap.elements ⟨.struct, i⟩ = (run k).heap.elements ⟨.struct, i⟩

/-- From the state `n` on, two structs are separate. -/
structure Separate (run : Nat → Machine σ) (n o c : Nat) : Prop where
  /-- There is no struct that is nested in both, and neither is nested in the other. -/
  apart : ∀ k, n ≤ k → Disjoint ((run k).heap.nest o) ((run k).heap.nest c)
  /-- What is written into the first one, at any depth, does nothing to the second one. -/
  second : ∀ k l, n ≤ k → k ≤ l → WritesWithin run o k l →
    (run k).heap.Untouched (run l).heap c
  /-- What is written into the second one, at any depth, does nothing to the first one. -/
  first : ∀ k l, n ≤ k → k ≤ l → WritesWithin run c k l →
    (run k).heap.Untouched (run l).heap o

section

variable {run : Nat → Machine σ}
  (changes : ∀ k, (run k).heap.Changes (run k).target? (run (k + 1)).heap)
  (names : ∀ k a, ∀ item ∈ (run k).heap.elements ⟨.struct, a⟩, (run k).heap.Has item) {n o c : Nat}
include changes

/-- What has been made stays there. -/
theorem has_of_le {item : Item} (made : (run n).heap.Has item) {k : Nat} (later : n ≤ k) :
    (run k).heap.Has item := by
  induction k, later using Nat.le_induction with
  | base => exact made
  | succ k _ ih => exact (changes k).le _ ih

include names

/-- Nothing becomes of a struct if nothing is written into it, at any depth. -/
theorem untouched_of_writesOutside {k l : Nat} (made : (run k).heap.Has (.seq ⟨.struct, c⟩))
    (later : k ≤ l) (writes : WritesOutside run c k l) : (run k).heap.Untouched (run l).heap c := by
  induction l, later using Nat.le_induction with
  | base => exact .refl _ c
  | succ l later ih =>
    have before := ih fun t low high => writes t low (Nat.lt_succ_of_lt high)
    have here := has_of_le changes made later
    exact before.trans
      ((changes l).untouched (names l) here (writes l later (Nat.lt_succ_self l)))

/-- As long as two structs have nothing in common, what is written into one spares the other. -/
theorem untouched_of_writesWithin (made : (run n).heap.Has (.seq ⟨.struct, c⟩))
    (apart : ∀ k, n ≤ k → Disjoint ((run k).heap.nest o) ((run k).heap.nest c)) {k l : Nat}
    (after : n ≤ k) (later : k ≤ l) (writes : WritesWithin run o k l) :
    (run k).heap.Untouched (run l).heap c := by
  refine untouched_of_writesOutside changes names (has_of_le changes made after) later ?_
  intro t low high i mem same
  exact Set.disjoint_left.1 (apart t (after.trans low)) (writes t low high i same) mem

/-- What is nested in a struct later was nested in it before, or is new. -/
theorem mem_nest_of_le {k l x : Nat} (made : (run k).heap.Has (.seq ⟨.struct, c⟩)) (later : k ≤ l)
    (mem : x ∈ (run l).heap.nest c) :
    x ∈ (run k).heap.nest c ∨ ¬ (run k).heap.Has (.seq ⟨.struct, x⟩) := by
  induction l, later using Nat.le_induction with
  | base => exact .inl mem
  | succ l later ih =>
    rcases (changes l).mem_nest (names l) (has_of_le changes made later) mem with old | ⟨new, -⟩
    · exact ih old
    · exact .inr fun there => new (has_of_le changes there later)

/-- **A struct that is new with all that is nested in it** stands alone. -/
theorem StandsAlone.of_new (made : (run (n + 1)).heap.Has (.seq ⟨.struct, c⟩))
    (new : ∀ i ∈ (run (n + 1)).heap.nest c, ¬ (run n).heap.Has (.seq ⟨.struct, i⟩)) :
    StandsAlone run n c where
  new k after i mem := by
    rcases mem_nest_of_le changes names made after mem with old | new'
    · exact new i old
    · exact fun there => new' ((changes n).le _ there)
  spared k l after later writes :=
    untouched_of_writesOutside changes names (has_of_le changes made after) later writes
  others k l after later writes i there outside := by
    have here := has_of_le changes made after
    induction l, later using Nat.le_induction with
    | base => rfl
    | succ l later ih =>
      rw [← ih fun t low high => writes t low (Nat.lt_succ_of_lt high)]
      refine (changes l).same _ (has_of_le changes there later) fun same => ?_
      have inside := writes l later (Nat.lt_succ_self l) i same
      -- only what is new has got into the struct since
      rcases mem_nest_of_le changes names here later inside with old | new
      · exact outside old
      · exact new there

/-- **Structs that have nothing in common are separate** from then on. -/
theorem Separate.of_disjoint (made : (run n).heap.Has (.seq ⟨.struct, o⟩))
    (made' : (run n).heap.Has (.seq ⟨.struct, c⟩))
    (disjoint : Disjoint ((run n).heap.nest o) ((run n).heap.nest c)) : Separate run n o c := by
  have apart (k : Nat) (later : n ≤ k) :
      Disjoint ((run k).heap.nest o) ((run k).heap.nest c) := by
    induction k, later using Nat.le_induction with
    | base => exact disjoint
    | succ k later ih =>
      exact (changes k).disjoint (names k) (has_of_le changes made later)
        (has_of_le changes made' later) ih
  exact ⟨apart, fun k l => untouched_of_writesWithin changes names made' apart,
    fun k l => untouched_of_writesWithin changes names made fun k later => (apart k later).symm⟩

end

/-! ## Copies -/

/-- In the state `n` of a run structs are copied as values. -/
structure CopiesStructs (host : Host σ) (run : Nat → Machine σ) (n : Nat) : Prop where
  /-- A copy of a struct is a new one that equals it. -/
  clones : ∀ o, (run n).heap.Has (.seq ⟨.struct, o⟩) →
    ∃ c, ((run n).heap.clone (.seq ⟨.struct, o⟩)).2 = .seq ⟨.struct, c⟩ ∧
      (run n).heap.Cloned ((run n).heap.clone (.seq ⟨.struct, o⟩)).1 o c
  /-- What an instruction stores or pushes in place of a struct is a copy of it, which stands alone.
  It is separate from the original, unless it is stored in the original or in a struct that is
  nested in it. -/
  copies : ∀ i op source dest o, i.opcode = .collection op → Does host (run n) i (run (n + 1)) →
    (run n).Copying op source dest → (run n).item? source = some (.seq ⟨.struct, o⟩) →
    ∃ c, (run (n + 1)).item? dest = some (.seq ⟨.struct, c⟩) ∧
      (run n).heap.Copied (run (n + 1)).heap o c ∧ StandsAlone run n c ∧
      ((∀ a k, dest = .element ⟨.struct, a⟩ k → a ∉ (run n).heap.nest o) →
        Separate run (n + 1) o c)

/-- **In every state of a run** structs are copied as values, if the machine stays sound and the
host writes into no sequence. -/
theorem copiesStructs_runFor {host : Host σ} {std : Standard σ} (sparing : host.Sparing)
    {m : Machine σ} (sound : ∀ k, (m.runFor host k).Sound std) (n : Nat) :
    CopiesStructs host (m.runFor host) n where
  clones o made := (sound n).heap.cloned made
  copies i op source dest o code does copying there := by
    have original := (sound n).has_of_item? there
    have changes (k : Nat) := (step_runFor host m k).heap_changes sparing (sound k)
    have names (k : Nat) := (sound k).heap.names
    obtain ⟨frame, next, due, pays, executed⟩ := does.exists_pays
    rw [Exec.execute, code] at executed
    obtain ⟨c, found, copied⟩ := (copying.ready next due).copied ((sound n).ready next due) executed
      ((item?_ready _ next due source).trans there)
    rw [heap_ready] at copied
    have made := (sound (n + 1)).has_of_item? found
    refine ⟨c, found, copied, .of_new changes names made copied.new, fun outside => ?_⟩
    -- nothing is written into the original, so all that is nested in it was there before the copy
    have same : (m.runFor host n).heap.Untouched (m.runFor host (n + 1)).heap o := by
      refine (changes n).untouched (names n) original fun a mem target => ?_
      rw [pays.toReads.target?_eq, Instruction.target?, code] at target
      obtain ⟨k, into⟩ := copying.eq_of_target? target
      exact outside a k into mem
    have disjoint : Disjoint ((m.runFor host (n + 1)).heap.nest o)
        ((m.runFor host (n + 1)).heap.nest c) := by
      rw [Set.disjoint_left, same.nest]
      exact fun x old new => copied.new x new (Heap.has_of_mem_nest (names n) original old)
    exact .of_disjoint changes names ((changes n).le _ original) made disjoint

/-- A step after which the machine is still running has done what was read. -/
theorem does_of_running {host : Host σ} {m : Machine σ} {n : Nat} {frame : Frame} {i : Instruction}
    {next : Nat} (running : (m.runFor host n).status.isRunning = true)
    (frames : (m.runFor host n).frames = [frame])
    (fetched : Instruction.fetch frame.script frame.position = .ok i next)
    (goesOn : (m.runFor host (n + 1)).status.isRunning = true) :
    Does host (m.runFor host n) i (m.runFor host (n + 1)) where
  reads := by
    refine ⟨frame, next, ?_, by rw [frames, List.tail_cons], fetched⟩
    cases status : (m.runFor host n).status with
    | running => rfl
    | halted | faulted =>
      rw [status] at running
      cases running
  step := (runFor_succ host m n).symm
  fine fault stopped := by
    rw [stopped] at goesOn
    cases goesOn

end Machine

/-! ## In every run -/

/-- **Copies of structs stay separate** from the originals, in every state of every run and from
then on, unless a copy is stored in the original or in a struct that is nested in it.  Even then it
stands alone: it changes only by what is written into itself, at some depth. -/
theorem struct_copies_stay_separate (setting : Setting) (limit : GasLimit) (script : Bytes)
    (dynamicInvoke : Bool) (link : Link) (n : Nat) :
    Machine.CopiesStructs (setting.host limit)
      ((Machine.load script dynamicInvoke (.fresh link)).runFor (setting.host limit)) n :=
  Machine.copiesStructs_runFor (setting.host_sparing limit)
    (Setting.sound_run setting.supplies_any limit script dynamicInvoke link) n

/-- A struct is appended to an array, and a number to the struct. -/
def appendingScript : Bytes :=
  [0x00, 0xc5,              -- an array
   0x00, 0xc6,              -- a struct
   0x78, 0x78, 0xc8,        -- the struct goes into the array
   0x57, 0xc8]              -- a number goes into the struct

/-- The number does not get into the copy that is in the array. -/
theorem struct_copies_stay_separate_in_array :
    let host := (⟨fun _ => .unavailable [], 0, .empty⟩ : Setting).host .unlimited
    let run := (Machine.load appendingScript true (.fresh .fresh)).runFor host
    (run 7).item? (.element ⟨.array, 0⟩ 0) = some (.seq ⟨.struct, 1⟩) ∧
      Machine.Separate run 7 0 1 ∧ (run 9).heap.elements ⟨.struct, 0⟩ = [.ofInt 7] ∧
      (run 9).heap.elements ⟨.struct, 1⟩ = (run 7).heap.elements ⟨.struct, 1⟩ := by
  intro host run
  have at6 : (run 6).status.isRunning = true ∧
      (run 6).frames = [⟨.ofBytes appendingScript, 6, true⟩] ∧
      (run 6).stack.items = [.seq ⟨.struct, 0⟩, .seq ⟨.array, 0⟩, .seq ⟨.struct, 0⟩,
        .seq ⟨.array, 0⟩] ∧ (run 6).heap.elements ⟨.array, 0⟩ = [] := by decide +kernel
  have at7 : (run 7).status.isRunning = true ∧ (run 7).target? = none ∧
      (run 7).item? (.element ⟨.array, 0⟩ 0) = some (.seq ⟨.struct, 1⟩) := by decide +kernel
  have at8 : (run 8).target? = some ⟨.struct, 0⟩ := by decide +kernel
  have at9 : (run 9).heap.elements ⟨.struct, 0⟩ = [.ofInt 7] := by decide +kernel
  have fetched : Instruction.fetch (.ofBytes appendingScript) 6 = .ok ⟨0xc8, []⟩ 7 := by rfl
  have does : Machine.Does host (run 6) ⟨0xc8, []⟩ (run 7) :=
    Machine.does_of_running at6.1 at6.2.1 fetched at7.1
  have values : Machine.CopiesStructs host run 6 := struct_copies_stay_separate _ _ _ _ _ 6
  clear_value run host
  obtain ⟨-, -, items, empty⟩ := at6
  have copying : (run 6).Copying .append .top (.element ⟨.array, 0⟩ 0) := by
    simpa [empty] using Machine.Copying.append items
  obtain ⟨c, found, copied, -, separate⟩ := values.copies _ .append .top _ 0 (by decide) does
    copying (by rw [Machine.item?, items]; rfl)
  cases at7.2.2.symm.trans found
  have apart := separate fun a k into => by cases into
  refine ⟨found, apart, at9, ?_⟩
  have writes : Machine.WritesWithin run 0 7 9 := by
    intro t low high i target
    obtain rfl | rfl : t = 7 ∨ t = 8 := by omega
    · rw [at7.2.1] at target
      cases target
    · rw [at8] at target
      cases target
      exact Heap.self_mem_nest _ 0
  exact (apart.second 7 9 (by decide) (by decide) writes).elements 1 (Heap.self_mem_nest _ 1)

/-- A struct is appended to itself.  The copy is taken out of the struct again, which does not copy
it, and a number is appended to it. -/
def selfAppendingScript : Bytes :=
  [0x00, 0xc6,              -- a struct
   0x76, 0x76, 0x76, 0xc8,  -- the struct goes into itself
   0xc2, 0x75,              -- the elements are pushed
   0x57, 0xc8]              -- a number goes into the copy

/-- **A copy inside of the original** is a part of it: all that is written is written into the
original or into a struct that is nested in it, and the copy changes. -/
theorem copy_inside_changes :
    let host := (⟨fun _ => .unavailable [], 0, .empty⟩ : Setting).host .unlimited
    let run := (Machine.load selfAppendingScript true (.fresh .fresh)).runFor host
    Machine.Does host (run 5) ⟨0xc8, []⟩ (run 6) ∧
      Instruction.opcode ⟨0xc8, []⟩ = .collection .append ∧
      (run 5).Copying .append .top (.element ⟨.struct, 0⟩ 0) ∧
      (run 5).item? .top = some (.seq ⟨.struct, 0⟩) ∧
      (run 6).item? (.element ⟨.struct, 0⟩ 0) = some (.seq ⟨.struct, 1⟩) ∧
      Machine.WritesWithin run 0 6 10 ∧
      (run 6).heap.elements ⟨.struct, 1⟩ = [] ∧
      (run 10).heap.elements ⟨.struct, 1⟩ = [.ofInt 7] := by
  intro host run
  have at5 : (run 5).status.isRunning = true ∧
      (run 5).frames = [⟨.ofBytes selfAppendingScript, 5, true⟩] ∧
      (run 5).stack.items = [.seq ⟨.struct, 0⟩, .seq ⟨.struct, 0⟩, .seq ⟨.struct, 0⟩,
        .seq ⟨.struct, 0⟩] ∧ (run 5).heap.elements ⟨.struct, 0⟩ = [] := by decide +kernel
  have at6 : (run 6).status.isRunning = true ∧
      (run 6).item? (.element ⟨.struct, 0⟩ 0) = some (.seq ⟨.struct, 1⟩) ∧
      (run 6).heap.elements ⟨.struct, 1⟩ = [] := by decide +kernel
  have until9 : (run 6).target? = none ∧ (run 7).target? = none ∧ (run 8).target? = none := by
    decide +kernel
  have at9 : (run 9).target? = some ⟨.struct, 1⟩ ∧
      .seq ⟨.struct, 1⟩ ∈ (run 9).heap.elements ⟨.struct, 0⟩ := by decide +kernel
  have at10 : (run 10).heap.elements ⟨.struct, 1⟩ = [.ofInt 7] := by decide +kernel
  have fetched : Instruction.fetch (.ofBytes selfAppendingScript) 5 = .ok ⟨0xc8, []⟩ 6 := by rfl
  have does : Machine.Does host (run 5) ⟨0xc8, []⟩ (run 6) :=
    Machine.does_of_running at5.1 at5.2.1 fetched at6.1
  clear_value run host
  obtain ⟨-, -, items, empty⟩ := at5
  refine ⟨does, by decide, ?_, by rw [Machine.item?, items]; rfl, at6.2.1, ?_, at6.2.2, at10⟩
  · simpa [empty] using Machine.Copying.append items
  · intro t low high i target
    obtain rfl | rfl | rfl | rfl : t = 6 ∨ t = 7 ∨ t = 8 ∨ t = 9 := by omega
    · rw [until9.1] at target
      cases target
    · rw [until9.2.1] at target
      cases target
    · rw [until9.2.2] at target
      cases target
    · rw [at9.1] at target
      cases target
      exact .single at9.2

end DryRun
