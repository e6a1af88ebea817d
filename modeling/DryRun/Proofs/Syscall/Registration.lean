import DryRun.Proofs.Table
import DryRun.Syscall.Registry
import Mathlib.Data.List.Sublists

/-!
# Registering methods

A method is registered under one of the two name spaces or under both, one name after the other.
Whether there is an entry of the same number is looked up for each name when its turn has come, so a
registration under both may stop between the two: the first name is registered then and the second
one is not.  `Registry.Call.Ends` lists the ways in which a registration can end, and this is the
only one that does things by halves.

* `Registry.registerIn_eq` — one name is registered at the end, or nothing is done.
* `Registry.Call.ends` — so this is how a registration ends.
* `Registry.registrations_keep_entries` — what it comes to in every registry that was made by
  registrations, of which any may have failed.
-/

set_option autoImplicit false

namespace DryRun

namespace Registry

variable {η : Type}

/-- A call that registers a method. -/
structure Call (η : Type) where
  /-- The method. -/
  method : String
  /-- What is to be done. -/
  handler : η
  /-- The price; none if it depends on the operands. -/
  price : Option Int
  /-- The name spaces: one of them, both or none. -/
  spaces : List NameSpace
  /-- The current names come first. -/
  ordered : spaces.Sublist [.system, .neo]

namespace Call

/-- Make the call. -/
def run (call : Call η) : EStateM RegistryFault (Registry η) Unit :=
  register call.method call.handler call.price call.spaces

/-- The registry that the call leaves, whether it succeeds or not. -/
def left (call : Call η) (registry : Registry η) : Registry η :=
  match call.run registry with
  | .ok _ registry' => registry'
  | .error _ registry' => registry'

/-- An entry that a call makes for the name in one of the name spaces. -/
structure Makes (call : Call η) (space : NameSpace) (entry : SyscallEntry η) : Prop where
  /-- The name is in the name space. -/
  space : entry.space = space
  /-- It is that of the method. -/
  method : entry.method = call.method
  /-- The handler is that of the call. -/
  handler : entry.handler = call.handler
  /-- The price is that of the call. -/
  price : entry.price = call.price
  /-- The number is that of the name. -/
  id : idOf entry.name = .ok entry.id

/-- The ways in which a call can end that finds a registry. -/
inductive Ends (call : Call η) (registry : Registry η) :
    EStateM.Result RegistryFault (Registry η) Unit → Prop where
  /-- There are entries for all names, and they are found. -/
  | registered (registry' : Registry η) (entries : List (SyscallEntry η))
    (rows : registry'.rows = registry.rows ++ entries)
    (makes : List.Forall₂ call.Makes call.spaces entries)
    (found : ∀ entry ∈ entries, registry'.get entry.name = .ok (some entry)) :
    Ends call registry (.ok () registry')
  /-- The name is refused for its characters. -/
  | notAscii (odd : SyscallId.ascii? call.method = none) (some : call.spaces ≠ []) :
    Ends call registry (.error .nameNotAscii registry)
  /-- The number of the first name is taken, and nothing is done. -/
  | taken (space : NameSpace) (id : Nat) (first : call.spaces.head? = some space)
    (number : idOf (space.name call.method) = .ok id) (there : registry.contains id) :
    Ends call registry (.error (.duplicate (space.name call.method)) registry)
  /-- The current name is registered, and then the number of the older one is taken. -/
  | halved (registry' : Registry η) (entry : SyscallEntry η) (id : Nat)
    (both : call.spaces = [.system, .neo]) (free : ¬registry.contains entry.id)
    (rows : registry'.rows = registry.rows ++ [entry]) (makes : call.Makes .system entry)
    (number : idOf (NameSpace.neo.name call.method) = .ok id) (there : registry'.contains id) :
    Ends call registry (.error (.duplicate (NameSpace.neo.name call.method)) registry')

end Call

/-- The registry after some calls, of which any may have failed. -/
def after (calls : List (Call η)) : Registry η :=
  calls.foldl (fun registry call => call.left registry) .empty

variable {registry registry' : Registry η} {call : Call η}

/-! ## Numbers of names -/

theorem ascii?_eq_none_iff {text : String} :
    SyscallId.ascii? text = none ↔ ∃ c ∈ text.toList, ¬c.toNat < 128 := by
  rw [SyscallId.ascii?]
  induction text.toList with
  | nil => simp
  | cons c rest ih =>
    rw [List.mapM_cons, List.exists_mem_cons_iff, ← ih]
    by_cases plain : c.toNat < 128
    · rw [if_pos plain]
      cases rest.mapM fun c : Char => if c.toNat < 128 then some (UInt8.ofNat c.toNat) else none
      · simp
      · simp [plain]
    · rw [if_neg plain]
      simp [plain]

/-- A name has other characters than ASCII just if the method has. -/
theorem ascii?_name_eq_none_iff (space : NameSpace) (method : String) :
    SyscallId.ascii? (space.name method) = none ↔ SyscallId.ascii? method = none := by
  have plain : (space.text ++ ".").toList.all (·.toNat < 128) = true := by cases space <;> rfl
  rw [ascii?_eq_none_iff, ascii?_eq_none_iff, NameSpace.name, String.toList_append]
  constructor
  · rintro ⟨c, mem, odd⟩
    rcases List.mem_append.1 mem with mem | mem
    · exact absurd (of_decide_eq_true (List.all_eq_true.1 plain c mem)) odd
    · exact ⟨c, mem, odd⟩
  · rintro ⟨c, mem, odd⟩
    exact ⟨c, List.mem_append_right _ mem, odd⟩

theorem idOf_eq_error {name : String} {fault : RegistryFault} :
    idOf name = .error fault ↔ SyscallId.ascii? name = none ∧ fault = .nameNotAscii := by
  rw [idOf]
  cases SyscallId.ascii? name with
  | none => simp [eq_comm]
  | some raw => simp

/-- All names of a method with ASCII characters have numbers. -/
theorem exists_idOf_name {method : String} (plain : SyscallId.ascii? method ≠ none)
    (space : NameSpace) : ∃ id, idOf (space.name method) = .ok id := by
  cases number : idOf (space.name method) with
  | ok id => exact ⟨id, rfl⟩
  | error fault =>
    exact absurd ((ascii?_name_eq_none_iff space method).1 (idOf_eq_error.1 number).1) plain

/-! ## One name -/

theorem rows_insert_of_not_contains (entry : SyscallEntry η)
    (free : ¬registry.contains entry.id) :
    (registry.insert entry).rows = registry.rows ++ [entry] :=
  Table.place_of_not_mem fun mem => free ((registry.contains_iff _).2 mem)

/-- **One name** is registered at the end, or nothing is done. -/
theorem registerIn_eq (method : String) (handler : η) (price : Option Int) (space : NameSpace)
    (registry : Registry η) : registerIn method handler price space registry =
      match idOf (space.name method) with
      | .error fault => .error fault registry
      | .ok id =>
        if registry.contains id then .error (.duplicate (space.name method)) registry
        else .ok () (registry.insert ⟨space, method, id, price, handler⟩) := by
  rw [registerIn]
  dsimp only
  cases idOf (space.name method) with
  | error fault => rfl
  | ok id =>
    show (if registry.contains id then _ else _ : EStateM _ _ _) registry = _
    dsimp only
    split <;> rfl

/-- An entry is found by its own name if it has the number of that name. -/
theorem get_of_mem {entry : SyscallEntry η} (mem : entry ∈ registry.rows)
    (own : idOf entry.name = .ok entry.id) : registry.get entry.name = .ok (some entry) := by
  have found : registry.find? entry.id = some entry :=
    (Table.find?_eq_some_iff registry).2 ⟨mem, rfl⟩
  rw [get, own, ← found]
  rfl

/-! ## One call -/

namespace Call

/-- The entry that a call makes for the name of a number. -/
def entry (call : Call η) (space : NameSpace) (id : Nat) : SyscallEntry η :=
  ⟨space, call.method, id, call.price, call.handler⟩

theorem makes_entry {space : NameSpace} {id : Nat}
    (number : idOf (space.name call.method) = .ok id) :
    call.Makes space (call.entry space id) :=
  ⟨rfl, rfl, rfl, rfl, number⟩

/-- The names are registered one after the other. -/
theorem register_cons (call : Call η) (space : NameSpace) (rest : List NameSpace)
    (registry : Registry η) :
    register call.method call.handler call.price (space :: rest) registry =
      match idOf (space.name call.method) with
      | .error fault => .error fault registry
      | .ok id =>
        if registry.contains id then .error (.duplicate (space.name call.method)) registry
        else register call.method call.handler call.price rest
          (registry.insert (call.entry space id)) := by
  show EStateM.bind _ _ registry = _
  rw [EStateM.bind, registerIn_eq]
  cases idOf (space.name call.method) with
  | error fault => rfl
  | ok id =>
    by_cases there : registry.contains id
    · simp only [if_pos there]
    · simp only [if_neg there]
      rfl

theorem spaces_cases (call : Call η) :
    call.spaces = [] ∨ (∃ space, call.spaces = [space]) ∨ call.spaces = [.system, .neo] := by
  have all : ∀ spaces ∈ List.sublists' [NameSpace.system, .neo],
      spaces = [] ∨ (∃ space, spaces = [space]) ∨ spaces = [.system, .neo] := by
    simp
  exact all _ (List.mem_sublists'.2 call.ordered)

/-- Nothing is registered for a name with odd characters. -/
theorem ends_of_odd (odd : SyscallId.ascii? call.method = none) :
    call.Ends registry (call.run registry) := by
  rw [run]
  cases spaces : call.spaces with
  | nil =>
    refine .registered registry [] (List.append_nil _).symm ?_ (List.forall_mem_nil _)
    rw [spaces]
    exact .nil
  | cons space rest =>
    have refused := idOf_eq_error.2 ⟨(ascii?_name_eq_none_iff space call.method).2 odd, rfl⟩
    rw [register_cons, refused]
    exact .notAscii odd (by rw [spaces]; exact List.cons_ne_nil _ _)

/-- **How a call ends.** -/
theorem ends (call : Call η) (registry : Registry η) : call.Ends registry (call.run registry) := by
  by_cases odd : SyscallId.ascii? call.method = none
  · exact ends_of_odd odd
  rcases call.spaces_cases with spaces | ⟨space, spaces⟩ | spaces
  · rw [run, spaces]
    refine .registered registry [] (List.append_nil _).symm ?_ (List.forall_mem_nil _)
    rw [spaces]
    exact .nil
  · obtain ⟨id, number⟩ := exists_idOf_name odd space
    rw [run, spaces, register_cons, number]
    dsimp only
    split
    · next there => exact .taken space id (by rw [spaces]; rfl) number there
    · next free =>
      have makes := makes_entry number
      have rows := rows_insert_of_not_contains (call.entry space id) free
      refine .registered _ [call.entry space id] rows ?_ ?_
      · rw [spaces]
        exact .cons makes .nil
      · rw [List.forall_mem_singleton]
        refine get_of_mem ?_ makes.id
        rw [rows]
        exact List.mem_append_right _ List.mem_cons_self
  · obtain ⟨id, number⟩ := exists_idOf_name odd .system
    obtain ⟨id', number'⟩ := exists_idOf_name odd .neo
    rw [run, spaces, register_cons, number]
    dsimp only
    split
    · next there => exact .taken .system id (by rw [spaces]; rfl) number there
    · next free =>
      have makes := makes_entry number
      have makes' := makes_entry number'
      have rows := rows_insert_of_not_contains (call.entry .system id) free
      rw [register_cons, number']
      dsimp only
      split
      · next there =>
        exact .halved _ (call.entry .system id) id' spaces free rows makes number' there
      · next free' =>
        have rows' := rows_insert_of_not_contains (call.entry .neo id') free'
        rw [rows, List.append_assoc] at rows'
        refine .registered _ [call.entry .system id, call.entry .neo id'] rows' ?_ ?_
        · rw [spaces]
          exact .cons makes (.cons makes' .nil)
        · have mem {e : SyscallEntry η} (h : e ∈ [call.entry .system id, call.entry .neo id']) :=
            rows' ▸ List.mem_append_right registry.rows h
          rw [List.forall_mem_cons, List.forall_mem_singleton]
          exact ⟨get_of_mem (mem List.mem_cons_self) makes.id,
            get_of_mem (mem (List.mem_cons_of_mem _ List.mem_cons_self)) makes'.id⟩

theorem exists_makes_of_mem {spaces : List NameSpace} {entries : List (SyscallEntry η)}
    (makes : List.Forall₂ call.Makes spaces entries) :
    ∀ entry ∈ entries, ∃ space, call.Makes space entry := by
  induction makes with
  | nil => exact List.forall_mem_nil _
  | cons first _ ih => exact List.forall_mem_cons.2 ⟨⟨_, first⟩, ih⟩

/-- Whatever a call comes to, the entries that were there stay, and new ones are put behind them. -/
theorem rows_left (call : Call η) (registry : Registry η) : ∃ entries,
    (call.left registry).rows = registry.rows ++ entries ∧
      ∀ entry ∈ entries, ∃ space, call.Makes space entry := by
  have ends := call.ends registry
  rw [left]
  cases result : call.run registry with
  | ok _ registry' =>
    rw [result] at ends
    cases ends with
    | registered _ entries rows makes _ => exact ⟨entries, rows, exists_makes_of_mem makes⟩
  | error fault registry' =>
    rw [result] at ends
    cases ends with
    | notAscii | taken => exact ⟨[], (List.append_nil _).symm, List.forall_mem_nil _⟩
    | halved _ entry _ _ _ rows makes =>
      exact ⟨[entry], rows, List.forall_mem_singleton.2 ⟨_, makes⟩⟩

end Call

/-! ## All calls -/

/-- In a registry that was made by calls every entry has the number of its own name. -/
theorem idOf_name_of_mem_after (calls : List (Call η)) :
    ∀ entry ∈ (after calls).rows, idOf entry.name = .ok entry.id := by
  induction calls using List.reverseRecOn with
  | nil => exact List.forall_mem_nil _
  | append_singleton calls call ih =>
    obtain ⟨entries, rows, made⟩ := call.rows_left (after calls)
    rw [after, List.foldl_append]
    show ∀ entry ∈ (call.left (after calls)).rows, _
    rw [rows, List.forall_mem_append]
    exact ⟨ih, fun entry mem => (made entry mem).elim fun _ makes => makes.id⟩

/-- **Entries are kept**, and each is found by its own name.  A call adds the entries of all its
names, or it adds nothing, with the one exception that `Call.Ends` names. -/
theorem registrations_keep_entries (calls : List (Call η)) (call : Call η) :
    (∀ entry ∈ (after calls).rows, (after calls).get entry.name = .ok (some entry)) ∧
      (after calls).rows <+: (call.left (after calls)).rows ∧
      call.Ends (after calls) (call.run (after calls)) := by
  obtain ⟨entries, rows, -⟩ := call.rows_left (after calls)
  exact ⟨fun entry mem => get_of_mem mem (idOf_name_of_mem_after calls entry mem),
    ⟨entries, rows.symm⟩, call.ends _⟩

/-- Where the older name is taken, the current one is registered all the same, and then the two
names of the method do different things. -/
example :
    let first : Call Nat := ⟨"Op", 1, some 1, [.neo], by decide⟩
    let second : Call Nat := ⟨"Op", 2, some 1, [.system, .neo], by decide⟩
    (after [first, second]).rows.map (fun entry => (entry.name, entry.handler)) =
      [("Neo.Op", 1), ("System.Op", 2)] := by decide +kernel

end Registry

end DryRun
