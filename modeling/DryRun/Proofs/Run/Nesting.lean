import DryRun.Proofs.Machine.Reach
import DryRun.Proofs.Syscall.Safe

/-!
# Structs in a run

A script can put an array into itself, and a map into itself, and a struct into an array that is an
element of the struct.  But a struct that is put into a collection is copied first, so no struct
gets into a struct that is nested in it.  Copying and comparing follow nested structs only and keep
no list of those that they have seen; `struct_nesting_ends` says that in every state of every run
they come to an end on all items that the script gets at.
-/

set_option autoImplicit false

namespace DryRun

variable {σ : Type}

/-- Structs are nested in a way that ends, and so copying and comparing end. -/
structure Machine.NestingEnds (m : Machine σ) : Prop where
  /-- No struct is nested in itself, at any depth. -/
  acyclic : ∀ a, ¬ Relation.TransGen m.heap.Nests a a
  /-- One does not get from a struct to a nested one, and on to one nested in that, forever. -/
  wellNested : m.heap.WellNested
  /-- The copying of an item is a recursion that ends, without any bound on the depth. -/
  copies : ∀ item, m.Reaches item →
    Heap.Copies m.heap [item] (m.heap.clone item).1 [(m.heap.clone item).2]
  /-- The comparing of two items is a recursion that ends, without any bound on the depth. -/
  compares : ∀ a b, m.Reaches a → m.Reaches b → Heap.Compares m.heap [(a, b)] (m.heap.equal a b)

/-- The script gets at the item, and from the item back to it by reading collections. -/
def Machine.Cycles (m : Machine σ) (item : Item) : Prop :=
  m.Reaches item ∧ Relation.TransGen m.heap.Holds item item

/-- An array and a struct that are in each other, and a map that is in itself. -/
theorem Machine.cycles_of_mutual {m : Machine σ} {array struct map : Nat}
    (stack : m.stack.items = [.map map, .seq ⟨.array, array⟩])
    (ofArray : m.heap.elements ⟨.array, array⟩ = [.seq ⟨.struct, struct⟩])
    (ofStruct : m.heap.elements ⟨.struct, struct⟩ = [.seq ⟨.array, array⟩])
    (ofMap : (m.heap.entries map).values = [.map map]) :
    m.Cycles (.seq ⟨.array, array⟩) ∧ m.Cycles (.seq ⟨.struct, struct⟩) ∧ m.Cycles (.map map) := by
  have down : m.heap.Holds (.seq ⟨.array, array⟩) (.seq ⟨.struct, struct⟩) :=
    .element (ofArray ▸ List.mem_cons_self)
  have up : m.heap.Holds (.seq ⟨.struct, struct⟩) (.seq ⟨.array, array⟩) :=
    .element (ofStruct ▸ List.mem_cons_self)
  have round : m.heap.Holds (.map map) (.map map) := .value (ofMap ▸ List.mem_cons_self)
  have reached : m.Reaches (.seq ⟨.array, array⟩) :=
    .stack (stack ▸ List.mem_cons_of_mem _ List.mem_cons_self)
  exact ⟨⟨reached, .tail (.single down) up⟩, ⟨reached.inside down, .tail (.single up) down⟩,
    .stack (stack ▸ List.mem_cons_self), .single round⟩

theorem Machine.Sound.nestingEnds {std : Machine.Standard σ} {m : Machine σ} (h : m.Sound std) :
    m.NestingEnds where
  acyclic := h.heap.nesting.not_transGen
  wellNested := h.heap.nesting
  copies _ way := Heap.copies_clone h.heap.nesting h.heap.names (h.admits way).has
  compares _ b way _ := Heap.compares_equal h.heap.nesting h.heap.names (h.admits way).has b

/-- If nothing is asked of plain values, every node keeps to it. -/
theorem Setting.supplies_any (setting : Setting) : setting.Supplies fun _ => True where
  height := trivial
  contract _ := .of_forall (fun _ _ _ => trivial) _
  storage _ _ := .of_forall (fun _ => trivial) _
  transactionHeight _ := .of_forall (fun _ _ _ => trivial) _

/-- An array is put into a struct and the struct into the array, and a map is put into itself. -/
def cyclicScript : Bytes :=
  [0x00, 0xc5,                          -- an array
   0x00, 0xc6, 0x76, 0x52, 0x79, 0xc8,  -- a struct with the array in it
   0x78, 0x7c, 0xc8,                    -- the struct goes into the array
   0xc7, 0x76, 0x51, 0x52, 0x79, 0xc4]  -- a map goes into itself, under the key 1

theorem cyclicScript_run :
    let setting : Setting := ⟨fun _ => .unavailable [], 0, .empty⟩
    let m := (Machine.load cyclicScript true (.fresh .fresh)).runFor (setting.host .unlimited) 17
    m.stack.items = [.map 0, .seq ⟨.array, 0⟩] ∧
      m.heap.elements ⟨.array, 0⟩ = [.seq ⟨.struct, 1⟩] ∧
      m.heap.elements ⟨.struct, 1⟩ = [.seq ⟨.array, 0⟩] ∧
      (m.heap.entries 0).values = [.map 0] := by
  decide +kernel

/-- **Structs in a run are nested in a way that ends**, while arrays, maps and even structs can be
inside of themselves. -/
theorem struct_nesting_ends :
    (∀ (setting : Setting) (limit : GasLimit) (script : Bytes) (dynamicInvoke : Bool) (link : Link)
      (n : Nat), ((Machine.load script dynamicInvoke (.fresh link)).runFor
        (setting.host limit) n).NestingEnds) ∧
    ∃ (setting : Setting) (limit : GasLimit) (script : Bytes) (dynamicInvoke : Bool) (link : Link)
      (n array struct map : Nat),
      let m := (Machine.load script dynamicInvoke (.fresh link)).runFor (setting.host limit) n
      m.Cycles (.seq ⟨.array, array⟩) ∧ m.Cycles (.seq ⟨.struct, struct⟩) ∧
        m.Cycles (.map map) := by
  refine ⟨fun setting limit script dynamicInvoke link n => ?_, ?_⟩
  · exact (Setting.sound_run setting.supplies_any limit script dynamicInvoke link n).nestingEnds
  · obtain ⟨stack, array, struct, map⟩ := cyclicScript_run
    exact ⟨_, _, _, _, _, _, _, _, _, Machine.cycles_of_mutual stack array struct map⟩

/-- The struct that is inside of itself through the array is copied into a third one. -/
theorem struct_nesting_ends_through_array :
    let setting : Setting := ⟨fun _ => .unavailable [], 0, .empty⟩
    let m := (Machine.load cyclicScript true (.fresh .fresh)).runFor (setting.host .unlimited) 17
    m.Reaches (.seq ⟨.struct, 1⟩) ∧ (m.heap.clone (.seq ⟨.struct, 1⟩)).2 = .seq ⟨.struct, 2⟩ ∧
      Heap.Copies m.heap [.seq ⟨.struct, 1⟩] (m.heap.clone (.seq ⟨.struct, 1⟩)).1
        [(m.heap.clone (.seq ⟨.struct, 1⟩)).2] := by
  obtain ⟨stack, array, struct, map⟩ := cyclicScript_run
  have reached := (Machine.cycles_of_mutual stack array struct map).2.1.1
  exact ⟨reached, by decide +kernel, (struct_nesting_ends.1 _ _ _ _ _ _).copies _ reached⟩

end DryRun
