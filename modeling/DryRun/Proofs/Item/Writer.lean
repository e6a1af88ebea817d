import DryRun.Item.Codec
import DryRun.Proofs.Item.Tree
import DryRun.Proofs.Machine.Reach
import DryRun.Proofs.Wire.Writer

/-!
# The numbers in a serialized item

The serialized form of an item has lengths in it, and a length that eight bytes cannot count has no
place there.  `Tree.writer` writes a tree with every number checked, so it can fail for two reasons:
the item has no serialized form, or a number is out of range.  A tree whose lengths can be counted
is written as `Tree.write` says, and fails for the first reason only (`Tree.Every.follows`).

The collections of a sound heap are small, so it is plain values alone that could be too long
(`Heap.Sound.follows`).
-/

set_option autoImplicit false

namespace DryRun

/-- Why an item cannot be written. -/
inductive WriteFault where
  /-- A number is out of range. -/
  | range (cause : Wire.OutOfRange)
  /-- The item has no serialized form. -/
  | item (cause : ItemFault)

/-- A computation that writes items. -/
abbrev ItemWriter := EStateM WriteFault Bytes Unit

/-- Write what may hold a number out of range. -/
def ItemWriter.checked (write : Writer Unit) : ItemWriter := fun buffer =>
  match write buffer with
  | .ok _ buffer => .ok () buffer
  | .error cause buffer => .error (.range cause) buffer

namespace Tree

open ItemWriter (checked)

/-- Write a plain value. -/
def primitiveWriter : Primitive → ItemWriter
  | .bytes b => do
    checked (Writer.fixed 1 false 0x00)
    checked (Writer.varBytes b)
  | .bool b => do
    checked (Writer.fixed 1 false 0x01)
    checked (Writer.fixed 1 false (if b then 1 else 0))
  | .int v => do
    checked (Writer.fixed 1 false 0x02)
    checked (Writer.varBytes (TwosComplement.encode v))

mutual

/-- Write a tree. -/
def writer : Tree → ItemWriter
  | .prim p => primitiveWriter p
  | .seq kind elements => do
    checked (Writer.fixed 1 false (sequenceByte kind).toNat)
    checked (Writer.varUint elements.length)
    elementsWriter elements
  | .map entries => do
    checked (Writer.fixed 1 false 0x82)
    checked (Writer.varUint entries.length)
    entriesWriter entries
  | .handle _ => throw (.item (.notSerializable .handle))
  | .cycle => throw (.item .recursiveSerialization)

/-- Write elements, one after the other. -/
def elementsWriter : List Tree → ItemWriter
  | [] => pure ()
  | tree :: rest => do
    writer tree
    elementsWriter rest

/-- Write entries, one after the other. -/
def entriesWriter : List (Primitive × Tree) → ItemWriter
  | [] => pure ()
  | (key, tree) :: rest => do
    primitiveWriter key
    writer tree
    entriesWriter rest

end

/-- A computation that writes items comes to a result: it appends the bytes, or fails for the cause
and for no other. -/
def Follows (c : ItemWriter) : Except ItemFault Bytes → Prop
  | .ok bytes => Writes c bytes
  | .error cause => ∀ buffer, ∃ rest, c buffer = .error (.item cause) rest

namespace Follows

variable {c d : ItemWriter} {bytes : Bytes} {first second : Except ItemFault Bytes}

/-- Bytes are written before. -/
theorem behind (hc : Writes c bytes) (hd : Follows d second) :
    Follows (c >>= fun _ => d) (do return bytes ++ (← second)) := by
  cases second with
  | ok more => exact hc.bind hd
  | error cause =>
    intro buffer
    obtain ⟨rest, failed⟩ := hd (buffer ++ bytes)
    refine ⟨rest, ?_⟩
    show EStateM.bind c _ buffer = _
    rw [EStateM.bind, hc]
    exact failed

/-- What fails first is the cause. -/
theorem bind (hc : Follows c first) (hd : Follows d second) :
    Follows (c >>= fun _ => d) (do return (← first) ++ (← second)) := by
  cases first with
  | ok bytes => exact behind hc hd
  | error cause =>
    intro buffer
    obtain ⟨rest, failed⟩ := hc buffer
    refine ⟨rest, ?_⟩
    show EStateM.bind c _ buffer = _
    rw [EStateM.bind, failed]

end Follows

/-! ## Lengths that can be counted -/

/-- The lengths that are written for a tree, as far as they can be seen without looking into its
parts, can be counted. -/
def Countable : Tree → Prop
  | .prim p => p.toBytes.length < Wire.lengthBound
  | .seq _ elements => elements.length < Wire.lengthBound
  | .map entries => entries.length < Wire.lengthBound ∧
      ∀ entry ∈ entries, entry.1.toBytes.length < Wire.lengthBound
  | .handle _ => True
  | .cycle => True

theorem writes_checked {write : Writer Unit} {bytes : Bytes} (h : Writes write bytes) :
    Writes (checked write) bytes := by
  intro buffer
  rw [checked, h]

theorem writes_primitive {p : Primitive} (h : p.toBytes.length < Wire.lengthBound) :
    Writes (primitiveWriter p) (writePrimitive p) := by
  have mark (b : UInt8) : Writes (checked (Writer.fixed 1 false b.toNat)) [b] :=
    writes_checked (Writer.writes_u8 b)
  cases p with
  | bytes b => exact (mark 0x00).bind (writes_checked (Writer.writes_varBytes h))
  | int v => exact (mark 0x02).bind (writes_checked (Writer.writes_varBytes h))
  | bool b =>
    cases b with
    | false => exact (mark 0x01).bind (mark 0x00)
    | true => exact (mark 0x01).bind (mark 0x01)

theorem follows_elements {elements : List Tree}
    (h : ∀ tree ∈ elements, Follows tree.writer tree.write) :
    Follows (elementsWriter elements) (writeElements elements) := by
  induction elements with
  | nil => exact fun buffer => by rw [List.append_nil]; rfl
  | cons tree rest ih =>
    rw [elementsWriter, writeElements]
    exact (h tree List.mem_cons_self).bind (ih fun t mem => h t (List.mem_cons_of_mem _ mem))

theorem follows_entries {entries : List (Primitive × Tree)}
    (keys : ∀ entry ∈ entries, entry.1.toBytes.length < Wire.lengthBound)
    (h : ∀ entry ∈ entries, Follows entry.2.writer entry.2.write) :
    Follows (entriesWriter entries) (writeEntries entries) := by
  induction entries with
  | nil => exact fun buffer => by rw [List.append_nil]; rfl
  | cons entry rest ih =>
    obtain ⟨key, tree⟩ := entry
    have more := ih (fun e mem => keys e (List.mem_cons_of_mem _ mem))
      fun e mem => h e (List.mem_cons_of_mem _ mem)
    have whole := Follows.behind (writes_primitive (keys (key, tree) List.mem_cons_self))
      ((h (key, tree) List.mem_cons_self).bind more)
    rw [writeEntries]
    cases value : tree.write with
    | error cause => rw [value] at whole; exact whole
    | ok bytes =>
      cases others : writeEntries rest with
      | error cause => rw [value, others] at whole; exact whole
      | ok more =>
        rw [value, others] at whole
        show Writes _ (writePrimitive key ++ bytes ++ more)
        rw [List.append_assoc]
        exact whole

/-- A collection is written as its mark, its size and what is in it. -/
theorem follows_collection (mark : UInt8) {size : Nat} (few : size < Wire.lengthBound)
    {c : ItemWriter} {body : Except ItemFault Bytes} (h : Follows c body) :
    Follows (do checked (Writer.fixed 1 false mark.toNat); checked (Writer.varUint size); c)
      (do return mark :: Wire.varUint size ++ (← body)) := by
  have front := Follows.behind (writes_checked (Writer.writes_u8 mark))
    (.behind (writes_checked (Writer.writes_varUint few)) h)
  cases body with
  | ok bytes => exact front
  | error cause => exact front

/-- **A tree whose lengths can be counted** is written as it should be. -/
theorem Every.follows {tree : Tree} (h : tree.Every Countable) :
    Follows tree.writer tree.write := by
  induction h with
  | prim here => exact writes_primitive here
  | handle => exact fun buffer => ⟨buffer, rfl⟩
  | cycle => exact fun buffer => ⟨buffer, rfl⟩
  | seq here _ ih =>
    rw [writer, write]
    exact follows_collection _ here (follows_elements ih)
  | map here _ ih =>
    rw [writer, write]
    exact follows_collection 0x82 here.1 (follows_entries here.2 ih)

end Tree

/-! ## Items of a sound heap -/

namespace Heap

open Relation (ReflTransGen)
open DryRun.Tree (Every Countable)

variable {heap : Heap} {value : Primitive → Prop}

/-- The plain values that one gets to from an item are byte strings whose length can be counted. -/
def Counted (heap : Heap) (item : Item) : Prop :=
  ∀ p, ReflTransGen heap.Holds item (.prim p) → p.toBytes.length < Wire.lengthBound

theorem Counted.of_holds {item inner : Item} (h : heap.Counted item)
    (holds : heap.Holds item inner) : heap.Counted inner := fun p way => h p (.head holds way)

theorem Sound.countable (sound : heap.Sound value) {item : Item} (h : heap.Counted item)
    (fuel : Nat) (above : List Item) : (heap.unfoldBelow fuel above item).Every Countable := by
  have few {n : Nat} (h : n ≤ maxCollectionSize) : n < Wire.lengthBound :=
    Nat.lt_of_le_of_lt h (by decide +kernel)
  induction fuel generalizing above item with
  | zero =>
    cases item with
    | prim p => exact .prim (h p .refl)
    | seq s => exact .cycle trivial
    | map id => exact .cycle trivial
    | handle r => exact .handle trivial
  | succ fuel ih =>
    cases item with
    | prim p => exact .prim (h p .refl)
    | handle r => exact .handle trivial
    | seq s =>
      rw [unfoldBelow]
      split
      · exact .cycle trivial
      · refine .seq (few ?_) fun tree mem => ?_
        · rw [List.length_map]
          exact (sound.elements s).1
        · obtain ⟨element, stored, rfl⟩ := List.mem_map.1 mem
          exact ih (h.of_holds (.element stored)) _
    | map id =>
      rw [unfoldBelow]
      split
      · exact .cycle trivial
      · refine .map ⟨few ?_, fun entry mem => ?_⟩ fun entry mem => ?_
        · rw [List.length_map]
          exact (sound.entries id).1
        · obtain ⟨row, stored, rfl⟩ := List.mem_map.1 mem
          exact (h.of_holds (.key (List.mem_map_of_mem stored))) row.1 .refl
        · obtain ⟨row, stored, rfl⟩ := List.mem_map.1 mem
          exact ih (h.of_holds (.value (List.mem_map_of_mem stored))) _

/-- **On a sound heap no length is out of range**, unless a plain value is too long to be. -/
theorem Sound.follows (sound : heap.Sound value) {item : Item} (h : heap.Counted item) :
    Tree.Follows (heap.unfold item).writer (heap.unfold item).write :=
  (sound.countable h _ _).follows

end Heap

end DryRun
