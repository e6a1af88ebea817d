import DryRun.Item.Codec
import DryRun.Proofs.Item.Limits
import DryRun.Proofs.Item.Tree
import DryRun.Proofs.Wire.Reader

/-!
# Serialized items are read back

What `Tree.write` writes is read back by `Tree.read` as it was (`parses_read`).  The reader accepts
far more than that, but whatever it gives is written in no more bytes than it was read from
(`takes_read`).  From these two follow the theorems on whole byte strings.

* `Tree.deserialize_serialize` — an item that has a serialized form has it alone, and the item made
  from it unfolds to the same tree;
* `Tree.serialize_deserialize` — an item that was read from bytes has a serialized form, which is no
  longer than those bytes and stands for the same tree.
-/

set_option autoImplicit false

namespace DryRun

namespace Tree

/-! ## Reading what was written -/

section Parsing

variable {α : Type}

theorem parses_within {read : Reader α} {bytes : Bytes} {a : α} (h : Parses read bytes a) :
    Parses (within read) bytes a := by
  intro offset rest
  rw [within, h]

theorem takes_within {read : Reader α} {P : α → Nat → Prop} (h : Takes P read) :
    Takes P (within read) := by
  intro start a stop he
  rw [within] at he
  split at he
  · next taken =>
    cases he
    exact h _ _ _ taken
  · cases he

end Parsing

theorem parses_read_prim {p : Primitive} (h : p.InRange)
    (size : (writePrimitive p).length ≤ maxItemSize) (fuel : Nat) :
    Parses (read (fuel + 1)) (writePrimitive p) (.prim p) := by
  have most : maxItemSize ≤ Reader.maxU64 := by decide
  cases p with
  | bytes b =>
    have short : b.length ≤ maxItemSize := by
      rw [writePrimitive, Wire.varBytes, List.length_cons, List.length_append] at size
      omega
    exact (parses_within (Reader.parses_u8 0x00)).bind <|
      (parses_within (Reader.parses_varBytes (Int.ofNat_le.2 short) (by omega))).bind_nil (.pure _)
  | bool b =>
    exact (parses_within (Reader.parses_u8 0x01)).bind <|
      (parses_within (Reader.parses_bool b)).bind_nil (.pure _)
  | int v =>
    have short := (inIntegerRange_iff v).1 h
    have few : maxIntegerSize ≤ Reader.maxU64 := by decide
    refine (parses_within (Reader.parses_u8 0x02)).bind <|
      (parses_within (Reader.parses_varBytes (Int.ofNat_le.2 short) (by omega))).bind_nil ?_
    rw [TwosComplement.decode_encode]
    exact .pure _

theorem parses_count {n : Nat} (h : n ≤ maxCollectionSize) :
    Parses (within (Reader.varUint maxCollectionSize)) (Wire.varUint n) n := by
  have most : maxCollectionSize ≤ Reader.maxU64 := by decide
  exact parses_within (Reader.parses_varUint (Int.ofNat_le.2 h) (by omega))

theorem parses_read_seq {kind : SequenceKind} {elements : List Tree} {body : Bytes} {fuel : Nat}
    (h : elements.length ≤ maxCollectionSize)
    (parsed : Parses (Reader.times (read fuel) elements.length) body elements) :
    Parses (read (fuel + 1)) (sequenceByte kind :: Wire.varUint elements.length ++ body)
      (.seq kind elements) := by
  cases kind with
  | array =>
    exact (parses_within (Reader.parses_u8 0x80)).bind <|
      (parses_count h).bind (parsed.bind_nil (.pure _))
  | struct =>
    exact (parses_within (Reader.parses_u8 0x81)).bind <|
      (parses_count h).bind (parsed.bind_nil (.pure _))

theorem parses_read_map {entries : List (Primitive × Tree)} {body : Bytes} {fuel : Nat}
    (h : entries.length ≤ maxCollectionSize)
    (parsed : Parses (Reader.times (readEntry (read fuel)) entries.length) body entries) :
    Parses (read (fuel + 1)) (0x82 :: Wire.varUint entries.length ++ body)
      (.map (settle entries)) :=
  (parses_within (Reader.parses_u8 0x82)).bind <|
    (parses_count h).bind (parsed.bind_nil (.pure _))

/-- What `read fuel` reads back: a tree whose bytes are no more than the fuel, and no more than an
item may have. -/
def ReadsBack (fuel : Nat) (tree : Tree) : Prop :=
  ∀ bytes, tree.write = .ok bytes → bytes.length ≤ fuel → bytes.length ≤ maxItemSize →
    Parses (read fuel) bytes tree

theorem writeElements_cons_eq_ok {tree : Tree} {rest : List Tree} {bytes : Bytes}
    (h : writeElements (tree :: rest) = .ok bytes) :
    ∃ first more, tree.write = .ok first ∧ writeElements rest = .ok more ∧
      bytes = first ++ more := by
  rw [writeElements] at h
  cases hfirst : tree.write with
  | error cause => rw [hfirst] at h; cases h
  | ok first =>
    cases hmore : writeElements rest with
    | error cause => rw [hfirst, hmore] at h; cases h
    | ok more =>
      rw [hfirst, hmore] at h
      cases h
      exact ⟨first, more, rfl, rfl, rfl⟩

theorem writeEntries_cons_eq_ok {key : Primitive} {tree : Tree} {rest : List (Primitive × Tree)}
    {bytes : Bytes} (h : writeEntries ((key, tree) :: rest) = .ok bytes) :
    ∃ value more, tree.write = .ok value ∧ writeEntries rest = .ok more ∧
      bytes = writePrimitive key ++ value ++ more := by
  rw [writeEntries] at h
  cases hvalue : tree.write with
  | error cause => rw [hvalue] at h; cases h
  | ok value =>
    cases hmore : writeEntries rest with
    | error cause => rw [hvalue, hmore] at h; cases h
    | ok more =>
      rw [hvalue, hmore] at h
      cases h
      exact ⟨value, more, rfl, rfl, rfl⟩

theorem parses_elements {fuel : Nat} {elements : List Tree} {bytes : Bytes}
    (h : ∀ tree ∈ elements, ReadsBack fuel tree) (written : writeElements elements = .ok bytes)
    (hfuel : bytes.length ≤ fuel) (hsize : bytes.length ≤ maxItemSize) :
    Parses (Reader.times (read fuel) elements.length) bytes elements := by
  induction elements generalizing bytes with
  | nil =>
    cases written
    exact .pure []
  | cons tree rest ih =>
    obtain ⟨first, more, hfirst, hmore, rfl⟩ := writeElements_cons_eq_ok written
    rw [List.forall_mem_cons] at h
    rw [List.length_append] at hfuel hsize
    exact Reader.parses_times_cons (h.1 first hfirst (by omega) (by omega))
      (ih h.2 hmore (by omega) (by omega))

theorem writePrimitive_length_pos (p : Primitive) : 0 < (writePrimitive p).length := by
  cases p <;> exact Nat.succ_pos _

theorem parses_entries {fuel : Nat} {entries : List (Primitive × Tree)} {bytes : Bytes}
    (keys : ∀ entry ∈ entries, entry.1.InRange) (h : ∀ entry ∈ entries, ReadsBack fuel entry.2)
    (written : writeEntries entries = .ok bytes)
    (hfuel : bytes.length ≤ fuel) (hsize : bytes.length ≤ maxItemSize) :
    Parses (Reader.times (readEntry (read fuel)) entries.length) bytes entries := by
  induction entries generalizing bytes with
  | nil =>
    cases written
    exact .pure []
  | cons entry rest ih =>
    obtain ⟨key, tree⟩ := entry
    obtain ⟨value, more, hvalue, hmore, rfl⟩ := writeEntries_cons_eq_ok written
    rw [List.forall_mem_cons] at h keys
    rw [List.length_append, List.length_append] at hfuel hsize
    -- a key is written in at least one byte, which is fuel enough to read it
    have positive := writePrimitive_length_pos key
    obtain ⟨below, rfl⟩ : ∃ below, fuel = below + 1 := ⟨fuel - 1, by omega⟩
    have first := parses_read_prim (p := key) keys.1 (by omega) below
    have second := h.1 value hvalue (by omega) (by omega)
    exact Reader.parses_times_cons (first.bind (second.bind_nil (.pure _)))
      (ih keys.2 h.2 hmore (by omega) (by omega))

/-- **What was written is read back.**  Every collection takes bytes of its own, so the bytes of
its parts are enough fuel for them. -/
theorem parses_read {tree : Tree}
    (h : tree.Every fun t => t.Plain Primitive.InRange ∧ t.DistinctKeys) (fuel : Nat) :
    ReadsBack fuel tree := by
  induction h generalizing fuel with
  | @prim p here =>
    intro bytes written hfuel hsize
    rw [write] at written
    cases written
    have positive := writePrimitive_length_pos p
    obtain ⟨below, rfl⟩ : ∃ below, fuel = below + 1 := ⟨fuel - 1, by omega⟩
    exact parses_read_prim here.1 hsize below
  | @seq kind elements here _ ih =>
    intro bytes written hfuel hsize
    rw [write] at written
    cases hbody : writeElements elements with
    | error cause => rw [hbody] at written; cases written
    | ok body =>
      rw [hbody] at written
      cases written
      rw [List.length_append, List.length_cons] at hfuel hsize
      obtain ⟨below, rfl⟩ : ∃ below, fuel = below + 1 := ⟨fuel - 1, by omega⟩
      exact parses_read_seq here.1
        (parses_elements (fun t mem => ih t mem below) hbody (by omega) (by omega))
  | @map entries here _ ih =>
    intro bytes written hfuel hsize
    rw [write] at written
    cases hbody : writeEntries entries with
    | error cause => rw [hbody] at written; cases written
    | ok body =>
      rw [hbody] at written
      cases written
      rw [List.length_append, List.length_cons] at hfuel hsize
      obtain ⟨below, rfl⟩ : ∃ below, fuel = below + 1 := ⟨fuel - 1, by omega⟩
      have parsed := parses_entries here.1.2 (fun e mem => ih e mem below) hbody
        (by omega) (by omega)
      have read := parses_read_map here.1.1 parsed
      rwa [settle_of_nodup here.2] at read
  | handle here => exact here.1.elim
  | cycle here => exact here.1.elim

/-! ## Writing what was read -/

/-- How many bytes a tree is written in, if it can be written. -/
def size (tree : Tree) : Nat :=
  match tree.write with
  | .ok bytes => bytes.length
  | .error _ => 0

/-- How many bytes an entry is written in. -/
def entrySize (entry : Primitive × Tree) : Nat :=
  (writePrimitive entry.1).length + entry.2.size

theorem size_eq {tree : Tree} {bytes : Bytes} (h : tree.write = .ok bytes) :
    tree.size = bytes.length := by
  rw [size, h]

theorem length_writeElements {elements : List Tree} {bytes : Bytes}
    (h : writeElements elements = .ok bytes) : bytes.length = (elements.map size).sum := by
  induction elements generalizing bytes with
  | nil => cases h; rfl
  | cons tree rest ih =>
    obtain ⟨first, more, hfirst, hmore, rfl⟩ := writeElements_cons_eq_ok h
    rw [List.length_append, List.map_cons, List.sum_cons, size_eq hfirst, ih hmore]

theorem length_writeEntries {entries : List (Primitive × Tree)} {bytes : Bytes}
    (h : writeEntries entries = .ok bytes) : bytes.length = (entries.map entrySize).sum := by
  induction entries generalizing bytes with
  | nil => cases h; rfl
  | cons entry rest ih =>
    obtain ⟨key, tree⟩ := entry
    obtain ⟨value, more, hvalue, hmore, rfl⟩ := writeEntries_cons_eq_ok h
    rw [List.length_append, List.length_append, List.map_cons, List.sum_cons, entrySize,
      size_eq hvalue, ih hmore]

theorem size_seq_le (kind : SequenceKind) (elements : List Tree) :
    size (.seq kind elements) ≤
      1 + (Wire.varUint elements.length).length + (elements.map size).sum := by
  rw [size, write]
  cases hbody : writeElements elements with
  | error cause => exact Nat.zero_le _
  | ok body =>
    show (sequenceByte kind :: Wire.varUint elements.length ++ body).length ≤ _
    rw [List.length_append, List.length_cons, length_writeElements hbody]
    omega

theorem size_map_le (entries : List (Primitive × Tree)) :
    size (.map entries) ≤
      1 + (Wire.varUint entries.length).length + (entries.map entrySize).sum := by
  rw [size, write]
  cases hbody : writeEntries entries with
  | error cause => exact Nat.zero_le _
  | ok body =>
    show (0x82 :: Wire.varUint entries.length ++ body).length ≤ _
    rw [List.length_append, List.length_cons, length_writeEntries hbody]
    omega

theorem exists_writeElements {elements : List Tree}
    (h : ∀ tree ∈ elements, ∃ bytes, tree.write = .ok bytes) :
    ∃ bytes, writeElements elements = .ok bytes := by
  induction elements with
  | nil => exact ⟨[], rfl⟩
  | cons tree rest ih =>
    rw [List.forall_mem_cons] at h
    obtain ⟨first, hfirst⟩ := h.1
    obtain ⟨more, hmore⟩ := ih h.2
    exact ⟨first ++ more, by rw [writeElements, hfirst, hmore]; rfl⟩

theorem exists_writeEntries {entries : List (Primitive × Tree)}
    (h : ∀ entry ∈ entries, ∃ bytes, entry.2.write = .ok bytes) :
    ∃ bytes, writeEntries entries = .ok bytes := by
  induction entries with
  | nil => exact ⟨[], rfl⟩
  | cons entry rest ih =>
    obtain ⟨key, tree⟩ := entry
    rw [List.forall_mem_cons] at h
    obtain ⟨value, hvalue⟩ := h.1
    obtain ⟨more, hmore⟩ := ih h.2
    exact ⟨writePrimitive key ++ value ++ more, by rw [writeEntries, hvalue, hmore]; rfl⟩

/-- Plain values and collections can be written. -/
theorem exists_write {P : Primitive → Prop} {tree : Tree} (h : tree.Every (Plain P)) :
    ∃ bytes, tree.write = .ok bytes := by
  induction h with
  | @prim p here => exact ⟨writePrimitive p, write.eq_1 p⟩
  | @seq kind elements here _ ih =>
    obtain ⟨body, hbody⟩ := exists_writeElements ih
    exact ⟨sequenceByte kind :: Wire.varUint elements.length ++ body, by rw [write, hbody]; rfl⟩
  | @map entries here _ ih =>
    obtain ⟨body, hbody⟩ := exists_writeEntries ih
    exact ⟨0x82 :: Wire.varUint entries.length ++ body, by rw [write, hbody]; rfl⟩
  | handle here => exact here.elim
  | cycle here => exact here.elim

/-- The tree is within all limits, and if it is a map, its entries are settled. -/
def Settled (tree : Tree) : Prop := tree.Plain Primitive.Limited ∧ tree.DistinctKeys

theorem Settled.inRange {tree : Tree} (h : tree.Settled) :
    tree.Plain Primitive.InRange ∧ tree.DistinctKeys :=
  ⟨h.1.mono fun _ limited => limited.inRange, h.2⟩

/-- What the reader gives: trees within all limits, which are written in no more bytes than were
taken. -/
def Given (tree : Tree) (n : Nat) : Prop := tree.Every Settled ∧ tree.size ≤ n

theorem given_prim {p : Primitive} {n : Nat} (h : p.Limited) (hn : (writePrimitive p).length ≤ n) :
    Given (.prim p) n :=
  ⟨.prim ⟨h, trivial⟩, by rwa [size_eq (write.eq_1 p)]⟩

/-- An integer is written in no more bytes than it was read from. -/
theorem given_decode {bytes : Bytes} {n : Nat} (h : bytes.length ≤ maxIntegerSize)
    (hn : (Wire.varBytes bytes).length ≤ n) :
    Given (.prim (.int (TwosComplement.decode bytes))) (1 + n) := by
  have shorter := TwosComplement.length_encode_decode_le bytes
  refine given_prim ((inIntegerRange_iff _).2 (Nat.le_trans shorter h)) ?_
  have count := Reader.length_varUint_le shorter
  rw [Wire.varBytes, List.length_append] at hn
  rw [writePrimitive, List.length_cons, Wire.varBytes, List.length_append]
  omega

theorem given_seq {kind : SequenceKind} {elements : List Tree} {k n : Nat}
    (h : elements.length ≤ maxCollectionSize)
    (below : ∀ tree ∈ elements, tree.Every Settled)
    (hk : (Wire.varUint elements.length).length ≤ k) (hn : (elements.map size).sum ≤ n) :
    Given (.seq kind elements) (1 + (k + n)) := by
  have size := size_seq_le kind elements
  exact ⟨.seq ⟨h, trivial⟩ below, by omega⟩

/-- The entries that a map keeps are written in no more bytes than all that were read. -/
theorem given_settle {entries : List (Primitive × Tree)} {k n : Nat}
    (h : entries.length ≤ maxCollectionSize)
    (below : ∀ entry ∈ entries,
      entry.1.Limited ∧ entry.2.Every Settled)
    (hk : (Wire.varUint entries.length).length ≤ k) (hn : (entries.map entrySize).sum ≤ n) :
    Given (.map (settle entries)) (1 + (k + n)) := by
  have kept := forall_mem_settle below
  have fewer := length_settle_le entries
  have lighter := sum_map_settle_le entrySize entries
  have count := Reader.length_varUint_le fewer
  have size := size_map_le (settle entries)
  refine ⟨.map ⟨⟨by omega, fun entry mem => (kept entry mem).1⟩, nodup_settle entries⟩
    fun entry mem => (kept entry mem).2, by omega⟩

theorem takes_readEntry {read : ItemReader Tree} (h : Takes Given read) :
    Takes (fun entry n => (entry.1.Limited ∧ entry.2.Every Settled) ∧
      entrySize entry ≤ n) (readEntry read) := by
  refine h.bind fun key n hkey => h.bind fun value k hvalue => ?_
  split
  · next p =>
    refine .pure ⟨⟨hkey.1.here.1, hvalue.1⟩, ?_⟩
    have first : size (.prim p) ≤ n := hkey.2
    have second := hvalue.2
    rw [size_eq (write.eq_1 p)] at first
    show (writePrimitive p).length + value.size ≤ n + (k + 0)
    omega
  · exact .throw _

theorem takes_count {n : Int} :
    Takes (fun (v : Nat) k => (v : Int) ≤ n ∧ (Wire.varUint v).length ≤ k)
      (within (Reader.varUint n)) :=
  takes_within (Reader.takes_varUint n)

/-- **What is read is written in no more bytes.** -/
theorem takes_read (fuel : Nat) : Takes Given (read fuel) := by
  induction fuel with
  | zero => exact takes_within (Reader.takes_u8.bind fun _ _ _ => .throw _)
  | succ fuel ih =>
    refine (takes_within Reader.takes_u8).bind fun mark n hn => ?_
    subst hn
    -- the kinds in the order of their marks: bytes, truth values, integers, arrays, structs, maps
    split
    · refine (takes_within (Reader.takes_varBytes _)).bind fun b k hb => .pure ?_
      refine given_prim (Int.ofNat_le.1 hb.1) ?_
      rw [writePrimitive, List.length_cons]
      omega
    · refine (takes_within Reader.takes_bool).bind fun b k hb => .pure ?_
      refine given_prim trivial ?_
      rw [writePrimitive, List.length_cons, Wire.bool, List.length_singleton]
      omega
    · refine (takes_within (Reader.takes_varBytes _)).bind fun b k hb => .pure ?_
      exact given_decode (Int.ofNat_le.1 hb.1) hb.2
    · refine takes_count.bind fun count k hk => (Reader.takes_times ih count).bind ?_
      rintro elements n ⟨rfl, below, hn⟩
      exact .pure (given_seq (Int.ofNat_le.1 hk.1) below hk.2 hn)
    · refine takes_count.bind fun count k hk => (Reader.takes_times ih count).bind ?_
      rintro elements n ⟨rfl, below, hn⟩
      exact .pure (given_seq (Int.ofNat_le.1 hk.1) below hk.2 hn)
    · refine takes_count.bind fun count k hk =>
        (Reader.takes_times (takes_readEntry ih) count).bind ?_
      rintro entries n ⟨rfl, below, hn⟩
      exact .pure (given_settle (Int.ofNat_le.1 hk.1) below hk.2 hn)
    · exact takes_within (.throw _)

/-! ## Whole byte strings -/

theorem serialize_eq_ok {tree : Tree} {bytes : Bytes} :
    tree.serialize = .ok bytes ↔ tree.write = .ok bytes ∧ bytes.length ≤ maxItemSize := by
  rw [serialize]
  cases hwrite : tree.write with
  | error cause =>
    constructor
    · intro h; cases h
    · intro h; cases h.1
  | ok written =>
    show (if written.length > maxItemSize then _ else _) = _ ↔ _
    split
    · next long =>
      constructor
      · intro h; cases h
      · rintro ⟨same, short⟩
        cases same
        omega
    · next short =>
      constructor
      · intro h
        cases h
        exact ⟨rfl, Nat.le_of_not_lt short⟩
      · rintro ⟨same, -⟩
        cases same
        rfl

/-- Bytes that are read to their end as a tree stand for it. -/
theorem deserialize_of_parses {tree : Tree} {bytes : Bytes}
    (h : Parses (read (bytes.length + 1)) bytes tree) : deserialize bytes = .ok tree := by
  have all := h 0 []
  rw [List.append_nil] at all
  simp only [deserialize, EStateM.run, Bind.bind, EStateM.bind, all]
  rfl

theorem given_of_deserialize {tree : Tree} {bytes : Bytes} (h : deserialize bytes = .ok tree) :
    Given tree bytes.length := by
  have reading : Takes Given (do
      let tree ← read (bytes.length + 1)
      within Reader.expectEnd
      return tree) :=
    (takes_read _).bind fun tree n given =>
      (takes_within Reader.takes_expectEnd).bind fun _ k hk => .pure (by rw [hk]; exact given)
  rw [deserialize] at h
  split at h
  · next taken =>
    cases h
    obtain ⟨n, hn, every, hsize⟩ := reading _ _ _ taken
    have all : bytes.length = n + _ := hn
    exact ⟨every, by omega⟩
  · cases h

/-- What was read is the tree of every item that is built from it. -/
theorem Given.unfold_build {tree : Tree} {n : Nat} (h : Given tree n) (heap : Heap) :
    (heap.build tree).1.unfold (heap.build tree).2 = tree :=
  heap.unfold_build (h.1.mono fun _ settled => Plain.regular settled.1 settled.2)

/-- Bytes that were written stand for the tree they were written for. -/
theorem deserialize_of_serialize {tree : Tree} {bytes : Bytes}
    (h : tree.Every fun t => t.Plain Primitive.InRange ∧ t.DistinctKeys)
    (written : tree.serialize = .ok bytes) :
    deserialize bytes = .ok tree := by
  obtain ⟨hwrite, hsize⟩ := serialize_eq_ok.1 written
  exact deserialize_of_parses (parses_read h _ bytes hwrite (Nat.le_succ _) hsize)

/-- **Serializing loses nothing.**  If an item of plain values and collections within the limits
has a serialized form, then this form stands for the tree of the item: the item that is made from
it, in whatever heap, unfolds to the same tree, and no other tree has the same form. -/
theorem deserialize_serialize (heap : Heap) (item : Item)
    (plain : (heap.unfold item).Every (Plain Primitive.InRange)) {bytes : Bytes}
    (written : (heap.unfold item).serialize = .ok bytes) :
    ∃ tree, deserialize bytes = .ok tree ∧ tree = heap.unfold item ∧
      (∀ heap' : Heap, (heap'.build tree).1.unfold (heap'.build tree).2 = heap.unfold item) ∧
      ∀ (heap' : Heap) (item' : Item), (heap'.unfold item').Every (Plain Primitive.InRange) →
        (heap'.unfold item').serialize = .ok bytes → heap'.unfold item' = heap.unfold item := by
  have distinct := heap.unfold_distinct item
  have read := deserialize_of_serialize (plain.and distinct) written
  have regular := (plain.and distinct).mono fun _ both => Plain.regular both.1 both.2
  refine ⟨_, read, rfl, fun heap' => heap'.unfold_build regular, ?_⟩
  intro heap' item' plain' written'
  have read' := deserialize_of_serialize (plain'.and (heap'.unfold_distinct item')) written'
  exact Except.ok.inj (read'.symm.trans read)

/-- A struct with a map in it, whose value is an array that the struct has as well. -/
theorem deserialize_serialize_shared :
    let heap : Heap := ⟨#[[.ofInt 0]], #[[.seq ⟨.array, 0⟩, .map 0]],
      #[.ofList [(.bytes [7], .seq ⟨.array, 0⟩), (.bool true, .ofBytes [])]], #[]⟩
    let shared : Tree := .seq .array [.prim (.int 0)]
    let tree : Tree := .seq .struct
      [shared, .map [(.bytes [7], shared), (.bool true, .prim (.bytes []))]]
    ∃ bytes read, tree.serialize = .ok bytes ∧ deserialize bytes = .ok read ∧
      read = heap.unfold (.seq ⟨.struct, 0⟩) ∧ read = tree := by
  intro heap shared tree
  have unfolded : heap.unfold (.seq ⟨.struct, 0⟩) = tree := rfl
  have zero : (Tree.prim (.int 0)).Every (Plain Primitive.InRange) := .prim (by decide)
  have empty : (Tree.prim (.bytes [])).Every (Plain Primitive.InRange) := .prim trivial
  have inner : shared.Every (Plain Primitive.InRange) :=
    .seq (by decide) (List.forall_mem_singleton.2 zero)
  have entries : (Tree.map [(.bytes [7], shared), (.bool true, .prim (.bytes []))]).Every
      (Plain Primitive.InRange) :=
    .map (by decide) (List.forall_mem_cons.2 ⟨inner, List.forall_mem_singleton.2 empty⟩)
  have plain : tree.Every (Plain Primitive.InRange) :=
    .seq (by decide) (List.forall_mem_cons.2 ⟨inner, List.forall_mem_singleton.2 entries⟩)
  obtain ⟨bytes, written⟩ : ∃ bytes, tree.serialize = .ok bytes := ⟨_, rfl⟩
  rw [← unfolded] at plain written
  obtain ⟨read, hread, same, -⟩ := deserialize_serialize heap _ plain written
  exact ⟨bytes, read, by rwa [← unfolded], hread, same, same.trans unfolded⟩

/-- **Reading puts bytes into a form of their own.**  Whatever is read from bytes, in whatever way
they spell it, has a serialized form.  It is no longer than the bytes, and stands for the same
tree, so that reading and serializing it again changes nothing. -/
theorem serialize_deserialize {data : Bytes} {tree : Tree} (short : data.length ≤ maxItemSize)
    (given : deserialize data = .ok tree) (heap : Heap) :
    ∃ bytes, ((heap.build tree).1.unfold (heap.build tree).2).serialize = .ok bytes ∧
      bytes.length ≤ data.length ∧ deserialize bytes = .ok tree ∧
      ∀ heap' : Heap, (heap'.build tree).1.unfold (heap'.build tree).2 =
        (heap.build tree).1.unfold (heap.build tree).2 := by
  have h := given_of_deserialize given
  obtain ⟨bytes, hwrite⟩ := exists_write (h.1.mono fun _ both => both.1)
  have hsize := h.2
  rw [size_eq hwrite] at hsize
  have written := serialize_eq_ok.2 ⟨hwrite, Nat.le_trans hsize short⟩
  have same := deserialize_of_serialize (h.1.mono fun _ settled => settled.inRange) written
  refine ⟨bytes, ?_, hsize, same, fun heap' => ?_⟩
  · rwa [h.unfold_build heap]
  · rw [h.unfold_build heap, h.unfold_build heap']

/-- A map with two entries, their number spelled in three bytes, the keys an empty byte string and a
zero of two bytes, and the values a truth value that is neither zero nor one and a five of two
bytes. -/
theorem serialize_deserialize_repeated_key :
    let data : Bytes := [0x82, 0xFD, 2, 0, 0x00, 0, 0x01, 9, 0x02, 2, 0, 0, 0x02, 2, 5, 0]
    let tree : Tree := .map [(.int 0, .prim (.int 5))]
    deserialize data = .ok tree ∧
      ∃ bytes, bytes.length ≤ data.length ∧ deserialize bytes = .ok tree := by
  intro data tree
  have given : deserialize data = .ok tree := rfl
  obtain ⟨bytes, -, shorter, same, -⟩ :=
    serialize_deserialize (by decide : data.length ≤ maxItemSize) given .empty
  exact ⟨given, bytes, shorter, same⟩

end Tree

end DryRun
