import DryRun.Proofs.Heap.Equality
import DryRun.Proofs.Table.History

/-!
# Maps as dictionaries

A map is used by four calls, whose keys can be any items.  A call fails if its key is not primitive,
if it looks for a key that is not there, or if it puts a new key into a map that is full; what fails
changes nothing.  The changes that were made make up the history of the map (`Entries.Course`), and
the history says all there is to say about the map: `Entries.Dictionary` reads answers, keys, values
and their order off it.

* `Entries.Course.entries_eq` — a map is what its history makes of an empty one.
* `Entries.dictionary_course` — after any calls a map is the dictionary of its history.
-/

set_option autoImplicit false

namespace DryRun.Entries

/-! ## Calls -/

/-- A call on a map. -/
inductive Call where
  /-- Put a value under a key. -/
  | set (key value : Item)
  /-- Drop a key. -/
  | remove (key : Item)
  /-- Ask for the value under a key. -/
  | get (key : Item)
  /-- Ask for a key. -/
  | has (key : Item)

/-- What a call answers. -/
inductive Answer where
  /-- Nothing. -/
  | done
  /-- A value. -/
  | value (item : Item)
  /-- A truth value. -/
  | truth (b : Bool)

/-- The item that is given as a key. -/
def Call.key : Call → Item
  | .set key _ | .remove key | .get key | .has key => key

/-- The answer to a call, and the map after it. -/
def perform (entries : Entries) : Call → Except ItemFault (Answer × Entries)
  | .set key value => do return (.done, ← entries.set key value)
  | .remove key => do return (.done, ← entries.remove key)
  | .get key => do return (.value (← entries.get key), entries)
  | .has key => do return (.truth (← entries.has key), entries)

/-- A change of a map. -/
abbrev Change := Table.Change Entry Bytes

/-- What a call changes where it goes well. -/
def Call.changes : Call → List Change
  | .set (.prim p) value => [.put (p, value)]
  | .remove (.prim p) => [.drop p.toBytes]
  | _ => []

/-- How a map has come about. -/
structure Course where
  /-- The changes that were made, the oldest one first. -/
  history : List Change
  /-- The map that has come of them. -/
  entries : Entries

namespace Course

/-- An empty map. -/
def new : Course := ⟨[], .empty⟩

/-- One more call.  What fails changes nothing. -/
def next (course : Course) (call : Call) : Course :=
  match course.entries.perform call with
  | .ok (_, entries) => ⟨course.history ++ call.changes, entries⟩
  | .error _ => course

/-- Calls on a map that was empty. -/
def of (calls : List Call) : Course := calls.foldl next new

theorem of_concat (calls : List Call) (call : Call) :
    of (calls ++ [call]) = (of calls).next call := by
  rw [of, List.foldl_append]
  rfl

end Course

/-! ## What a call does -/

variable {entries after : Entries} {call : Call} {answer : Answer}

/-- **Only primitive items are keys.** -/
theorem perform_of_not_prim (h : ∀ p, call.key ≠ .prim p) (entries : Entries) :
    entries.perform call = .error (.notKey call.key.kind) := by
  cases call with
  | set key | remove key | get key | has key =>
    cases key with
    | prim p => exact absurd rfl (h p)
    | _ => rfl

theorem perform_set (p : Primitive) (value : Item) (entries : Entries) :
    entries.perform (.set (.prim p) value) =
      if entries.contains p.toBytes ∨ entries.size < maxCollectionSize then
        .ok (.done, Table.insert entries (p, value))
      else .error .mapFull := by
  rw [perform, set_prim]
  split <;> rfl

theorem perform_remove (p : Primitive) (entries : Entries) :
    entries.perform (.remove (.prim p)) = .ok (.done, Table.erase entries p.toBytes) := rfl

theorem perform_get (p : Primitive) (entries : Entries) : entries.perform (.get (.prim p)) =
    match entries.find? p.toBytes with
    | some (_, value) => .ok (.value value, entries)
    | none => .error .keyNotFound := by
  rw [perform, get_prim]
  cases entries.find? p.toBytes <;> rfl

theorem perform_has (p : Primitive) (entries : Entries) : entries.perform (.has (.prim p)) =
    .ok (.truth (entries.contains p.toBytes), entries) := rfl

/-- What becomes of a map in a call that goes well: only a key that is there already, or for which
there is room, is put. -/
inductive Made (entries : Entries) : List Change → Entries → Prop where
  /-- A row is put. -/
  | put {row : Entry}
    (room : entries.contains (Entry.key row) ∨ entries.size < maxCollectionSize) :
    Made entries [.put row] (entries.insert row)
  /-- A key is dropped. -/
  | drop {k : Bytes} : Made entries [.drop k] (entries.erase k)
  /-- Nothing is changed. -/
  | nothing : Made entries [] entries

theorem made_of_perform (h : entries.perform call = .ok (answer, after)) :
    Made entries call.changes after := by
  by_cases plain : ∃ p, call.key = .prim p
  · obtain ⟨p, key⟩ := plain
    cases call with
    | set _ value =>
      cases key
      rw [perform_set] at h
      split at h
      · next room =>
        cases h
        exact .put room
      · cases h
    | remove =>
      cases key
      rw [perform_remove] at h
      cases h
      exact .drop
    | get =>
      cases key
      rw [perform_get] at h
      split at h
      · cases h
        exact .nothing
      · cases h
    | has =>
      cases key
      rw [perform_has] at h
      cases h
      exact .nothing
  · rw [perform_of_not_prim fun p key => plain ⟨p, key⟩] at h
    cases h

namespace Made

variable {changes : List Change} (h : Made entries changes after)
include h

theorem eq_foldl : after = changes.foldl (Table.apply Entry.key) entries := by
  cases h <;> rfl

theorem size_le (small : entries.size ≤ maxCollectionSize) : after.size ≤ maxCollectionSize := by
  cases h with
  | @put row room =>
    by_cases there : entries.contains (Entry.key row)
    · rwa [Table.size_insert_of_contains entries there]
    · exact (Table.size_insert_le entries row).trans (room.resolve_left there)
  | @drop k => exact (Table.size_erase_le entries k).trans small
  | nothing => exact small

end Made

/-! ## Histories -/

namespace Course

/-- What holds of an empty map, and is kept by calls that go well, holds after all calls. -/
theorem of_induction {P : Course → Prop} (start : P new)
    (step : ∀ course changes after, P course → course.entries.Made changes after →
      P ⟨course.history ++ changes, after⟩) (calls : List Call) : P (of calls) := by
  induction calls using List.reverseRecOn with
  | nil => exact start
  | append_singleton calls call ih =>
    rw [of_concat, next]
    cases result : (of calls).entries.perform call with
    | ok pair => exact step _ _ _ ih (made_of_perform result)
    | error cause => exact ih

/-- **A map is what its history makes of an empty one.** -/
theorem entries_eq (calls : List Call) :
    (of calls).entries = Table.replay Entry.key (of calls).history := by
  refine of_induction (P := fun course => course.entries = Table.replay Entry.key course.history)
    rfl (fun course changes after same made => ?_) calls
  rw [made.eq_foldl, same, Table.replay, Table.replay, List.foldl_append]

/-- A map never has too many entries. -/
theorem size_le (calls : List Call) : (of calls).entries.size ≤ maxCollectionSize :=
  of_induction (P := fun course => course.entries.size ≤ maxCollectionSize) (Nat.zero_le _)
    (fun _ _ _ small made => made.size_le small) calls

end Course

/-! ## Dictionaries -/

/-- A row was put under the key, and the key was not dropped since. -/
def Live (history : List Change) (k : Bytes) : Prop :=
  ∃ row, Table.last? Entry.key history k = some (.put row)

/-- The map holds what its history says. -/
structure Dictionary (history : List Change) (entries : Entries) : Prop where
  /-- A value is the one that was put last under a key with the same byte form. -/
  get : ∀ p, entries.get (.prim p) =
    match Table.last? Entry.key history p.toBytes with
    | some (.put (_, value)) => .ok value
    | _ => .error .keyNotFound
  /-- A key is there if it was put, under an item with the same byte form, and not dropped since. -/
  has : ∀ p, ∃ b, entries.has (.prim p) = .ok b ∧ (b = true ↔ Live history p.toBytes)
  /-- The rows have the items that were given last as keys, with their values. -/
  rows : ∀ p value, (p, value) ∈ entries.rows ↔
    Table.last? Entry.key history p.toBytes = some (.put (p, value))
  /-- No two keys have the same byte form. -/
  once : (entries.rows.map Entry.key).Nodup
  /-- A key stands where it was put first since it was last dropped. -/
  order : (entries.rows.map Entry.key).Pairwise fun k k' =>
    ∃ i j, Table.Born Entry.key history k i ∧ Table.Born Entry.key history k' j ∧ i < j
  /-- Keys and values stand in parallel. -/
  parallel : entries.keys.length = entries.size ∧ entries.values.length = entries.size ∧
    entries.keys.zip entries.values = entries.rows.map fun (p, value) => (.prim p, value)
  /-- There are never too many. -/
  small : entries.size ≤ maxCollectionSize
  /-- A key that is there is overwritten, even in a full map. -/
  overwrite : ∀ p value, Live history p.toBytes →
    ∃ after, entries.set (.prim p) value = .ok after ∧ after.size = entries.size
  /-- A new key is taken where there is room. -/
  extend : ∀ p value, ¬Live history p.toBytes → entries.size < maxCollectionSize →
    ∃ after, entries.set (.prim p) value = .ok after ∧ after.size = entries.size + 1
  /-- A new key is not taken by a full map. -/
  full : ∀ p value, ¬Live history p.toBytes → entries.size = maxCollectionSize →
    entries.set (.prim p) value = .error .mapFull

theorem contains_replay_iff (history : List Change) (k : Bytes) :
    (Table.replay Entry.key history).contains k ↔ Live history k := by
  rw [Table.contains, Table.find?_replay, Option.isSome_iff_exists, Live]
  cases Table.last? Entry.key history k with
  | none => simp
  | some change => cases change <;> simp

/-- **After any calls a map is the dictionary of its history.** -/
theorem dictionary_course (calls : List Call) :
    Dictionary (Course.of calls).history (Course.of calls).entries := by
  have made := Course.entries_eq calls
  have contains_iff (p : Primitive) :
      (Course.of calls).entries.contains p.toBytes ↔ Live (Course.of calls).history p.toBytes := by
    rw [made]
    exact contains_replay_iff _ _
  constructor
  case get =>
    intro p
    rw [get_prim, made, Table.find?_replay]
    cases Table.last? Entry.key (Course.of calls).history p.toBytes with
    | none => rfl
    | some change => cases change <;> rfl
  case has => exact fun p => ⟨_, has_prim _ p, contains_iff p⟩
  case rows =>
    intro p value
    rw [made]
    exact Table.mem_replay_iff
  case once => exact (Course.of calls).entries.nodup
  case order =>
    rw [made]
    exact Table.pairwise_born _
  case parallel =>
    refine ⟨List.length_map _, List.length_map _, ?_⟩
    rw [keys, values, List.zip_map']
  case small => exact Course.size_le calls
  case overwrite =>
    intro p value live
    have there := (contains_iff p).2 live
    have same : (Table.insert (Course.of calls).entries (p, value)).size =
        (Course.of calls).entries.size := Table.size_insert_of_contains _ there
    exact ⟨_, by rw [set_prim, if_pos (.inl there)], same⟩
  case extend =>
    intro p value absent room
    have missing := fun there => absent ((contains_iff p).1 there)
    have more : (Table.insert (Course.of calls).entries (p, value)).size =
        (Course.of calls).entries.size + 1 := Table.size_insert_of_not_contains _ missing
    exact ⟨_, by rw [set_prim, if_pos (.inr room)], more⟩
  case full =>
    intro p value absent full
    have missing := fun there => absent ((contains_iff p).1 there)
    rw [set_prim, if_neg fun h => h.elim missing full.not_lt]

end DryRun.Entries
