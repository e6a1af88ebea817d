import DryRun.Item.Tree
import Mathlib.Algebra.GroupWithZero.Nat

/-!
# What a table keeps of the rows put into it

A table that is filled from a list keeps a row of the list for each key, and nothing else.

* `foldl_place_of_nodup` — a list without repeated keys is kept as it is;
* `forall_mem_foldl_place` — what holds of all rows put in holds of all rows kept;
* `sum_map_foldl_place_le` — whatever weight rows have, those kept weigh no more than those put in.

`Tree.settle` is the list of the entries that a map keeps of those put into it.
-/

set_option autoImplicit false

namespace DryRun

namespace Table

variable {α κ : Type} [DecidableEq κ] {key : α → κ}

/-! ## Placing rows one after the other -/

theorem place_of_not_mem {row : α} {rows : List α} (h : key row ∉ rows.map key) :
    place key row rows = rows ++ [row] := by
  induction rows with
  | nil => rfl
  | cons old rest ih =>
    rw [List.map_cons, List.mem_cons, not_or] at h
    rw [place, if_neg fun same => h.1 same.symm, ih h.2, List.cons_append]

/-- Rows with keys of their own stay as they are put in. -/
theorem foldl_place_of_nodup {rows more : List α} (h : ((rows ++ more).map key).Nodup) :
    more.foldl (fun rows row => place key row rows) rows = rows ++ more := by
  induction more generalizing rows with
  | nil => rw [List.foldl_nil, List.append_nil]
  | cons row more ih =>
    have absent : key row ∉ rows.map key := by
      rw [List.map_append, List.nodup_append] at h
      intro mem
      exact h.2.2 _ mem _ (List.mem_map_of_mem List.mem_cons_self) rfl
    rw [List.foldl_cons, place_of_not_mem absent, ih, List.append_assoc, List.singleton_append]
    rwa [List.append_assoc, List.singleton_append]

theorem nodup_foldl_place {rows : List α} (more : List α) (h : (rows.map key).Nodup) :
    ((more.foldl (fun rows row => place key row rows) rows).map key).Nodup := by
  induction more generalizing rows with
  | nil => exact h
  | cons row more ih => exact ih (nodup_place key row rows h)

theorem forall_mem_place {P : α → Prop} {row : α} {rows : List α} (new : P row)
    (old : ∀ r ∈ rows, P r) : ∀ r ∈ place key row rows, P r := by
  induction rows with
  | nil =>
    intro r mem
    rw [List.mem_singleton.1 mem]
    exact new
  | cons first rest ih =>
    rw [List.forall_mem_cons] at old
    rw [place]
    split
    · exact List.forall_mem_cons.2 ⟨new, old.2⟩
    · exact List.forall_mem_cons.2 ⟨old.1, ih old.2⟩

/-- What holds of all rows put in holds of all rows kept. -/
theorem forall_mem_foldl_place {P : α → Prop} {rows more : List α} (old : ∀ r ∈ rows, P r)
    (new : ∀ r ∈ more, P r) :
    ∀ r ∈ more.foldl (fun rows row => place key row rows) rows, P r := by
  induction more generalizing rows with
  | nil => exact old
  | cons row more ih =>
    rw [List.forall_mem_cons] at new
    exact ih (forall_mem_place new.1 old) new.2

theorem sum_map_place_le (key : α → κ) (weight : α → Nat) (row : α) (rows : List α) :
    ((place key row rows).map weight).sum ≤ weight row + (rows.map weight).sum := by
  induction rows with
  | nil => simp [place]
  | cons old rest ih =>
    rw [place]
    split <;> simp only [List.map_cons, List.sum_cons] <;> omega

/-- Rows that are replaced weigh nothing any more. -/
theorem sum_map_foldl_place_le (key : α → κ) (weight : α → Nat) (rows more : List α) :
    ((more.foldl (fun rows row => place key row rows) rows).map weight).sum ≤
      (rows.map weight).sum + (more.map weight).sum := by
  induction more generalizing rows with
  | nil => simp
  | cons row more ih =>
    have rest := ih (place key row rows)
    have first := sum_map_place_le key weight row rows
    rw [List.foldl_cons, List.map_cons, List.sum_cons]
    omega

/-! ## Tables -/

/-- Since no key occurs twice, a table finds every row it has. -/
theorem find?_eq_some_iff (table : Table key) {k : κ} {row : α} :
    table.find? k = some row ↔ row ∈ table.rows ∧ key row = k := by
  obtain ⟨rows, nodup⟩ := table
  rw [find?]
  dsimp only
  induction rows with
  | nil => simp
  | cons first rest ih =>
    rw [List.map_cons, List.nodup_cons] at nodup
    rw [List.find?_cons]
    by_cases same : key first = k
    · rw [decide_eq_true same]
      constructor
      · intro h
        cases h
        exact ⟨List.mem_cons_self, same⟩
      · rintro ⟨mem, hk⟩
        rcases List.mem_cons.1 mem with rfl | mem
        · rfl
        · have again := List.mem_map_of_mem (f := key) mem
          rw [hk, ← same] at again
          exact absurd again nodup.1
    · rw [decide_eq_false same]
      dsimp only
      rw [ih nodup.2, List.mem_cons]
      constructor
      · rintro ⟨mem, hk⟩
        exact ⟨.inr mem, hk⟩
      · rintro ⟨rfl | mem, hk⟩
        · exact absurd hk same
        · exact ⟨mem, hk⟩

theorem contains_iff (table : Table key) (k : κ) :
    table.contains k ↔ k ∈ table.rows.map key := by
  rw [contains, Option.isSome_iff_exists, List.mem_map]
  exact exists_congr fun row => find?_eq_some_iff table

theorem rows_foldl_insert (rows : List α) (table : Table key) :
    (rows.foldl insert table).rows =
      rows.foldl (fun rows row => place key row rows) table.rows := by
  induction rows generalizing table with
  | nil => rfl
  | cons row rows ih => exact ih (table.insert row)

theorem rows_ofList (rows : List α) :
    (ofList rows : Table key).rows = rows.foldl (fun rows row => place key row rows) [] :=
  rows_foldl_insert rows empty

/-- A table made from rows with keys of their own has these rows. -/
theorem rows_ofList_of_nodup {rows : List α} (h : (rows.map key).Nodup) :
    (ofList rows : Table key).rows = rows := by
  rw [rows_ofList, foldl_place_of_nodup (by rwa [List.nil_append]), List.nil_append]

/-- A table is made again from its rows. -/
theorem ofList_rows (table : Table key) : ofList table.rows = table := by
  cases table with
  | mk rows nodup =>
    have same := rows_ofList_of_nodup nodup
    dsimp only
    cases made : (ofList rows : Table key) with
    | mk rows' nodup' =>
      rw [made] at same
      cases same
      rfl

theorem forall_mem_ofList {P : α → Prop} {rows : List α} (h : ∀ row ∈ rows, P row) :
    ∀ row ∈ (ofList rows : Table key).rows, P row := by
  rw [rows_ofList]
  exact forall_mem_foldl_place (fun _ mem => absurd mem List.not_mem_nil) h

theorem mem_keys_foldl_place {k : κ} {rows more : List α} :
    k ∈ (more.foldl (fun rows row => place key row rows) rows).map key ↔
      k ∈ rows.map key ∨ k ∈ more.map key := by
  induction more generalizing rows with
  | nil => exact (or_iff_left List.not_mem_nil).symm
  | cons row more ih =>
    have placed : k ∈ (place key row rows).map key ↔ k ∈ rows.map key ∨ k = key row := by
      rw [map_place]
      split
      · next there => exact ⟨.inl, fun h => h.elim id fun same => same ▸ there⟩
      · rw [List.mem_append, List.mem_singleton]
    rw [List.foldl_cons, ih, placed, List.map_cons, List.mem_cons, or_assoc]

/-- **A table made from rows** has their keys. -/
theorem contains_ofList {rows : List α} {k : κ} :
    (ofList rows : Table key).contains k ↔ k ∈ rows.map key := by
  rw [contains_iff, rows_ofList, mem_keys_foldl_place, or_iff_right]
  exact List.not_mem_nil

theorem size_insert_le (table : Table key) (row : α) :
    (table.insert row).size ≤ table.size + 1 := by
  have kept := sum_map_place_le key (fun _ => 1) row table.rows
  simp only [List.map_const', List.sum_replicate_nat] at kept
  show (place key row table.rows).length ≤ table.rows.length + 1
  omega

/-- A row under a key that is there takes the place of another one. -/
theorem size_insert_of_contains (table : Table key) {row : α} (h : table.contains (key row)) :
    (table.insert row).size = table.size := by
  have keys := congrArg List.length (table.keys_insert row)
  rwa [if_pos ((table.contains_iff _).1 h), List.length_map, List.length_map] at keys

theorem size_insert_of_not_contains (table : Table key) {row : α}
    (h : ¬table.contains (key row)) : (table.insert row).size = table.size + 1 := by
  have keys := congrArg List.length (table.keys_insert row)
  rwa [if_neg fun there => h ((table.contains_iff _).2 there), List.length_map, List.length_append,
    List.length_map] at keys

theorem size_erase_le (table : Table key) (k : κ) : (table.erase k).size ≤ table.size :=
  List.length_filter_le _ _

theorem size_ofList_le (rows : List α) : (ofList rows : Table key).size ≤ rows.length := by
  have kept := sum_map_foldl_place_le key (fun _ => 1) [] rows
  simp only [List.map_const', List.sum_replicate_nat, List.length_nil] at kept
  rw [size, rows_ofList]
  omega

end Table

/-! ## The entries that a map keeps -/

namespace Tree

theorem nodup_settle (entries : List (Primitive × Tree)) :
    ((settle entries).map entryKey).Nodup :=
  Table.nodup_foldl_place entries List.nodup_nil

theorem forall_mem_settle {P : Primitive × Tree → Prop} {entries : List (Primitive × Tree)}
    (h : ∀ entry ∈ entries, P entry) : ∀ entry ∈ settle entries, P entry :=
  Table.forall_mem_foldl_place (fun _ mem => absurd mem List.not_mem_nil) h

theorem settle_of_nodup {entries : List (Primitive × Tree)} (h : (entries.map entryKey).Nodup) :
    settle entries = entries := by
  rw [settle, Table.foldl_place_of_nodup (by rwa [List.nil_append]), List.nil_append]

/-- The entries kept weigh no more than those put in. -/
theorem sum_map_settle_le (weight : Primitive × Tree → Nat) (entries : List (Primitive × Tree)) :
    ((settle entries).map weight).sum ≤ (entries.map weight).sum := by
  have kept := Table.sum_map_foldl_place_le entryKey weight [] entries
  rwa [List.map_nil, List.sum_nil, Nat.zero_add] at kept

theorem length_settle_le (entries : List (Primitive × Tree)) :
    (settle entries).length ≤ entries.length := by
  have kept := sum_map_settle_le (fun _ => 1) entries
  simp only [List.map_const', List.sum_replicate_nat] at kept
  omega

end Tree

end DryRun
