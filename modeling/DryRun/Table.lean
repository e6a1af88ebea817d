/-!
# Tables that remember the order of insertion

A `Table` holds rows, each carrying its own key, with no key twice.  Inserting a row under a new
key appends it; inserting under a key already present replaces the old row where it stands, so a
table lists its keys in the order of their first insertion.  `find?_insert` says what is found
afterwards, `keys_insert` in which order.
-/

set_option autoImplicit false

namespace DryRun

variable {α κ : Type} [DecidableEq κ]

/-- Rows in order of first insertion, at most one for each key. -/
structure Table (key : α → κ) where
  /-- The rows, oldest key first. -/
  rows : List α
  /-- No key occurs twice. -/
  nodup : (rows.map key).Nodup

namespace Table

variable {key : α → κ}

/-! ## Replacing or appending one row -/

/-- Put a row in the place of the one with its key, or else at the end. -/
def place (key : α → κ) (row : α) : List α → List α
  | [] => [row]
  | old :: rest => if key old = key row then row :: rest else old :: place key row rest

theorem map_place (key : α → κ) (row : α) (rows : List α) :
    (place key row rows).map key =
      if key row ∈ rows.map key then rows.map key else rows.map key ++ [key row] := by
  induction rows with
  | nil => simp [place]
  | cons old rest ih =>
    by_cases same : key old = key row
    · simp [place, same]
    · have other : ¬ key row = key old := fun h => same h.symm
      simp only [place, if_neg same, List.map_cons, ih, List.mem_cons, other, false_or]
      split <;> simp

theorem nodup_place (key : α → κ) (row : α) (rows : List α) (h : (rows.map key).Nodup) :
    ((place key row rows).map key).Nodup := by
  rw [map_place]
  split
  · exact h
  · next absent =>
    rw [List.nodup_append]
    refine ⟨h, by simp, ?_⟩
    intro a ha b hb
    simp only [List.mem_singleton] at hb
    subst hb
    exact fun same => absent (same ▸ ha)

theorem find?_place (key : α → κ) (row : α) (rows : List α) (k : κ) :
    (place key row rows).find? (fun r => key r = k) =
      if key row = k then some row else rows.find? (fun r => key r = k) := by
  induction rows with
  | nil => by_cases h : key row = k <;> simp [place, h]
  | cons old rest ih =>
    by_cases same : key old = key row
    · by_cases h : key row = k
      · simp [place, same, h]
      · simp [place, same, h]
    · by_cases h : key row = k
      · have : ¬ key old = k := fun e => same (e.trans h.symm)
        simp [place, h, ih, this]
      · simp only [place, if_neg same, List.find?_cons, ih, if_neg h]

/-! ## Tables -/

/-- The table with no rows. -/
def empty : Table key := ⟨[], List.nodup_nil⟩

instance : Inhabited (Table key) := ⟨empty⟩

/-- The row under a key. -/
def find? (table : Table key) (k : κ) : Option α :=
  table.rows.find? fun row => key row = k

/-- Is there a row under this key? -/
def contains (table : Table key) (k : κ) : Bool :=
  (table.find? k).isSome

/-- How many rows there are. -/
def size (table : Table key) : Nat :=
  table.rows.length

/-- Put a row under its key, in the place of the row that was there. -/
def insert (table : Table key) (row : α) : Table key :=
  ⟨place key row table.rows, nodup_place key row table.rows table.nodup⟩

/-- Drop the row under a key. -/
def erase (table : Table key) (k : κ) : Table key :=
  ⟨table.rows.filter fun row => key row ≠ k,
    table.nodup.sublist (List.filter_sublist.map key)⟩

/-- The table that holds these rows, later ones replacing earlier ones. -/
def ofList (rows : List α) : Table key :=
  rows.foldl insert empty

@[simp] theorem find?_empty (k : κ) : (empty : Table key).find? k = none := rfl

/-- A table finds the row inserted last under a key. -/
theorem find?_insert (table : Table key) (row : α) (k : κ) :
    (table.insert row).find? k = if key row = k then some row else table.find? k :=
  find?_place key row table.rows k

/-- A known key keeps its place, a new one goes to the end. -/
theorem keys_insert (table : Table key) (row : α) :
    (table.insert row).rows.map key =
      if key row ∈ table.rows.map key then table.rows.map key
      else table.rows.map key ++ [key row] :=
  map_place key row table.rows

theorem find?_erase (table : Table key) (k k' : κ) :
    (table.erase k).find? k' = if k' = k then none else table.find? k' := by
  simp only [find?, erase, List.find?_filter]
  by_cases h : k' = k
  · subst h
    simp only [if_true]
    rw [List.find?_eq_none]
    intro row _
    by_cases hk : key row = k' <;> simp [hk]
  · simp only [if_neg h]
    congr 1
    funext row
    by_cases hk : key row = k'
    · have : ¬ key row = k := fun e => h (hk ▸ e)
      simp [hk, h]
    · simp [hk]

end Table

end DryRun
