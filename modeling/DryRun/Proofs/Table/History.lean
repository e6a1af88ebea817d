import DryRun.Proofs.Table
import Mathlib.Data.List.Induction
import Mathlib.Data.Nat.Find

/-!
# What a table remembers of its history

A table that was made by putting rows and dropping keys is described by the list of these changes
alone.  What is under a key is settled by the last change there, `Table.last?`.  Where a key stands
among the others is settled by its birth, `Table.Born`: the first time it was put since it was last
dropped.

* `Table.find?_replay` — what is found.
* `Table.mem_replay_iff` — which rows there are.
* `Table.pairwise_born` — in which order the keys stand.
-/

set_option autoImplicit false

namespace DryRun.Table

variable {α κ : Type} [DecidableEq κ]

/-- What is done to a table. -/
inductive Change (α κ : Type) where
  /-- A row is put under its key. -/
  | put (row : α)
  /-- The row under a key is dropped. -/
  | drop (k : κ)

/-- The key at which a table is changed. -/
def Change.key (key : α → κ) : Change α κ → κ
  | .put row => key row
  | .drop k => k

section

variable (key : α → κ)

/-- The table after a change. -/
def apply (table : Table key) : Change α κ → Table key
  | .put row => table.insert row
  | .drop k => table.erase k

/-- The table after all changes, the oldest one first. -/
def replay (history : List (Change α κ)) : Table key :=
  history.foldl (apply key) empty

/-- The last change at a key. -/
def last? (history : List (Change α κ)) (k : κ) : Option (Change α κ) :=
  history.reverse.find? fun change => change.key key = k

/-- The change at `i` puts a row under the key, and the key has not been dropped since. -/
structure Since (history : List (Change α κ)) (k : κ) (i : Nat) : Prop where
  /-- A row is put. -/
  put : ∃ row, history[i]? = some (.put row) ∧ key row = k
  /-- The key is not dropped later. -/
  kept : ∀ j, i ≤ j → history[j]? ≠ some (.drop k)

/-- The change at `i` is the first one that has put a row under the key since the key was last
dropped. -/
structure Born (history : List (Change α κ)) (k : κ) (i : Nat) : Prop where
  /-- It puts a row there. -/
  since : Since key history k i
  /-- No earlier one does. -/
  first : ∀ j, Since key history k j → i ≤ j

end

variable {key : α → κ} {history : List (Change α κ)} {change : Change α κ} {k k' : κ} {i : Nat}
  {row : α}

/-! ## What is found -/

theorem replay_concat :
    replay key (history ++ [change]) = apply key (replay key history) change := by
  rw [replay, List.foldl_append]
  rfl

theorem last?_concat : last? key (history ++ [change]) k =
    if change.key key = k then some change else last? key history k := by
  rw [last?, List.reverse_concat, List.find?_cons]
  by_cases same : change.key key = k
  · rw [if_pos same, decide_eq_true same]
  · rw [if_neg same, decide_eq_false same]
    rfl

/-- **A table finds what was put last**, if it was not dropped since. -/
theorem find?_replay (history : List (Change α κ)) (k : κ) : (replay key history).find? k =
    match last? key history k with
    | some (.put row) => some row
    | _ => none := by
  induction history using List.reverseRecOn with
  | nil => rfl
  | append_singleton history change ih =>
    rw [replay_concat, last?_concat]
    cases change with
    | put row =>
      rw [apply, find?_insert, ih]
      by_cases same : key row = k
      · rw [if_pos same, if_pos (show (Change.put row).key key = k from same)]
      · rw [if_neg same, if_neg (show (Change.put row).key key ≠ k from same)]
    | drop k' =>
      rw [apply, find?_erase, ih]
      by_cases same : k' = k
      · rw [if_pos same.symm, if_pos (show (Change.drop k').key key = k from same)]
      · rw [if_neg (Ne.symm same), if_neg (show (Change.drop k').key key ≠ k from same)]

/-- The rows are those that were put last under their keys. -/
theorem mem_replay_iff :
    row ∈ (replay key history).rows ↔ last? key history (key row) = some (.put row) := by
  have found : (replay key history).find? (key row) = some row ↔
      row ∈ (replay key history).rows ∧ key row = key row := find?_eq_some_iff _
  rw [find?_replay] at found
  rw [← and_iff_left (a := row ∈ _) (rfl : key row = key row), ← found]
  cases last? key history (key row) with
  | none => simp
  | some change => cases change <;> simp

/-! ## In which order -/

section Births

omit [DecidableEq κ]

theorem getElem?_concat_eq_some_iff {later : Change α κ} :
    (history ++ [change])[i]? = some later ↔
      history[i]? = some later ∨ i = history.length ∧ change = later := by
  rcases Nat.lt_trichotomy i history.length with old | rfl | beyond
  · rw [List.getElem?_append_left old, or_iff_left fun h => Nat.ne_of_lt old h.1]
  · rw [List.getElem?_concat_length, List.getElem?_eq_none le_rfl, Option.some.injEq]
    simp
  · rw [List.getElem?_eq_none (by rw [List.length_append]; exact beyond),
      List.getElem?_eq_none (Nat.le_of_lt beyond),
      or_iff_left fun h => Nat.ne_of_gt beyond h.1]

theorem Since.lt_length (h : Since key history k i) : i < history.length := by
  obtain ⟨row, found, -⟩ := h.put
  exact (List.getElem?_eq_some_iff.1 found).1

/-- A row that is put is one more that was put since the key was dropped. -/
theorem since_concat_put : Since key (history ++ [.put row]) k i ↔
    Since key history k i ∨ i = history.length ∧ key row = k := by
  have kept_iff (j : Nat) :
      (history ++ [.put row])[j]? = some (.drop k) ↔ history[j]? = some (.drop k) := by
    rw [getElem?_concat_eq_some_iff, or_iff_left fun h => nomatch h.2]
  constructor
  · rintro ⟨⟨row', found, same⟩, kept⟩
    rcases getElem?_concat_eq_some_iff.1 found with old | ⟨last, new⟩
    · exact .inl ⟨⟨row', old, same⟩, fun j le dropped => kept j le ((kept_iff j).2 dropped)⟩
    · cases new
      exact .inr ⟨last, same⟩
  · rintro (⟨⟨row', found, same⟩, kept⟩ | ⟨rfl, same⟩)
    · exact ⟨⟨row', getElem?_concat_eq_some_iff.2 (.inl found), same⟩,
        fun j le dropped => kept j le ((kept_iff j).1 dropped)⟩
    · refine ⟨⟨row, List.getElem?_concat_length, same⟩, fun j le dropped => ?_⟩
      exact le.not_gt (List.getElem?_eq_some_iff.1 ((kept_iff j).1 dropped)).1

/-- What is dropped was not put since. -/
theorem since_concat_drop : Since key (history ++ [.drop k']) k i ↔
    Since key history k i ∧ k ≠ k' := by
  constructor
  · rintro ⟨⟨row, found, same⟩, kept⟩
    rcases getElem?_concat_eq_some_iff.1 found with old | ⟨-, new⟩
    · have before := (List.getElem?_eq_some_iff.1 old).1
      refine ⟨⟨⟨row, old, same⟩, fun j le dropped => ?_⟩, ?_⟩
      · exact kept j le (getElem?_concat_eq_some_iff.2 (.inl dropped))
      · rintro rfl
        exact kept _ (Nat.le_of_lt before) List.getElem?_concat_length
    · cases new
  · rintro ⟨⟨⟨row, found, same⟩, kept⟩, other⟩
    refine ⟨⟨row, getElem?_concat_eq_some_iff.2 (.inl found), same⟩, fun j le dropped => ?_⟩
    rcases getElem?_concat_eq_some_iff.1 dropped with old | ⟨-, new⟩
    · exact kept j le old
    · cases new
      exact other rfl

/-- A key that was put since it was dropped has a birth. -/
theorem exists_born (h : ∃ i, Since key history k i) : ∃ i, Born key history k i := by
  classical
  exact ⟨Nat.find h, Nat.find_spec h, fun j since => Nat.find_min' h since⟩

/-- A key keeps its birth when rows are put. -/
theorem Born.concat_put (h : Born key history k i) : Born key (history ++ [.put row]) k i where
  since := since_concat_put.2 (.inl h.since)
  first j later := by
    rcases since_concat_put.1 later with old | ⟨rfl, -⟩
    · exact h.first j old
    · exact Nat.le_of_lt h.since.lt_length

/-- A key keeps its birth when others are dropped. -/
theorem Born.concat_drop (h : Born key history k i) (other : k ≠ k') :
    Born key (history ++ [.drop k']) k i where
  since := since_concat_drop.2 ⟨h.since, other⟩
  first j later := h.first j (since_concat_drop.1 later).1

/-- A key that was not there is born when a row is put under it. -/
theorem born_concat_put (absent : ∀ j, ¬Since key history (key row) j) :
    Born key (history ++ [.put row]) (key row) history.length where
  since := since_concat_put.2 (.inr ⟨rfl, rfl⟩)
  first j later := by
    rcases since_concat_put.1 later with old | ⟨rfl, -⟩
    · exact absurd old (absent j)
    · exact le_rfl

end Births

/-- A key that is dropped leaves its place, and the others stay in order. -/
theorem keys_erase (table : Table key) (k : κ) :
    (table.erase k).rows.map key = (table.rows.map key).filter fun k' => k' ≠ k := by
  rw [List.filter_map]
  rfl

/-- The keys of a table are those that were put since they were dropped. -/
theorem mem_keys_replay_iff (history : List (Change α κ)) (k : κ) :
    k ∈ (replay key history).rows.map key ↔ ∃ i, Since key history k i := by
  induction history using List.reverseRecOn with
  | nil =>
    exact ⟨fun h => absurd h List.not_mem_nil, fun ⟨i, h⟩ => absurd h.lt_length i.not_lt_zero⟩
  | append_singleton history change ih =>
    rw [replay_concat]
    cases change with
    | put row =>
      have keys : k ∈ ((replay key history).insert row).rows.map key ↔
          k ∈ (replay key history).rows.map key ∨ key row = k := by
        rw [keys_insert]
        split
        · next there => exact ⟨.inl, fun h => h.elim id fun same => same ▸ there⟩
        · rw [List.mem_append, List.mem_singleton, eq_comm (a := k)]
      rw [apply, keys, ih]
      constructor
      · rintro (⟨i, h⟩ | same)
        · exact ⟨i, since_concat_put.2 (.inl h)⟩
        · exact ⟨_, since_concat_put.2 (.inr ⟨rfl, same⟩)⟩
      · rintro ⟨i, h⟩
        rcases since_concat_put.1 h with old | ⟨-, same⟩
        · exact .inl ⟨i, old⟩
        · exact .inr same
    | drop k' =>
      rw [apply, keys_erase, List.mem_filter, decide_eq_true_iff, ih]
      simp only [since_concat_drop, exists_and_right]

/-- **The keys stand in the order of their births.** -/
theorem pairwise_born (history : List (Change α κ)) :
    ((replay key history).rows.map key).Pairwise fun k k' =>
      ∃ i j, Born key history k i ∧ Born key history k' j ∧ i < j := by
  induction history using List.reverseRecOn with
  | nil => exact .nil
  | append_singleton history change ih =>
    rw [replay_concat]
    cases change with
    | put row =>
      have still : ((replay key history).rows.map key).Pairwise fun k k' => ∃ i j,
          Born key (history ++ [.put row]) k i ∧ Born key (history ++ [.put row]) k' j ∧ i < j :=
        ih.imp fun ⟨i, j, born, born', before⟩ =>
          ⟨i, j, born.concat_put, born'.concat_put, before⟩
      rw [apply, keys_insert]
      split
      · exact still
      · next absent =>
        rw [List.pairwise_append]
        refine ⟨still, List.pairwise_singleton .., fun k mem k' new => ?_⟩
        obtain rfl := List.mem_singleton.1 new
        obtain ⟨i, born⟩ := exists_born ((mem_keys_replay_iff history k).1 mem)
        refine ⟨i, _, born.concat_put, born_concat_put fun j since => ?_, born.since.lt_length⟩
        exact absent ((mem_keys_replay_iff history _).2 ⟨j, since⟩)
    | drop gone =>
      rw [apply, keys_erase]
      refine (ih.filter _).imp_of_mem fun {k k'} mem mem' ⟨i, j, born, born', before⟩ => ?_
      have other := of_decide_eq_true (List.mem_filter.1 mem).2
      have other' := of_decide_eq_true (List.mem_filter.1 mem').2
      exact ⟨i, j, born.concat_drop other, born'.concat_drop other', before⟩

end DryRun.Table
