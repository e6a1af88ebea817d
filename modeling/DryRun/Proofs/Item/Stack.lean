import DryRun.Item.Stack

/-!
# Positions on a stack

A position on a stack is the number of items that lie above it.  Each operation at a position
succeeds exactly where the stack can be cut there, and changes it at the cut.

* `Stack.peek_eq_ok_iff`, `Stack.remove_eq_ok_iff`, `Stack.insert_eq_ok_iff`,
  `Stack.set_eq_ok_iff` — the operations one by one.
-/

set_option autoImplicit false

namespace DryRun.Stack

/-! ## Cutting a list -/

section Lists

variable {α : Type} {n : Nat} {x y : α} {above below l l' : List α}

theorem eraseIdx_append_cons : (above ++ x :: below).eraseIdx above.length = above ++ below := by
  rw [List.eraseIdx_append_of_length_le (Nat.le_refl _), Nat.sub_self, List.eraseIdx_cons_zero]

theorem set_append_cons : (above ++ x :: below).set above.length y = above ++ y :: below := by
  rw [List.set_append_right _ _ (Nat.le_refl _), Nat.sub_self, List.set_cons_zero]

theorem insertIdx_append : (above ++ below).insertIdx above.length x = above ++ x :: below := by
  induction above with
  | nil => rfl
  | cons y above ih => rw [List.cons_append, List.length_cons, List.insertIdx_succ_cons, ih]; rfl

theorem getElem?_append_cons : (above ++ x :: below)[above.length]? = some x := by
  rw [List.getElem?_append_right (Nat.le_refl _), Nat.sub_self, List.getElem?_cons_zero]

theorem drop_append_cons : (above ++ x :: below).drop (above.length + 1) = below := by
  rw [← List.drop_drop, List.drop_left]
  rfl

/-- An item is at the position that is the number of items above it. -/
theorem getElem?_eq_some_iff_append :
    l[n]? = some x ↔ ∃ above below, l = above ++ x :: below ∧ above.length = n := by
  constructor
  · intro found
    obtain ⟨inside, rfl⟩ := List.getElem?_eq_some_iff.1 found
    refine ⟨l.take n, l.drop (n + 1), ?_, List.length_take_of_le (Nat.le_of_lt inside)⟩
    rw [← List.drop_eq_getElem_cons inside, List.take_append_drop]
  · rintro ⟨above, below, rfl, rfl⟩
    exact getElem?_append_cons

end Lists

variable {s s' : Stack} {n : Nat} {x y : Item}

/-! ## Operations -/

theorem peek_natCast : s.peek n = match s.items[n]? with
    | some x => .ok x
    | none => .error (.noSuchIndex s.name n s.depth) := by
  rw [peek]
  by_cases inside : n < s.items.length
  · rw [dif_pos ⟨Int.natCast_nonneg n, inside⟩, List.getElem?_eq_getElem inside]
    rfl
  · rw [dif_neg fun h => inside h.2, List.getElem?_eq_none (Nat.not_lt.1 inside)]

theorem peek_eq_ok_iff :
    s.peek n = .ok x ↔ ∃ above below, s.items = above ++ x :: below ∧ above.length = n := by
  rw [peek_natCast, ← getElem?_eq_some_iff_append]
  cases s.items[n]? with
  | some y => simp
  | none => simp

theorem remove_eq_ok_iff : s.remove n = .ok (x, s') ↔
    ∃ above below, s.items = above ++ x :: below ∧ above.length = n ∧
      s' = { s with items := above ++ below } := by
  have cut : s.remove n = .ok (x, s') ↔
      s.peek n = .ok x ∧ { s with items := s.items.eraseIdx n } = s' := by
    rw [remove]
    cases s.peek n with
    | error cause => exact ⟨nofun, fun h => nomatch h.1⟩
    | ok y =>
      show Except.ok (y, { s with items := s.items.eraseIdx n }) = .ok (x, s') ↔ _
      rw [Except.ok.injEq, Prod.mk.injEq, Except.ok.injEq]
  rw [cut, peek_eq_ok_iff]
  constructor
  · rintro ⟨⟨above, below, items, rfl⟩, rfl⟩
    exact ⟨above, below, items, rfl, by rw [items, eraseIdx_append_cons]⟩
  · rintro ⟨above, below, items, rfl, rfl⟩
    exact ⟨⟨above, below, items, rfl⟩, by rw [items, eraseIdx_append_cons]⟩

theorem insert_eq_ok_iff : s.insert n x = .ok s' ↔
    ∃ above below, s.items = above ++ below ∧ above.length = n ∧
      s' = { s with items := above ++ x :: below } := by
  rw [insert]
  constructor
  · intro done
    split at done
    · next inside =>
      cases done
      have inside : n ≤ s.items.length := Int.ofNat_le.1 inside.2
      have place : (s.items.take n).length = n := List.length_take_of_le inside
      refine ⟨s.items.take n, s.items.drop n, (List.take_append_drop n _).symm, place, ?_⟩
      rw [← insertIdx_append, List.take_append_drop, place]
      rfl
    · cases done
  · rintro ⟨above, below, items, rfl, rfl⟩
    have inside : above.length ≤ s.depth := by
      rw [depth, items, List.length_append]
      exact Nat.le_add_right _ _
    rw [if_pos ⟨Int.natCast_nonneg _, Int.ofNat_le.2 inside⟩, items, Int.toNat_natCast,
      insertIdx_append]

theorem set_eq_ok_iff : s.set n y = .ok s' ↔
    ∃ above x below, s.items = above ++ x :: below ∧ above.length = n ∧
      s' = { s with items := above ++ y :: below } := by
  rw [set]
  constructor
  · intro done
    split at done
    · next inside =>
      cases done
      obtain ⟨above, below, items, place, changed⟩ := List.exists_of_set inside.2
      exact ⟨above, _, below, items, place, by rw [changed]⟩
    · cases done
  · rintro ⟨above, x, below, items, rfl, rfl⟩
    have inside : above.length < s.items.length := by
      rw [items, List.length_append, List.length_cons]
      omega
    rw [if_pos ⟨Int.natCast_nonneg _, inside⟩, items, Int.toNat_natCast, set_append_cons]

end DryRun.Stack
