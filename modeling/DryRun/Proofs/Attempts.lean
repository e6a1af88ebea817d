/-!
# Lists of attempts

An attempt succeeds with a value or fails for a cause.  A list of attempts, made one after the
other, succeeds if each of them does, and gives a value for each.
-/

set_option autoImplicit false

namespace DryRun.Attempts

variable {ε α β : Type} {f g : α → Except ε β} {l : List α}

theorem map_eq_ok_iff {f : α → β} {x : Except ε α} {b : β} :
    f <$> x = .ok b ↔ ∃ a, x = .ok a ∧ f a = b := by
  cases x with
  | ok a =>
    constructor
    · rintro ⟨⟩
      exact ⟨a, rfl, rfl⟩
    · rintro ⟨_, ⟨⟩, rfl⟩
      rfl
  | error cause =>
    constructor
    · rintro ⟨⟩
    · rintro ⟨_, ⟨⟩, _⟩

theorem map_eq_ok {f : α → β} {x : Except ε α} : (∃ b, f <$> x = .ok b) ↔ ∃ a, x = .ok a := by
  cases x with
  | ok a => exact ⟨fun _ => ⟨a, rfl⟩, fun _ => ⟨f a, rfl⟩⟩
  | error cause => constructor <;> rintro ⟨_, ⟨⟩⟩

theorem eq_error_iff {x : Except ε α} : (∃ cause, x = .error cause) ↔ ¬∃ a, x = .ok a := by
  cases x with
  | ok a => exact ⟨fun ⟨_, h⟩ => (nomatch h), fun h => absurd ⟨a, rfl⟩ h⟩
  | error cause => exact ⟨fun _ ⟨_, h⟩ => (nomatch h), fun _ => ⟨cause, rfl⟩⟩

theorem mapError_eq_ok {δ : Type} {f : ε → δ} {x : Except ε α} {a : α} :
    x.mapError f = .ok a ↔ x = .ok a := by
  cases x with
  | ok b =>
    constructor
    · rintro ⟨⟩
      rfl
    · rintro ⟨⟩
      rfl
  | error cause => constructor <;> rintro ⟨⟩

theorem eq_cons_of_mapM {a : α} {bs : List β} (h : (a :: l).mapM f = .ok bs) :
    ∃ b more, f a = .ok b ∧ l.mapM f = .ok more ∧ bs = b :: more := by
  rw [List.mapM_cons] at h
  cases first : f a with
  | error cause => rw [first] at h; cases h
  | ok b =>
    rw [first] at h
    cases rest : l.mapM f with
    | error cause => rw [rest] at h; cases h
    | ok more =>
      rw [rest] at h
      cases h
      exact ⟨b, more, rfl, rfl, rfl⟩

theorem length_of_mapM {bs : List β} (h : l.mapM f = .ok bs) : bs.length = l.length := by
  induction l generalizing bs with
  | nil => cases h; rfl
  | cons a l ih =>
    obtain ⟨b, more, -, rest, rfl⟩ := eq_cons_of_mapM h
    rw [List.length_cons, List.length_cons, ih rest]

theorem mapM_eq_ok : (∃ bs, l.mapM f = .ok bs) ↔ ∀ a ∈ l, ∃ b, f a = .ok b := by
  induction l with
  | nil => exact ⟨fun _ _ mem => absurd mem List.not_mem_nil, fun _ => ⟨[], rfl⟩⟩
  | cons a l ih =>
    rw [List.forall_mem_cons, ← ih]
    constructor
    · rintro ⟨bs, h⟩
      obtain ⟨b, more, first, rest, -⟩ := eq_cons_of_mapM h
      exact ⟨⟨b, first⟩, more, rest⟩
    · rintro ⟨⟨b, first⟩, more, rest⟩
      exact ⟨b :: more, by rw [List.mapM_cons, first, rest]; rfl⟩

/-- A list succeeds with values that lie beside the attempts they come from. -/
theorem mapM_eq_ok_iff {bs : List β} :
    l.mapM f = .ok bs ↔ l.length = bs.length ∧ ∀ pair ∈ l.zip bs, f pair.1 = .ok pair.2 := by
  constructor
  · intro h
    refine ⟨(length_of_mapM h).symm, ?_⟩
    induction l generalizing bs with
    | nil => exact fun pair mem => absurd mem List.not_mem_nil
    | cons a l ih =>
      obtain ⟨b, more, first, rest, rfl⟩ := eq_cons_of_mapM h
      exact List.forall_mem_cons.2 ⟨first, ih rest⟩
  · rintro ⟨size, each⟩
    induction l generalizing bs with
    | nil =>
      rw [List.length_eq_zero_iff.1 size.symm]
      rfl
    | cons a l ih =>
      obtain ⟨b, more, rfl⟩ := List.exists_cons_of_length_eq_add_one size.symm
      obtain ⟨first, rest⟩ := List.forall_mem_cons.1 each
      rw [List.mapM_cons, first, ih (Nat.succ_inj.1 size) rest]
      rfl

/-- What is known before an attempt can be put beside its value afterwards. -/
theorem mapM_prodMk {κ : Type} (key : α → κ) (f : α → Except ε β) (l : List α) :
    (l.mapM fun a => Prod.mk (key a) <$> f a) = (l.map key).zip <$> l.mapM f := by
  induction l with
  | nil => rfl
  | cons a l ih =>
    rw [List.mapM_cons, List.mapM_cons, ih]
    cases f a with
    | error cause => rfl
    | ok b => cases l.mapM f <;> rfl

/-- The values are those of the attempts. -/
theorem mem_iff_of_mapM {bs : List β} (h : l.mapM f = .ok bs) {b : β} :
    b ∈ bs ↔ ∃ a ∈ l, f a = .ok b := by
  induction l generalizing bs with
  | nil =>
    cases h
    exact iff_of_false List.not_mem_nil fun ⟨_, mem, _⟩ => List.not_mem_nil mem
  | cons a l ih =>
    obtain ⟨first, more, value, rest, rfl⟩ := eq_cons_of_mapM h
    simp only [List.mem_cons, ih rest, or_and_right, exists_or, exists_eq_left, value,
      Except.ok.injEq, eq_comm (a := b)]

/-- If the list fails, it fails for the cause of an attempt in it. -/
theorem exists_of_mapM_eq_error {cause : ε} (h : l.mapM f = .error cause) :
    ∃ a ∈ l, f a = .error cause := by
  induction l with
  | nil => cases h
  | cons a l ih =>
    rw [List.mapM_cons] at h
    cases first : f a with
    | error cause' =>
      rw [first] at h
      cases h
      exact ⟨a, List.mem_cons_self, first⟩
    | ok b =>
      rw [first] at h
      cases rest : l.mapM f with
      | error cause' =>
        rw [rest] at h
        cases h
        obtain ⟨a', mem, failed⟩ := ih rest
        exact ⟨a', List.mem_cons_of_mem a mem, failed⟩
      | ok more =>
        rw [rest] at h
        cases h

theorem mapM_congr (h : ∀ a ∈ l, f a = g a) : l.mapM f = l.mapM g := by
  induction l with
  | nil => rfl
  | cons a l ih =>
    rw [List.mapM_cons, List.mapM_cons, h a List.mem_cons_self,
      ih fun b mem => h b (List.mem_cons_of_mem a mem)]

end DryRun.Attempts
