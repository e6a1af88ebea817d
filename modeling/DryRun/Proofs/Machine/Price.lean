import DryRun.Machine.Price

/-!
# Prices are never negative

Some prices are computed from items that the script chooses: the years of an asset, the rights of a
contract, the number of keys.  None of them can be made negative (`units_nonneg`), and all
instructions that are neither free by their code nor system calls cost something (`units_pos`).
-/

set_option autoImplicit false

namespace DryRun.Price

variable {σ η : Type} {m : Machine σ} {u : Int}

theorem deploymentUnits_pos (properties : Int) : 0 < deploymentUnits properties := by
  have base : 0 < contractBase := by decide
  have storage : 0 ≤ contractStorage := by decide
  have dynamicInvoke : 0 ≤ contractDynamicInvoke := by decide
  rw [deploymentUnits]
  split <;> split <;> omega

theorem storageUnits_pos (keySize valueSize : Int) : 0 < storageUnits keySize valueSize :=
  Int.lt_of_lt_of_le Int.one_pos (Int.le_max_left 1 _)

theorem keyUnits_pos (count : Int) : 0 < if count < 1 then 1 else perKey * count := by
  split
  · exact Int.one_pos
  · next many => exact Int.mul_pos (by decide) (by omega)

theorem multisigUnits_pos (h : multisigUnits m = .ok u) : 0 < u := by
  rw [multisigUnits] at h
  split at h
  · cases h
    exact Int.one_pos
  · simp only [bind, Except.bind] at h
    split at h
    · cases h
      exact keyUnits_pos _
    · split at h
      · cases h
      · cases h
        exact keyUnits_pos _

theorem dynamicUnits_nonneg {method : String} (h : dynamicUnits method m = .ok u) : 0 ≤ u := by
  rw [dynamicUnits.eq_def] at h
  split at h
  · cases h
    decide
  · simp only [bind, Except.bind] at h
    split at h
    · cases h
    · next years _ =>
      split at h
      · cases h
      · next natural =>
        cases h
        exact Int.mul_nonneg (Int.not_lt.1 natural) (by decide)
  · simp only [bind, Except.bind] at h
    split at h
    · cases h
    · cases h
      exact Int.le_of_lt (deploymentUnits_pos _)
  · simp only [bind, Except.bind] at h
    split at h
    · cases h
    · cases h
      exact Int.le_of_lt (deploymentUnits_pos _)
  · simp only [bind, Except.bind] at h
    split at h
    · cases h
    · split at h
      · cases h
      · cases h
        exact Int.le_of_lt (storageUnits_pos _ _)
  · simp only [bind, Except.bind] at h
    split at h
    · cases h
    · split at h
      · cases h
      · cases h
        exact Int.le_of_lt (storageUnits_pos _ _)
  · cases h
    decide

theorem syscallUnits_nonneg {registry : Registry η} {id : Nat}
    (h : syscallUnits registry id m = .ok u) : 0 ≤ u := by
  rw [syscallUnits] at h
  split at h
  · cases h
    decide
  · split at h
    · split at h
      · next positive =>
        cases h
        exact Int.le_of_lt positive
      · exact dynamicUnits_nonneg h
    · exact dynamicUnits_nonneg h

variable {registry : Registry η} {i : Instruction}

/-- An instruction that is not free by its code costs something, unless it is a system call. -/
theorem units_pos (code : 0x61 < i.code) (op : i.opcode ≠ .flow .sysCall)
    (h : units registry i m = .ok u) : 0 < u := by
  rw [units, if_neg (UInt8.not_le.2 code)] at h
  split at h
  · next sysCall => exact absurd sysCall op
  · cases h; decide
  · cases h; decide
  · cases h; decide
  · cases h; decide
  · cases h; decide
  · cases h; decide
  · cases h; decide
  · cases h; decide
  · exact multisigUnits_pos h
  · cases h; decide

theorem units_free (code : i.code ≤ 0x61) : units registry i m = .ok 0 := by
  rw [units, if_pos code]

/-- **No price is negative**, whatever the items are that it is computed from. -/
theorem units_nonneg (h : units registry i m = .ok u) : 0 ≤ u := by
  by_cases code : i.code ≤ 0x61
  · rw [units_free code] at h
    cases h
    exact Int.le_refl 0
  · by_cases op : i.opcode = .flow .sysCall
    · rw [units, if_neg code, op] at h
      exact syscallUnits_nonneg h
    · exact Int.le_of_lt (units_pos (UInt8.not_le.1 code) op h)

theorem ratio_pos : 0 < ratio := by decide

/-- A price in hundred-millionths is one in base units. -/
theorem amount_eq_ok {a : Int} (h : amount registry i m = .ok a) :
    ∃ u, units registry i m = .ok u ∧ a = u * ratio := by
  rw [amount] at h
  cases hu : units registry i m with
  | error fault => rw [hu] at h; cases h
  | ok u =>
    rw [hu] at h
    cases h
    exact ⟨u, rfl, rfl⟩

end DryRun.Price
