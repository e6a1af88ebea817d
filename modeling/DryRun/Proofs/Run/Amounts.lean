import DryRun.Proofs.Number.Decimal
import DryRun.Proofs.Run.GasLimit
import DryRun.Proofs.Run.Receipt
import DryRun.Run

/-!
# The gas of a receipt

A receipt shows the gas of a run as a decimal numeral.  Only 28 significant digits of it are kept,
and gas has no bound: a single instruction may be charged for a number that the script makes up, and
if that exceeds the limit the run ends with this charge.  So the numeral does not always say how
much gas was consumed, and different amounts may be shown alike.  What is said of all amounts here
is meant of those that the arithmetic of decimals has room for, up to about `10 ^ 1000008` units.

* `Fixed8.exists_numeral` — the text is a canonical numeral for `Fixed8.shown`.
* `Fixed8.nearest_shown` — which is the amount rounded to its first 28 digits.
* `Fixed8.format_eq_iff` — amounts that are shown as the same are written alike, and no others.
* `Machine.outOfGas_or_le_runFor` — gas is within the limit unless the run has ended for
  exceeding it.
* `receipts_show_gas` — what this comes to for receipts.
-/

set_option autoImplicit false

namespace DryRun

/-! ## Texts of amounts -/

namespace Fixed8

/-- The place value of the last digit that is shown of an amount. -/
def unit (amount : Int) : Nat := 10 ^ (Decimal.length amount.natAbs - precision)

/-- What is left of a natural number of hundred-millionths. -/
def shownAbs (n : Nat) : Nat :=
  (Decimal.roundTo precision n).1 * 10 ^ (Decimal.roundTo precision n).2

/-- The amount that is shown in place of an amount. -/
def shown (amount : Int) : Int :=
  if amount < 0 then -(shownAbs amount.natAbs : Int) else shownAbs amount.natAbs

theorem nearest_shownAbs (n : Nat) : Decimal.Nearest (unit n) n (shownAbs n) :=
  (Decimal.nearest_roundTo precision n).2

/-- **What is shown** is the amount rounded to its first digits. -/
theorem nearest_shown (amount : Int) : Decimal.Nearest (unit amount) amount (shown amount) := by
  have nearest := nearest_shownAbs amount.natAbs
  rw [shown]
  split
  · next negative =>
    have same : -(amount.natAbs : Int) = amount := by omega
    have turned := nearest.neg
    rwa [same, unit, Int.natAbs_natCast] at turned
  · next positive =>
    have same : (amount.natAbs : Int) = amount := by omega
    rwa [same] at nearest

/-- All digits of an amount are shown if there are no more than are kept. -/
theorem unit_eq_one_iff {amount : Int} : unit amount = 1 ↔ amount.natAbs < 10 ^ precision := by
  rw [unit, Nat.pow_eq_one, ← Nat.length_toDigits_le_iff (by decide) (by decide)]
  change (10 = 1 ∨ Decimal.length _ - _ = 0) ↔ Decimal.length _ ≤ _
  omega

/-- An amount is not below the place value of one of its digits. -/
theorem unit_le {n : Nat} (some : n ≠ 0) : unit n ≤ n := by
  rw [unit, Int.natAbs_natCast]
  rcases Nat.lt_or_ge precision (Decimal.length n) with long | short
  · refine Nat.not_lt.1 fun below => ?_
    have fits := (Nat.length_toDigits_le_iff (by decide) (by omega)).2 below
    change Decimal.length n ≤ _ at fits
    rw [precision] at long fits
    omega
  · rw [Nat.sub_eq_zero_of_le short]
    omega

/-- Nothing but nothing is shown as nothing. -/
theorem shownAbs_ne_zero {n : Nat} (some : n ≠ 0) : shownAbs n ≠ 0 := by
  intro zero
  have nearest := (nearest_shownAbs n).nearest (unit n) (dvd_refl _)
  have le := unit_le some
  have pos : 0 < unit n := Nat.pow_pos (by decide)
  rw [zero, Nat.cast_zero, zero_sub, abs_neg, Nat.abs_cast, abs_sub_comm,
    abs_of_nonneg (by omega)] at nearest
  omega

/-- How an amount is written: as if what is shown were written with all its digits. -/
theorem toList_format (amount : Int) : (format amount).toList =
    (if amount < 0 then ['-'] else []) ++
      Decimal.positional (shownAbs amount.natAbs) places := by
  have written (c dropped : Nat) : Decimal.positional (c * Nat.pow 10 (dropped - places))
      (places - dropped) = Decimal.positional (c * 10 ^ dropped) places := by
    rcases Nat.le_total dropped places with few | many
    · obtain ⟨k, same⟩ := Nat.exists_eq_add_of_le few
      rw [Nat.sub_eq_zero_of_le few, same, Nat.add_sub_cancel_left, Nat.add_comm dropped,
        Decimal.positional_mul_pow, Nat.pow_eq, Nat.pow_zero, Nat.mul_one]
    · obtain ⟨k, rfl⟩ := Nat.exists_eq_add_of_le many
      have behind := Decimal.positional_mul_pow (c * 10 ^ k) 0 places
      rw [Nat.mul_assoc, ← Nat.pow_add, Nat.zero_add] at behind
      rw [Nat.add_sub_cancel_left, Nat.sub_eq_zero_of_le many, Nat.add_comm, behind, Nat.pow_eq]
  rw [format, String.toList_ofList, shownAbs, ← written]
  split <;> rfl

/-- **The text of an amount** is a canonical numeral, and it stands for what is shown. -/
theorem exists_numeral (amount : Int) : ∃ n : Decimal.Numeral, n.IsCanonical places ∧
    (format amount).toList = n.text ∧ n.value * 10 ^ 8 = shown amount := by
  obtain ⟨n, unsigned, canonical, text, magnitude⟩ :=
    Decimal.exists_positional (shownAbs amount.natAbs) places
  have scaled : n.magnitude * 10 ^ 8 = shownAbs amount.natAbs := by
    rw [magnitude, places, div_mul_cancel₀ _ (by norm_num)]
  rw [toList_format, shown, ← text]
  split
  · next negative =>
    have some : n.magnitude ≠ 0 := by
      intro zero
      rw [zero, zero_mul] at scaled
      exact shownAbs_ne_zero (n := amount.natAbs) (by omega) (Nat.cast_eq_zero.1 scaled.symm)
    refine ⟨{ n with negative := true }, { canonical with sign := fun _ => some }, ?_, ?_⟩
    · rw [Decimal.Numeral.text, Decimal.Numeral.text, unsigned]
      rfl
    · rw [Int.cast_neg, Int.cast_natCast, ← scaled, ← neg_mul]
      rfl
  · refine ⟨n, canonical, rfl, ?_⟩
    rw [Int.cast_natCast, ← scaled, Decimal.Numeral.value, unsigned]
    rfl

/-- Reading the text of an amount gives what is shown. -/
theorem read_format (amount : Int) :
    Decimal.read (format amount).toList * 10 ^ 8 = shown amount := by
  obtain ⟨n, canonical, text, value⟩ := exists_numeral amount
  rw [text, Decimal.read_text canonical, value]

/-- What is shown has the sign of the amount and the digits that are left of it. -/
theorem shown_neg_iff {amount : Int} :
    (shown amount < 0 ↔ amount < 0) ∧ (shown amount).natAbs = shownAbs amount.natAbs := by
  rw [shown]
  split
  · next negative =>
    have some := shownAbs_ne_zero (n := amount.natAbs) (by omega)
    exact ⟨⟨fun _ => negative, fun _ => by omega⟩, by rw [Int.natAbs_neg, Int.natAbs_natCast]⟩
  · next positive => exact ⟨⟨fun below => by omega, fun below => absurd below positive⟩, rfl⟩

/-- **Amounts are written alike** just if the same is shown in place of both. -/
theorem format_eq_iff {a b : Int} : format a = format b ↔ shown a = shown b := by
  constructor
  · intro same
    have values := read_format a
    rw [same, read_format b] at values
    exact (Int.cast_inj.1 values).symm
  · intro same
    have sign : (a < 0) = (b < 0) := by
      rw [← propext shown_neg_iff.1, same, propext shown_neg_iff.1]
    apply String.toList_inj.1
    simp only [toList_format, ← shown_neg_iff.2, same, sign]

/-- How an amount is written that is not too large for the arithmetic of decimals. -/
structure Writes (amount : Int) : Prop where
  /-- The text is a canonical numeral with at most eight digits behind the point, and it stands for
  what is shown. -/
  numeral : ∃ n : Decimal.Numeral, n.IsCanonical places ∧
    (format amount).toList = n.text ∧ n.value * 10 ^ 8 = shown amount
  /-- Reading the text gives what is shown. -/
  read : Decimal.read (format amount).toList * 10 ^ 8 = shown amount
  /-- What is shown is the nearest multiple of the last place shown. -/
  nearest : Decimal.Nearest (unit amount) amount (shown amount)
  /-- The text says the amount itself just if nothing but zeros is left out. -/
  exact : Decimal.read (format amount).toList * 10 ^ 8 = amount ↔ (unit amount : Int) ∣ amount
  /-- Nothing is left out of an amount with no more digits than are kept. -/
  short : unit amount = 1 ↔ amount.natAbs < 10 ^ precision
  /-- Another amount is written alike just if the same is shown in place of both. -/
  alike : ∀ other, format amount = format other ↔ shown amount = shown other

theorem writes (amount : Int) : Writes amount where
  numeral := exists_numeral amount
  read := read_format amount
  nearest := nearest_shown amount
  exact := by
    rw [read_format, Int.cast_inj]
    exact (nearest_shown amount).eq_iff
  short := unit_eq_one_iff
  alike _ := format_eq_iff

/-- The first amounts that are written alike. -/
example : format (10 ^ 28) = format (10 ^ 28 + 1) := by decide

end Fixed8

/-! ## The gas of a run -/

namespace Machine

variable {σ : Type} {host : Host σ} {m m' : Machine σ}

/-- The run has ended for exceeding its gas limit. -/
def OutOfGas (m : Machine σ) : Prop :=
  ∃ gas limit, m.status = .faulted (.machine (.gasLimit gas limit))

theorem outOfGas_or_le_step (calm : host.Calm) (limited : 0 < host.gasLimit.amount)
    (within : m.gas ≤ host.gasLimit.amount) :
    (m.step host).OutOfGas ∨ (m.step host).gas ≤ host.gasLimit.amount := by
  have gas := (step_spec host m).gas calm
  cases fee : m.fee? host with
  | none =>
    rw [gas, fee, Option.getD_none, Int.add_zero]
    exact .inr within
  | some amount =>
    cases exceeded : host.gasLimit.isExceededBy (m.gas + amount) with
    | true =>
      have overdraws : m.Overdraws host host.gasLimit := ⟨amount, fee, exceeded⟩
      obtain ⟨frame, rest, next, gas, -, -, step⟩ := step_overdrawn overdraws
      exact .inl ⟨gas, host.gasLimit, congrArg status step⟩
    | false =>
      rw [← Bool.not_eq_true, GasLimit.isExceededBy_iff (by omega), Int.not_lt] at exceeded
      rw [gas, fee, Option.getD_some]
      exact .inr exceeded

/-- **Gas is within the limit** unless the run has ended for exceeding it. -/
theorem outOfGas_or_le_runFor (calm : host.Calm) (limited : 0 < host.gasLimit.amount)
    (within : m.gas ≤ host.gasLimit.amount) (n : Nat) :
    (m.runFor host n).OutOfGas ∨ (m.runFor host n).gas ≤ host.gasLimit.amount := by
  refine runFor_invariant host (P := fun m => m.OutOfGas ∨ m.gas ≤ host.gasLimit.amount)
    (fun m h => ?_) (.inr within) n
  rcases h with ⟨gas, limit, failed⟩ | within
  · rw [step_of_not_running (by rw [failed]; rfl)]
    exact .inl ⟨gas, limit, failed⟩
  · exact outOfGas_or_le_step calm limited within

end Machine

/-! ## What a receipt says -/

/-- What the receipt of a run says of its gas. -/
structure Prepared.ShowsGas (p : Prepared) (node : Node) (link : Link) : Prop where
  /-- It shows the text of the gas consumed so far, and this is not negative. -/
  shows : ∀ n, 0 ≤ (p.state node link n).gas ∧
    ((p.state node link n).receipt p.configuration.script).toJson.field? "gas_consumed" =
      some (.ofString (Fixed8.format (p.state node link n).gas))
  /-- Under a limit of no more digits than are kept this is the gas itself, unless the run has ended
  for exceeding the limit. -/
  exact : 0 < p.configuration.gasLimit.amount →
    p.configuration.gasLimit.amount < 10 ^ Fixed8.precision → ∀ n,
    (p.state node link n).OutOfGas ∨
      Decimal.read (Fixed8.format (p.state node link n).gas).toList * 10 ^ 8 =
        (p.state node link n).gas

theorem Prepared.showsGas (p : Prepared) (node : Node) (link : Link) : p.ShowsGas node link := by
  have nonneg (n : Nat) : 0 ≤ (p.state node link n).gas :=
    Machine.gas_mono ((p.setting node).host_metered _) (p.start link) (Nat.zero_le n)
  refine ⟨fun n => ⟨nonneg n, rfl⟩, fun limited small n => ?_⟩
  rw [← (p.setting node).gasLimit_host p.configuration.gasLimit] at limited small
  rcases Machine.outOfGas_or_le_runFor ((p.setting node).host_calm _) limited
    (m := p.start link) (Int.le_of_lt limited) n with out | within
  · exact .inl out
  · have short : (p.state node link n).gas.natAbs < 10 ^ Fixed8.precision := by
      have below := Int.lt_of_le_of_lt within small
      have := nonneg n
      change (p.state node link n).gas < _ at below
      rw [Fixed8.precision] at below ⊢
      omega
    refine .inr ((Fixed8.writes _).exact.2 ?_)
    rw [Fixed8.unit_eq_one_iff.2 short]
    exact one_dvd _

/-- **Receipts show gas** to 28 significant digits, whatever the amount is and whatever the run.
What they say is a canonical numeral, and it is the gas itself except for some amounts that have
more digits. -/
theorem receipts_show_gas (amount : Int) (p : Prepared) (node : Node) (link : Link) :
    Fixed8.Writes amount ∧ p.ShowsGas node link :=
  ⟨Fixed8.writes amount, p.showsGas node link⟩

end DryRun
