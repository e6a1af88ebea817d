import DryRun.Number.Decimal
import Mathlib.Algebra.Order.Field.Rat
import Mathlib.Algebra.Order.Ring.Abs
import Mathlib.Data.List.TakeWhile
import Mathlib.Tactic.FieldSimp
import Mathlib.Tactic.LinearCombination
import Mathlib.Tactic.Ring

/-!
# Decimal numerals and their values

`Decimal.positional` writes a number.  What it is to write a number well is said here apart from it:
`Decimal.read` gives the value of any text with digits and a point, and `Decimal.Numeral` holds the
parts of a text, for which `Numeral.IsCanonical` says that none of them is superfluous.

* `exists_positional` — the text is a canonical numeral, and it has the value it should have.
* `positional_mul_pow` — a power of ten more in the coefficient and in the places does not show.
* `Nearest` says which multiple of a unit a number is rounded to, and `nearest_roundTo` that
  rounding to some significant digits goes to the multiple of the last digit kept.
-/

set_option autoImplicit false

namespace DryRun.Decimal

/-! ## Numerals -/

/-- The parts of a numeral. -/
structure Numeral where
  /-- Is there a minus sign? -/
  negative : Bool
  /-- The digits before the point. -/
  whole : List Char
  /-- The digits after the point. -/
  fraction : List Char

namespace Numeral

/-- The text of a numeral; nothing stands for a fraction without digits. -/
def text (n : Numeral) : List Char :=
  (if n.negative then ['-'] else []) ++ n.whole ++
    match n.fraction with
    | [] => []
    | fraction => '.' :: fraction

/-- The value of a numeral without its sign. -/
def magnitude (n : Numeral) : ℚ :=
  Nat.ofDigitChars 10 n.whole 0 + Nat.ofDigitChars 10 n.fraction 0 / 10 ^ n.fraction.length

/-- The value of a numeral. -/
def value (n : Numeral) : ℚ := if n.negative then -n.magnitude else n.magnitude

/-- There is nothing superfluous in a numeral. -/
structure IsCanonical (places : Nat) (n : Numeral) : Prop where
  /-- There are digits before the point. -/
  whole_ne_nil : n.whole ≠ []
  /-- They are decimal digits. -/
  whole_isDigit : ∀ c ∈ n.whole, c.isDigit
  /-- They do not begin with a zero, unless this is all. -/
  whole_head : n.whole.head? = some '0' → n.whole = ['0']
  /-- There are not too many digits after the point. -/
  fraction_length : n.fraction.length ≤ places
  /-- They are decimal digits. -/
  fraction_isDigit : ∀ c ∈ n.fraction, c.isDigit
  /-- They do not end with a zero. -/
  fraction_getLast : n.fraction.getLast? ≠ some '0'
  /-- There is no negative zero. -/
  sign : n.negative = true → n.magnitude ≠ 0

end Numeral

/-! ## Reading -/

/-- The value of a text without a sign. -/
def readUnsigned (text : List Char) : ℚ :=
  let whole := text.takeWhile (· ≠ '.')
  let fraction := (text.dropWhile (· ≠ '.')).tail
  Nat.ofDigitChars 10 whole 0 + Nat.ofDigitChars 10 fraction 0 / 10 ^ fraction.length

/-- The value of a text. -/
def read : List Char → ℚ
  | '-' :: rest => -readUnsigned rest
  | text => readUnsigned text

theorem ne_point_of_isDigit {c : Char} (h : c.isDigit) : c ≠ '.' := by
  rintro rfl
  revert h
  decide

theorem ne_minus_of_isDigit {c : Char} (h : c.isDigit) : c ≠ '-' := by
  rintro rfl
  revert h
  decide

/-- A point ends the digits before it. -/
theorem span_point {whole : List Char} (more : List Char) (digits : ∀ c ∈ whole, c.isDigit) :
    (whole ++ '.' :: more).takeWhile (· ≠ '.') = whole ∧
      (whole ++ '.' :: more).dropWhile (· ≠ '.') = '.' :: more := by
  have plain : ∀ c ∈ whole, decide (c ≠ '.') = true := fun c mem =>
    decide_eq_true (ne_point_of_isDigit (digits c mem))
  rw [List.takeWhile_append_of_pos plain, List.dropWhile_append_of_pos plain]
  simp

theorem read_cons {c : Char} {rest : List Char} (plain : c ≠ '-') :
    read (c :: rest) = readUnsigned (c :: rest) := by
  rw [read]
  rintro more same
  exact plain (List.cons.inj same).1

/-- A canonical numeral is read as what it stands for. -/
theorem read_text {places : Nat} {n : Numeral} (h : n.IsCanonical places) :
    read n.text = n.value := by
  obtain ⟨negative, whole, fraction⟩ := n
  have unsigned : readUnsigned (Numeral.text ⟨false, whole, fraction⟩) =
      Numeral.magnitude ⟨false, whole, fraction⟩ := by
    cases fraction with
    | nil =>
      have all : ∀ c ∈ whole, decide (c ≠ '.') = true := fun c mem =>
        decide_eq_true (ne_point_of_isDigit (h.whole_isDigit c mem))
      have spans : whole.takeWhile (· ≠ '.') = whole ∧ whole.dropWhile (· ≠ '.') = [] :=
        ⟨List.takeWhile_eq_self_iff.2 all, List.dropWhile_eq_nil_iff.2 all⟩
      simp only [Numeral.text, readUnsigned, Numeral.magnitude, Bool.false_eq_true, if_false,
        List.nil_append, List.append_nil, spans.1, spans.2, List.tail_nil]
    | cons first more =>
      have spans := span_point (first :: more) h.whole_isDigit
      simp only [Numeral.text, readUnsigned, Numeral.magnitude, Bool.false_eq_true, if_false,
        List.nil_append, spans.1, spans.2, List.tail_cons]
  cases negative with
  | true =>
    show -readUnsigned _ = _
    rw [Numeral.value, if_pos rfl]
    exact congrArg _ unsigned
  | false =>
    cases whole with
    | nil => exact absurd rfl h.whole_ne_nil
    | cons c rest =>
      rw [Numeral.value, if_neg Bool.false_ne_true, ← unsigned]
      exact read_cons (ne_minus_of_isDigit (h.whole_isDigit c List.mem_cons_self))

/-! ## Writing -/

theorem isDigit_of_mem_digits {n : Nat} : ∀ c ∈ digits n, c.isDigit := fun _ mem =>
  Nat.isDigit_of_mem_toDigits (by decide) (by decide) mem

theorem ofDigitChars_digits (n : Nat) : Nat.ofDigitChars 10 (digits n) 0 = n :=
  Nat.ofDigitChars_toDigits (by decide) (by decide)

/-- Only zero begins with a zero. -/
theorem head?_digits {n : Nat} (h : (digits n).head? = some '0') : n = 0 := by
  induction n using Nat.strongRecOn with
  | ind n ih =>
    rw [digits, Nat.toDigits_eq_if (by decide)] at h
    split at h
    · rw [List.head?_cons, Option.some.injEq] at h
      exact Nat.digitChar_eq_zero.1 h
    · next large =>
      rw [List.head?_append_of_ne_nil _ Nat.toDigits_ne_nil] at h
      have := ih (n / 10) (by omega) h
      omega

/-- The digits that are dropped are zeros. -/
theorem exists_dropTrailingZeros (ds : List Char) :
    ∃ k, ds = dropTrailingZeros ds ++ List.replicate k '0' := by
  obtain ⟨k, zeros⟩ : ∃ k, ds.reverse.takeWhile (· == '0') = List.replicate k '0' := by
    refine ⟨_, List.eq_replicate_iff.2 ⟨rfl, fun c mem => ?_⟩⟩
    exact beq_iff_eq.1 (List.mem_takeWhile_imp (p := (· == '0')) mem)
  refine ⟨k, ?_⟩
  calc
    ds = (ds.reverse.takeWhile (· == '0') ++ ds.reverse.dropWhile (· == '0')).reverse := by
      rw [List.takeWhile_append_dropWhile, List.reverse_reverse]
    _ = dropTrailingZeros ds ++ List.replicate k '0' := by
      rw [List.reverse_append, zeros, List.reverse_replicate, dropTrailingZeros]

theorem getLast?_dropTrailingZeros (ds : List Char) :
    (dropTrailingZeros ds).getLast? ≠ some '0' := by
  rw [dropTrailingZeros, List.getLast?_reverse]
  have first := List.head?_dropWhile_not (· == '0') ds.reverse
  intro same
  rw [same] at first
  exact absurd first (by decide)

/-- A power of ten adds zeros. -/
theorem digits_mul_pow {n : Nat} (some : n ≠ 0) (k : Nat) :
    digits (n * 10 ^ k) = digits n ++ List.replicate k '0' := by
  induction k with
  | zero => rw [Nat.pow_zero, Nat.mul_one, List.replicate_zero, List.append_nil]
  | succ k ih =>
    have large : 10 ≤ n * 10 ^ (k + 1) := by
      have : 0 < n * 10 ^ k := Nat.mul_pos (Nat.pos_of_ne_zero some) (Nat.pow_pos (by decide))
      rw [Nat.pow_succ, ← Nat.mul_assoc]
      omega
    rw [digits, Nat.toDigits_eq_if (by decide), if_neg (by omega), Nat.pow_succ, ← Nat.mul_assoc,
      Nat.mul_div_cancel _ (by decide), Nat.mul_mod_left]
    show digits (n * 10 ^ k) ++ ['0'] = _
    rw [ih, List.append_assoc, List.replicate_succ']

theorem dropTrailingZeros_append (ds : List Char) (k : Nat) :
    dropTrailingZeros (ds ++ List.replicate k '0') = dropTrailingZeros ds := by
  rw [dropTrailingZeros, List.reverse_append, List.reverse_replicate,
    List.dropWhile_append_of_pos (fun c mem => by rw [List.eq_of_mem_replicate mem]; rfl),
    dropTrailingZeros]

/-- Zeros at the end of a fraction do not count. -/
theorem value_dropTrailingZeros (ds : List Char) :
    (Nat.ofDigitChars 10 (dropTrailingZeros ds) 0 : ℚ) / 10 ^ (dropTrailingZeros ds).length =
      Nat.ofDigitChars 10 ds 0 / 10 ^ ds.length := by
  obtain ⟨k, same⟩ := exists_dropTrailingZeros ds
  have value : Nat.ofDigitChars 10 ds 0 =
      10 ^ k * Nat.ofDigitChars 10 (dropTrailingZeros ds) 0 := by
    conv_lhs => rw [same]
    rw [Nat.ofDigitChars_append, Nat.ofDigitChars_replicate_zero]
  have length : ds.length = (dropTrailingZeros ds).length + k := by
    conv_lhs => rw [same]
    rw [List.length_append, List.length_replicate]
  rw [value, length, pow_add]
  push_cast
  field_simp

theorem ofDigitChars_padLeft (width : Nat) (ds : List Char) :
    Nat.ofDigitChars 10 (padLeft width ds) 0 = Nat.ofDigitChars 10 ds 0 := by
  rw [padLeft, Nat.ofDigitChars_append, Nat.ofDigitChars_replicate_zero, Nat.mul_zero]

theorem length_padLeft {width : Nat} {ds : List Char} (h : ds.length ≤ width) :
    (padLeft width ds).length = width := by
  rw [padLeft, List.length_append, List.length_replicate]
  omega

theorem isDigit_of_mem_dropTrailingZeros {ds : List Char} (h : ∀ c ∈ ds, c.isDigit) :
    ∀ c ∈ dropTrailingZeros ds, c.isDigit := fun c mem => by
  rw [dropTrailingZeros, List.mem_reverse] at mem
  exact h c (List.mem_reverse.1 ((List.dropWhile_suffix _).mem mem))

theorem isDigit_of_mem_padLeft {width : Nat} {ds : List Char} (h : ∀ c ∈ ds, c.isDigit) :
    ∀ c ∈ padLeft width ds, c.isDigit := fun c mem => by
  rcases List.mem_append.1 mem with mem | mem
  · rw [List.eq_of_mem_replicate mem]
    rfl
  · exact h c mem

/-- The digits that are written behind the point. -/
def fraction (r places : Nat) : List Char := dropTrailingZeros (padLeft places (digits r))

theorem isDigit_of_mem_fraction (r places : Nat) : ∀ c ∈ fraction r places, c.isDigit :=
  isDigit_of_mem_dropTrailingZeros (isDigit_of_mem_padLeft isDigit_of_mem_digits)

/-- The digits behind the point are no more than there is place for, and they stand for what is to
be written. -/
theorem fraction_eq {r places : Nat} (h : r < 10 ^ places) :
    (fraction r places).length ≤ places ∧
      (Nat.ofDigitChars 10 (fraction r places) 0 : ℚ) / 10 ^ (fraction r places).length =
        r / 10 ^ places := by
  rcases Nat.eq_zero_or_pos places with rfl | some
  · -- without places nothing is left to be written, not even the digit of zero
    rw [Nat.pow_zero, Nat.lt_one_iff] at h
    subst h
    have none : fraction 0 0 = [] := by decide
    rw [none]
    simp
  · have length := length_padLeft ((Nat.length_toDigits_le_iff (by decide) some).2 h)
    have value := value_dropTrailingZeros (padLeft places (digits r))
    rw [ofDigitChars_padLeft, ofDigitChars_digits, digits, length] at value
    obtain ⟨k, same⟩ := exists_dropTrailingZeros (padLeft places (digits r))
    have shorter := congrArg List.length same
    rw [digits, length, List.length_append] at shorter
    exact ⟨by rw [fraction, digits]; omega, value⟩

/-- A power of ten does not change the digits behind the point if there is as much more place. -/
theorem fraction_mul_pow (r places k : Nat) :
    fraction (r * 10 ^ k) (places + k) = fraction r places := by
  rcases Nat.eq_zero_or_pos r with rfl | some
  · have none (width : Nat) : fraction 0 width = [] := by
      have zeros : padLeft width (digits 0) = [] ++ List.replicate (width - 1 + 1) '0' := by
        rw [List.nil_append, List.replicate_succ']
        rfl
      rw [fraction, zeros, dropTrailingZeros_append]
      rfl
    rw [Nat.zero_mul, none, none]
  · rw [fraction, digits_mul_pow (Nat.ne_of_gt some), padLeft, List.length_append,
      List.length_replicate, Nat.add_sub_add_right, ← List.append_assoc, dropTrailingZeros_append]
    rfl

/-- The same number is written alike. -/
theorem positional_mul_pow (coefficient places k : Nat) :
    positional (coefficient * 10 ^ k) (places + k) = positional coefficient places := by
  have whole : coefficient * 10 ^ k / Nat.pow 10 (places + k) =
      coefficient / Nat.pow 10 places := by
    rw [Nat.pow_eq, Nat.pow_eq, Nat.pow_add, Nat.mul_div_mul_right _ _ (Nat.pow_pos (by decide))]
  have rest : coefficient * 10 ^ k % Nat.pow 10 (places + k) =
      coefficient % Nat.pow 10 places * 10 ^ k := by
    rw [Nat.pow_eq, Nat.pow_eq, Nat.pow_add, Nat.mul_mod_mul_right]
  have behind := fraction_mul_pow (coefficient % Nat.pow 10 places) places k
  rw [fraction, fraction] at behind
  rw [positional, positional, whole, rest, behind]
/-- **What is written** is a canonical numeral, and it has the value that is to be written. -/
theorem exists_positional (coefficient places : Nat) : ∃ n : Numeral, n.negative = false ∧
    n.IsCanonical places ∧ n.text = positional coefficient places ∧
      n.magnitude = coefficient / 10 ^ places := by
  have room : 0 < 10 ^ places := Nat.pow_pos (by decide)
  obtain ⟨length, value⟩ := fraction_eq (Nat.mod_lt coefficient room)
  refine ⟨⟨false, digits (coefficient / 10 ^ places), fraction (coefficient % 10 ^ places) places⟩,
    rfl, ⟨Nat.toDigits_ne_nil, isDigit_of_mem_digits, fun zero => ?_, length,
      isDigit_of_mem_fraction _ _, getLast?_dropTrailingZeros _, nofun⟩, ?_, ?_⟩
  · rw [head?_digits zero]
    rfl
  · rw [positional]
    show [] ++ digits _ ++ (match fraction _ _ with | [] => [] | fraction => '.' :: fraction) =
      match fraction _ _ with | [] => digits _ | fraction => digits _ ++ '.' :: fraction
    cases fraction (coefficient % 10 ^ places) places with
    | nil => rw [List.nil_append, List.append_nil]; rfl
    | cons c rest => rfl
  · rw [Numeral.magnitude, value, ofDigitChars_digits]
    have parts : (coefficient : ℚ) = (10 ^ places : Nat) * (coefficient / 10 ^ places : Nat) +
        (coefficient % 10 ^ places : Nat) := by
      exact_mod_cast (Nat.div_add_mod coefficient (10 ^ places)).symm
    conv_rhs => rw [parts]
    push_cast
    field_simp

/-! ## Rounding -/

/-- A number is rounded to the nearest multiple of a unit; of two that are equally near it is the
even one. -/
structure Nearest (unit : Nat) (v rounded : Int) : Prop where
  /-- It is a multiple of the unit. -/
  multiple : (unit : Int) ∣ rounded
  /-- No other one is nearer. -/
  nearest : ∀ other : Int, (unit : Int) ∣ other → |rounded - v| ≤ |other - v|
  /-- If another one is as near, this is the even one. -/
  even : ∀ other : Int, (unit : Int) ∣ other → |other - v| = |rounded - v| →
    other = rounded ∨ 2 * (unit : Int) ∣ rounded

/-- Different multiples of a unit are at least a unit apart. -/
theorem le_abs_sub_mul {unit : Nat} {q k : Int} (different : k ≠ q) :
    (unit : Int) ≤ |k * unit - q * unit| := by
  rw [← sub_mul, abs_mul, Nat.abs_cast]
  exact le_mul_of_one_le_left (Int.natCast_nonneg _) (Int.one_le_abs (sub_ne_zero.2 different))

/-- A multiple that is not farther away than half a unit is nearest. -/
theorem Nearest.of_half {unit : Nat} {v q : Int} (half : 2 * |q * unit - v| ≤ unit)
    (even : 2 * |q * unit - v| = unit → 2 ∣ q) : Nearest unit v (q * unit) := by
  have far {k : Int} (different : k ≠ q) : (unit : Int) ≤ |k * unit - v| + |q * unit - v| := by
    have between := abs_sub_le (k * unit) v (q * unit)
    rw [abs_sub_comm v] at between
    exact le_trans (le_abs_sub_mul different) between
  refine ⟨Dvd.intro_left q rfl, fun other multiple => ?_, fun other multiple same => ?_⟩
  · obtain ⟨k, rfl⟩ := exists_eq_mul_left_of_dvd multiple
    by_cases equal : k = q
    · rw [equal]
    · have := far equal
      omega
  · obtain ⟨k, rfl⟩ := exists_eq_mul_left_of_dvd multiple
    by_cases equal : k = q
    · exact .inl (by rw [equal])
    · have := far equal
      exact .inr (mul_dvd_mul_right (even (by omega)) _)

/-- Rounding does not look at the sign. -/
theorem Nearest.neg {unit : Nat} {v rounded : Int} (h : Nearest unit v rounded) :
    Nearest unit (-v) (-rounded) := by
  have turn (a : Int) : |a - -v| = |-a - v| := by
    rw [← abs_neg, neg_sub, sub_eq_add_neg, add_comm, ← sub_eq_add_neg]
  refine ⟨dvd_neg.2 h.multiple, fun other multiple => ?_, fun other multiple same => ?_⟩
  · rw [turn, turn, neg_neg]
    exact h.nearest _ (dvd_neg.2 multiple)
  · rw [turn, turn, neg_neg] at same
    rcases h.even _ (dvd_neg.2 multiple) same with equal | even
    · exact .inl (by rw [← equal, neg_neg])
    · exact .inr (dvd_neg.2 even)

/-- What is a multiple of the unit stays as it is. -/
theorem Nearest.eq_iff {unit : Nat} {v rounded : Int} (h : Nearest unit v rounded) :
    rounded = v ↔ (unit : Int) ∣ v := by
  constructor
  · rintro rfl
    exact h.multiple
  · intro multiple
    have zero := h.nearest v multiple
    rw [sub_self, abs_zero] at zero
    exact sub_eq_zero.1 (abs_eq_zero.1 (le_antisymm zero (abs_nonneg _)))

/-- The quotient is not farther than a half from the exact one, and if it is so far it is even. -/
theorem half_divideHalfEven (n : Nat) {d : Nat} (some : 0 < d) :
    2 * |(divideHalfEven n d : Int) * d - n| ≤ d ∧
      (2 * |(divideHalfEven n d : Int) * d - n| = d → (2 : Int) ∣ divideHalfEven n d) := by
  have parts : (n : Int) = (n / d : Nat) * d + (n % d : Nat) := by
    exact_mod_cast (Nat.div_add_mod' n d).symm
  have rest := Nat.mod_lt n some
  rw [divideHalfEven]
  split
  · have distance : ((n / d + 1 : Nat) : Int) * d - n = (d - n % d : Nat) := by
      rw [Nat.cast_sub (Nat.le_of_lt rest), Nat.cast_add, Nat.cast_one]
      linear_combination -parts
    rw [distance, Nat.abs_cast]
    omega
  · have distance : ((n / d : Nat) : Int) * d - n = -(n % d : Nat) := by
      linear_combination -parts
    rw [distance, abs_neg, Nat.abs_cast]
    omega

/-- **Rounding to some significant digits** goes to a multiple of the last digit that is kept. -/
theorem nearest_roundTo (significant n : Nat) :
    (roundTo significant n).2 = length n - significant ∧
      Nearest (10 ^ (roundTo significant n).2) n
        ((roundTo significant n).1 * 10 ^ (roundTo significant n).2 : Nat) := by
  obtain ⟨half, even⟩ := half_divideHalfEven n (Nat.pow_pos (n := length n - significant)
    (show 0 < 10 by decide))
  refine ⟨rfl, ?_⟩
  have nearest := Nearest.of_half half even
  rwa [← Nat.cast_mul] at nearest

end DryRun.Decimal
