import DryRun.Number.TwosComplement

/-!
# How many bytes an integer takes

The bytes of an integer in two's complement are the fewest that leave its sign readable.  This file
says so with the range of a number of bytes: `Fits n v` holds if `v` lies between `-256 ^ n / 2` and
`256 ^ n / 2`, the upper end not included.

* `fits_decode` — what is read from `n` bytes fits into `n` bytes;
* `length_encode_le_iff` — an integer is written in at most `n` bytes exactly if it fits;
* `length_encode_decode_le` — reading and writing again never makes the bytes more.
-/

set_option autoImplicit false

namespace DryRun.TwosComplement

/-- How many values `n` bytes have. -/
def span (n : Nat) : Int := (Nat.pow 256 n : Nat)

theorem span_zero : span 0 = 1 := rfl

theorem span_succ (n : Nat) : span (n + 1) = 256 * span n := by
  have power : Nat.pow 256 (n + 1) = 256 * Nat.pow 256 n := Nat.pow_succ'
  rw [span, span, power]
  omega

theorem span_pos (n : Nat) : 0 < span n := by
  induction n with
  | zero => rw [span_zero]; omega
  | succ n ih => rw [span_succ]; omega

/-- An integer lies in the range of `n` bytes. -/
def Fits (n : Nat) (v : Int) : Prop := -span n ≤ 2 * v ∧ 2 * v < span n

theorem fits_zero (n : Nat) : Fits n 0 := by
  have := span_pos n
  exact ⟨by omega, by omega⟩

/-- One byte more on the low side. -/
theorem fits_succ_iff (n : Nat) (v : Int) : Fits (n + 2) v ↔ Fits (n + 1) (v / 256) := by
  simp only [Fits, span_succ]
  omega

/-- What is read from some bytes fits into as many. -/
theorem fits_decode (bytes : Bytes) : Fits bytes.length (decode bytes) := by
  induction bytes with
  | nil => exact fits_zero 0
  | cons b rest ih =>
    have byte : b.toNat < 256 := b.toNat_lt
    cases rest with
    | nil =>
      show Fits 1 (decode [b])
      rw [Fits, span_succ, span_zero, decode]
      split <;> omega
    | cons c cs =>
      rw [decode_cons (List.cons_ne_nil c cs), List.length_cons]
      rw [List.length_cons] at ih ⊢
      rw [fits_succ_iff]
      have low : ((b.toNat : Int) + 256 * decode (c :: cs)) / 256 = decode (c :: cs) := by omega
      rwa [low]

theorem length_encodeNonempty_le_iff (v : Int) (n : Nat) :
    (encodeNonempty v).length ≤ n + 1 ↔ Fits (n + 1) v := by
  fun_induction encodeNonempty v generalizing n with
  | case1 v b rest h =>
    have positive := span_pos n
    have low : (b : Int) = v % 256 := by omega
    have high : rest = v / 256 := rfl
    simp only [endsWith] at h
    simp only [List.length_singleton, Fits, span_succ]
    omega
  | case2 v b rest h ih =>
    rw [List.length_cons, Nat.add_le_add_iff_right]
    cases n with
    | zero =>
      -- A single byte would have been the first case.
      have low : (b : Int) = v % 256 := by omega
      have high : rest = v / 256 := rfl
      have nonempty := List.length_pos_iff.2 (encodeNonempty_ne_nil rest)
      simp only [endsWith] at h
      simp only [Fits, span_succ, span_zero]
      omega
    | succ n => rw [ih, fits_succ_iff]

/-- **The bytes of an integer are as few as its range allows.** -/
theorem length_encode_le_iff (v : Int) (n : Nat) : (encode v).length ≤ n ↔ Fits n v := by
  by_cases zero : v = 0
  · subst zero
    have empty : (encode 0).length = 0 := by rw [encode, if_pos rfl, List.length_nil]
    exact iff_of_true (by omega) (fits_zero n)
  · rw [encode, if_neg zero]
    cases n with
    | zero =>
      have nonempty := List.length_pos_iff.2 (encodeNonempty_ne_nil v)
      simp only [Fits, span_zero]
      omega
    | succ n => exact length_encodeNonempty_le_iff v n

/-- Bytes that are not the shortest ones become fewer when the integer is written again. -/
theorem length_encode_decode_le (bytes : Bytes) :
    (encode (decode bytes)).length ≤ bytes.length :=
  (length_encode_le_iff _ _).2 (fits_decode bytes)

end DryRun.TwosComplement
