import DryRun.Proofs.Number.TwosComplement
import Mathlib.Data.Nat.Size

/-!
# The shortest bytes of an integer

Many byte strings spell one integer in two's complement.  They are all alike: each of them is the
shortest one with bytes behind it that repeat its sign.

* `decode_eq` — what a byte string spells, as the number of its bytes and its sign.
* `eq_encode_append` — every byte string is what its integer is written as, with signs behind it.
  So writing gives the only string that is `Shortest`, and that is a beginning of all others.
* `trimmed_eq` — writing in as many bytes as are surely enough, and then dropping signs from the
  end, comes to the same.  `padded_eq` says that the bytes are enough.
-/

set_option autoImplicit false

namespace DryRun.TwosComplement

/-! ## Signs -/

/-- Does the last byte say that the integer is negative? -/
def isNegative (bytes : Bytes) : Bool := 128 ≤ (bytes.getLastD 0).toNat

/-- The byte that goes on with the sign of a byte string. -/
def signByte (bytes : Bytes) : UInt8 := if isNegative bytes then 255 else 0

theorem isNegative_cons (b : UInt8) {rest : Bytes} (h : rest ≠ []) :
    isNegative (b :: rest) = isNegative rest := by
  cases rest with
  | nil => exact absurd rfl h
  | cons c cs => rfl

theorem signByte_cons (b : UInt8) {rest : Bytes} (h : rest ≠ []) :
    signByte (b :: rest) = signByte rest := by
  rw [signByte, signByte, isNegative_cons b h]

/-- **Two's complement**: a byte string spells the number of its bytes, from which a whole round is
taken if the top bit is set. -/
theorem decode_eq (bytes : Bytes) :
    decode bytes =
      (Bytes.toNatLE bytes : Int) - if isNegative bytes then span bytes.length else 0 := by
  induction bytes with
  | nil => rfl
  | cons b rest ih =>
    cases rest with
    | nil =>
      have negative : isNegative [b] = decide (128 ≤ b.toNat) := rfl
      have number : (Bytes.toNatLE [b] : Int) = b.toNat := by simp [Bytes.toNatLE]
      rw [decode, negative, number, List.length_singleton, span_succ, span_zero]
      by_cases small : b.toNat < 128
      · rw [if_pos small, if_neg (by simpa using small), Int.sub_zero]
      · rw [if_neg small, if_pos (by simpa using Nat.le_of_not_lt small), Int.mul_one]
    | cons c cs =>
      have number : (Bytes.toNatLE (b :: c :: cs) : Int) =
          b.toNat + 256 * (Bytes.toNatLE (c :: cs) : Int) := by
        rw [Bytes.toNatLE, Int.natCast_add, Int.natCast_mul]
        rfl
      rw [decode_cons (List.cons_ne_nil c cs), ih, number,
        isNegative_cons b (List.cons_ne_nil c cs), List.length_cons (a := b), span_succ]
      split <;> omega

/-- One more byte that repeats the sign changes nothing. -/
theorem decode_append_signByte (bytes : Bytes) :
    decode (bytes ++ [signByte bytes]) = decode bytes := by
  induction bytes with
  | nil => rfl
  | cons b rest ih =>
    cases rest with
    | nil =>
      show decode [b, signByte [b]] = decode [b]
      have last : signByte [b] = if 128 ≤ b.toNat then 255 else 0 := by
        simp [signByte, isNegative]
      rw [decode_cons (List.cons_ne_nil _ _), last, decode, decode]
      split
      · have value : (255 : UInt8).toNat = 255 := rfl
        rw [value]
        split <;> omega
      · have value : (0 : UInt8).toNat = 0 := rfl
        rw [value]
        split <;> omega
    | cons c cs =>
      rw [signByte_cons b (List.cons_ne_nil c cs), List.cons_append, decode_cons (by simp), ih,
        decode_cons (List.cons_ne_nil c cs)]

theorem signByte_append_signByte (bytes : Bytes) :
    signByte (bytes ++ [signByte bytes]) = signByte bytes := by
  have last : (bytes ++ [signByte bytes]).getLastD 0 = signByte bytes := List.getLastD_concat
  rw [signByte, isNegative, last, signByte]
  cases isNegative bytes <;> rfl

theorem decode_append_replicate (bytes : Bytes) (k : Nat) :
    decode (bytes ++ List.replicate k (signByte bytes)) = decode bytes := by
  induction k generalizing bytes with
  | zero => rw [List.replicate_zero, List.append_nil]
  | succ k ih =>
    have next := ih (bytes ++ [signByte bytes])
    rw [signByte_append_signByte, decode_append_signByte, List.append_assoc,
      List.singleton_append] at next
    exact next

/-! ## All byte strings of an integer -/

/-- As long as they have the same length, different byte strings spell different integers. -/
theorem eq_of_decode_eq {a b : Bytes} (length : a.length = b.length) (h : decode a = decode b) :
    a = b := by
  induction a generalizing b with
  | nil => exact (List.length_eq_zero_iff.1 length.symm).symm
  | cons x xs ih =>
    cases b with
    | nil => cases length
    | cons y ys =>
      have x_lt : x.toNat < 256 := x.toNat_lt
      have y_lt : y.toNat < 256 := y.toNat_lt
      have length' : xs.length = ys.length := Nat.succ.inj length
      cases xs with
      | nil =>
        obtain rfl := List.length_eq_zero_iff.1 length'.symm
        have same : x.toNat = y.toNat := by
          simp only [decode] at h
          split at h <;> split at h <;> omega
        rw [UInt8.toNat_inj.1 same]
      | cons c cs =>
        have ys_ne : ys ≠ [] := by
          rintro rfl
          cases length'
        rw [decode_cons (List.cons_ne_nil c cs), decode_cons ys_ne] at h
        have same : x.toNat = y.toNat := by omega
        rw [UInt8.toNat_inj.1 same, ih length' (by omega)]

/-- **Every byte string** is what its integer is written as, with signs behind it. -/
theorem eq_encode_append (bytes : Bytes) :
    bytes = encode (decode bytes) ++
      List.replicate (bytes.length - (encode (decode bytes)).length)
        (signByte (encode (decode bytes))) := by
  have short := length_encode_decode_le bytes
  refine eq_of_decode_eq ?_ ?_
  · rw [List.length_append, List.length_replicate]
    omega
  · rw [decode_append_replicate, decode_encode]

theorem encode_decode_begins (bytes : Bytes) : encode (decode bytes) <+: bytes :=
  ⟨_, (eq_encode_append bytes).symm⟩

/-- No shorter byte string spells the same integer. -/
def Shortest (bytes : Bytes) : Prop :=
  ∀ other, decode other = decode bytes → bytes.length ≤ other.length

theorem length_encode_le {v : Int} {bytes : Bytes} (h : decode bytes = v) :
    (encode v).length ≤ bytes.length :=
  h ▸ length_encode_decode_le bytes

/-- **Writing again gives the same bytes** exactly if they are the shortest. -/
theorem encode_decode_eq_iff (bytes : Bytes) : encode (decode bytes) = bytes ↔ Shortest bytes := by
  constructor
  · intro same other h
    rw [← same]
    exact length_encode_le h
  · intro shortest
    exact (encode_decode_begins bytes).eq_of_length_le
      (shortest _ (decode_encode (decode bytes)))

theorem shortest_encode (v : Int) : Shortest (encode v) := by
  rw [← encode_decode_eq_iff, decode_encode]

/-! ## Writing with a fixed number of bytes

The size of an integer can be estimated from its number of bits.  The estimate is one byte too many
at most, and the bytes that are too many repeat the sign. -/

/-- The low bytes of an integer. -/
def padded : (width : Nat) → Int → Bytes
  | 0, _ => []
  | width + 1, v => UInt8.ofNat (v % 256).toNat :: padded width (v / 256)

/-- Does a byte only repeat the sign of the byte below it? -/
def repeatsSign (below byte : UInt8) : Bool :=
  (byte = 0 ∧ below.toNat < 128) ∨ (byte = 255 ∧ 128 ≤ below.toNat)

/-- Drop bytes that repeat the sign of the byte below them.  The last byte comes first here. -/
def dropSigns : Bytes → Bytes
  | byte :: below :: rest =>
    if repeatsSign below byte then dropSigns (below :: rest) else byte :: below :: rest
  | bytes => bytes

/-- How many bytes are enough for an integer: one for each eight bits, and one bit for the sign. -/
def enoughBytes (v : Int) : Nat := (v.natAbs.size + 8) / 8

/-- The bytes of an integer, found by writing it in enough bytes and dropping signs from the end. -/
def trimmed (v : Int) : Bytes :=
  if v = 0 then [] else (dropSigns (padded (enoughBytes v) v).reverse).reverse

theorem length_padded (width : Nat) (v : Int) : (padded width v).length = width := by
  induction width generalizing v with
  | zero => rfl
  | succ width ih => rw [padded, List.length_cons, ih]

theorem decode_padded {width : Nat} {v : Int} (fits : Fits width v) :
    decode (padded width v) = v := by
  induction width generalizing v with
  | zero =>
    rw [Fits, span_zero] at fits
    show 0 = v
    omega
  | succ width ih =>
    have byte := toNat_ofNat_emod v
    cases width with
    | zero =>
      rw [Fits, span_succ, span_zero] at fits
      rw [padded, padded, decode]
      split <;> omega
    | succ width =>
      have some_ : padded (width + 1) (v / 256) ≠ [] := List.cons_ne_nil _ _
      rw [padded, decode_cons some_, ih ((fits_succ_iff width v).1 fits), byte]
      omega

/-- Where an integer fits it is written as the shortest bytes with signs behind them. -/
theorem padded_eq {width : Nat} {v : Int} (fits : Fits width v) :
    padded width v = encode v ++
      List.replicate (width - (encode v).length) (signByte (encode v)) := by
  have all := eq_encode_append (padded width v)
  rwa [decode_padded fits, length_padded] at all

theorem fits_enoughBytes (v : Int) : Fits (enoughBytes v) v := by
  have bits : v.natAbs < 2 ^ v.natAbs.size := Nat.lt_size_self _
  have room : v.natAbs.size + 1 ≤ 8 * enoughBytes v := by
    rw [enoughBytes]
    omega
  have bound : 2 * 2 ^ v.natAbs.size ≤ 256 ^ enoughBytes v := by
    calc 2 * 2 ^ v.natAbs.size = 2 ^ (v.natAbs.size + 1) := (Nat.pow_succ').symm
      _ ≤ 2 ^ (8 * enoughBytes v) := Nat.pow_le_pow_right (by omega) room
      _ = 256 ^ enoughBytes v := Nat.pow_mul 2 8 _
  have power : span (enoughBytes v) = ((256 ^ enoughBytes v : Nat) : Int) := rfl
  rw [Fits, power]
  omega

/-! ### Dropping signs -/

theorem repeatsSign_self (bytes : Bytes) :
    repeatsSign (signByte bytes) (signByte bytes) = true := by
  rw [signByte]
  cases isNegative bytes <;> rfl

/-- What repeats the sign of a byte string is its sign byte. -/
theorem repeatsSign_iff (front : Bytes) (below byte : UInt8) :
    repeatsSign below byte = true ↔ byte = signByte (front ++ [below]) := by
  have last : (front ++ [below]).getLastD 0 = below := List.getLastD_concat
  simp only [signByte, isNegative, last, repeatsSign, decide_eq_true_iff]
  split
  · next negative => simp [negative, Nat.not_lt.2 negative]
  · next positive => simp [positive, Nat.lt_of_not_le positive]

theorem dropSigns_replicate {bytes : Bytes} (some_ : bytes ≠ []) (k : Nat) :
    dropSigns (List.replicate k (signByte bytes) ++ bytes.reverse) = dropSigns bytes.reverse := by
  obtain ⟨front, last, rfl⟩ : ∃ front last, bytes = front ++ [last] :=
    ⟨_, _, (List.dropLast_concat_getLast some_).symm⟩
  rw [List.reverse_append, List.reverse_singleton, List.singleton_append]
  induction k with
  | zero => rfl
  | succ k ih =>
    rw [List.replicate_succ, List.cons_append]
    cases k with
    | zero =>
      exact if_pos ((repeatsSign_iff front last _).2 rfl)
    | succ k =>
      rw [List.replicate_succ, List.cons_append] at ih ⊢
      rw [dropSigns, if_pos (repeatsSign_self _), ih]

/-- The shortest bytes have no sign to drop. -/
theorem dropSigns_of_shortest {bytes : Bytes} (shortest : Shortest bytes) :
    dropSigns bytes.reverse = bytes.reverse := by
  rw [dropSigns.eq_def]
  split
  · next byte below rest reversed =>
    have spelled : bytes = rest.reverse ++ [below] ++ [byte] := by
      rw [← List.reverse_reverse bytes, reversed]
      simp
    rw [reversed]
    refine if_neg fun repeats => ?_
    rw [repeatsSign_iff rest.reverse] at repeats
    have shorter := shortest (rest.reverse ++ [below]) (by
      rw [spelled, repeats, decode_append_signByte])
    rw [spelled, List.length_append] at shorter
    exact Nat.not_succ_le_self _ shorter
  · rfl

/-- **Dropping signs finds the shortest bytes.** -/
theorem trimmed_eq (v : Int) : trimmed v = encode v := by
  by_cases zero : v = 0
  · rw [trimmed, encode, if_pos zero, if_pos zero]
  · have some_ : encode v ≠ [] := by
      rw [encode, if_neg zero]
      exact encodeNonempty_ne_nil v
    rw [trimmed, if_neg zero, padded_eq (fits_enoughBytes v), List.reverse_append,
      List.reverse_replicate, dropSigns_replicate some_, dropSigns_of_shortest (shortest_encode v),
      List.reverse_reverse]

/-- The estimate for 127 is exact, and for 128 as well; that for -128 is one byte too many. -/
example : trimmed 127 = [0x7F] ∧ trimmed 128 = [0x80, 0] ∧ enoughBytes (-128) = 2 ∧
    trimmed (-128) = [0x80] := by
  decide +kernel

end DryRun.TwosComplement
