import DryRun.Bytes

/-!
# Minimal two's complement

An integer is written with its least significant byte first, in as few bytes as leave the sign
readable in the top bit of the last one; zero needs no byte at all.  `decode_encode` says that
writing loses nothing.
-/

set_option autoImplicit false

namespace DryRun.TwosComplement

/-- Is `rest` what sign extension of the byte `b` alone would leave above it? -/
def endsWith (b : Nat) (rest : Int) : Prop :=
  (rest = 0 ∧ b < 128) ∨ (rest = -1 ∧ 128 ≤ b)

instance (b : Nat) (rest : Int) : Decidable (endsWith b rest) :=
  inferInstanceAs (Decidable (_ ∨ _))

/-- The bytes of an integer, at least one of them. -/
def encodeNonempty (v : Int) : Bytes :=
  let b := (v % 256).toNat
  let rest := v / 256
  if endsWith b rest then [UInt8.ofNat b] else UInt8.ofNat b :: encodeNonempty rest
termination_by v.natAbs
decreasing_by
  simp only [endsWith] at *
  omega

/-- The shortest bytes of an integer. -/
def encode (v : Int) : Bytes :=
  if v = 0 then [] else encodeNonempty v

/-- The integer that a byte string spells; the top bit of the last byte is its sign. -/
def decode : Bytes → Int
  | [] => 0
  | [b] => if b.toNat < 128 then b.toNat else (b.toNat : Int) - 256
  | b :: rest => b.toNat + 256 * decode rest

/-- The bytes of an integer are never empty when one is asked for. -/
theorem encodeNonempty_ne_nil (v : Int) : encodeNonempty v ≠ [] := by
  rw [encodeNonempty]
  split <;> simp

theorem decode_cons {b : UInt8} {rest : Bytes} (h : rest ≠ []) :
    decode (b :: rest) = b.toNat + 256 * decode rest := by
  cases rest with
  | nil => exact absurd rfl h
  | cons c cs => rfl

theorem toNat_ofNat_emod (v : Int) :
    ((UInt8.ofNat (v % 256).toNat).toNat : Int) = v % 256 := by
  have : (UInt8.ofNat (v % 256).toNat).toNat = (v % 256).toNat % 256 := rfl
  omega

theorem decode_encodeNonempty (v : Int) : decode (encodeNonempty v) = v := by
  fun_induction encodeNonempty v with
  | case1 v b rest h =>
    have byte : ((UInt8.ofNat b).toNat : Int) = v % 256 := toNat_ofNat_emod v
    have above : rest = v / 256 := rfl
    simp only [endsWith] at h
    simp only [decode]
    split <;> omega
  | case2 v b rest h ih =>
    have byte : ((UInt8.ofNat b).toNat : Int) = v % 256 := toNat_ofNat_emod v
    have above : rest = v / 256 := rfl
    rw [decode_cons (encodeNonempty_ne_nil _), ih]
    omega

/-- Writing an integer loses nothing. -/
theorem decode_encode (v : Int) : decode (encode v) = v := by
  by_cases h : v = 0
  · simp [encode, decode, h]
  · simp [encode, h, decode_encodeNonempty]

end DryRun.TwosComplement
