import DryRun.Bytes

/-!
# The curve P-256

The points of `y² = x³ - 3x + b` over a prime field.  Sums are computed in projective coordinates,
where a point `(x / z², y / z³)` is kept as three numbers and no inverse is needed until the end.
-/

set_option autoImplicit false

namespace DryRun.P256

/-! ## The field -/

/-- The prime of the field. -/
def fieldPrime : Nat := 
  0xFFFFFFFF00000001000000000000000000000000FFFFFFFFFFFFFFFFFFFFFFFF

/-- The constant term of the curve. -/
def constantTerm : Nat := 0x5ac635d8aa3a93e7b3ebbd55769886bc651d06b0cc53b0f63bce3c3e27d2604b

/-- The order of the group. -/
def order : Nat := 0xffffffff00000000ffffffffffffffffbce6faada7179e84f3b9cac2fc632551

/-- The power of a number modulo another one. -/
def powMod (modulus : Nat) (base exponent : Nat) : Nat :=
  if exponent = 0 then 1 % modulus
  else
    let half := powMod modulus (base * base % modulus) (exponent / 2)
    if exponent % 2 = 1 then half * base % modulus else half
termination_by exponent

/-- The inverse of a number modulo a prime. -/
def inverse (modulus v : Nat) : Nat :=
  powMod modulus v (modulus - 2)

/-- The difference of two field elements. -/
def sub (a b : Nat) : Nat :=
  (a + (fieldPrime - b)) % fieldPrime

/-! ## Points -/

/-- The right-hand side of the curve's equation. -/
def rightSide (x : Nat) : Nat :=
  (sub (x * x % fieldPrime * x) (3 * x % fieldPrime) + constantTerm) % fieldPrime

/-- A point with both coordinates. -/
structure Point where
  /-- The first coordinate. -/
  x : Nat
  /-- The second coordinate. -/
  y : Nat
deriving DecidableEq

/-- Does the point lie on the curve, with coordinates in the field? -/
def Point.isOnCurve (p : Point) : Bool :=
  p.x < fieldPrime && p.y < fieldPrime && p.y * p.y % fieldPrime == rightSide p.x

/-- The point with a given first coordinate and a second one of given parity. -/
def decompress? (odd : Bool) (x : Nat) : Option Point :=
  let root := powMod fieldPrime (rightSide x) ((fieldPrime + 1) / 4)
  let y := if (root % 2 == 1) == odd then root else (fieldPrime - root) % fieldPrime
  let p : Point := ⟨x, y⟩
  if p.isOnCurve && (y % 2 == 1) == odd then some p else none

/-- The point that an encoded key stands for: a mark for the parity and one coordinate, or a mark
and both. -/
def decode? : Bytes → Option Point
  | [] => none
  | mark :: rest =>
    if mark = 0x02 ∨ mark = 0x03 then
      if rest.length = 32 then decompress? (mark == 0x03) (Bytes.toNatBE rest) else none
    else if mark = 0x04 then
      if rest.length = 64 then
        let p : Point := ⟨Bytes.toNatBE (rest.take 32), Bytes.toNatBE (rest.drop 32)⟩
        if p.isOnCurve then some p else none
      else none
    else none

/-- The point that generates the group. -/
def generator : Point :=
  ⟨0x6b17d1f2e12c4247f8bce6e563a440f277037d812deb33a0f4a13945d898c296,
   0x4fe342e2fe1a7f9b8ee7eb4a7c0f9e162bce33576b315ececbb6406837bf51f5⟩

/-! ## Sums -/

/-- A point in projective coordinates; the neutral element has `z = 0`. -/
structure Projective where
  /-- The first coordinate times `z²`. -/
  x : Nat
  /-- The second coordinate times `z³`. -/
  y : Nat
  /-- The common denominator. -/
  z : Nat

/-- The neutral element. -/
def zero : Projective := ⟨1, 1, 0⟩

/-- A point in projective coordinates. -/
def Point.toProjective (p : Point) : Projective := ⟨p.x, p.y, 1⟩

/-- A point added to itself. -/
def Projective.double (p : Projective) : Projective :=
  if p.z = 0 ∨ p.y = 0 then zero
  else
    let zz := p.z * p.z % fieldPrime
    let yy := p.y * p.y % fieldPrime
    let s := 4 * p.x * yy % fieldPrime
    let m := 3 * (sub p.x zz) * ((p.x + zz) % fieldPrime) % fieldPrime
    let x := sub (m * m) (2 * s % fieldPrime)
    let y := sub (m * sub s x) (8 * yy * yy % fieldPrime)
    ⟨x, y, 2 * p.y * p.z % fieldPrime⟩

/-- The sum of two points. -/
def Projective.add (p q : Projective) : Projective :=
  if p.z = 0 then q
  else if q.z = 0 then p
  else
    let zz1 := p.z * p.z % fieldPrime
    let zz2 := q.z * q.z % fieldPrime
    let u1 := p.x * zz2 % fieldPrime
    let u2 := q.x * zz1 % fieldPrime
    let s1 := p.y * zz2 % fieldPrime * q.z % fieldPrime
    let s2 := q.y * zz1 % fieldPrime * p.z % fieldPrime
    if u1 = u2 then (if s1 = s2 then p.double else zero)
    else
      let h := sub u2 u1
      let r := sub s2 s1
      let hh := h * h % fieldPrime
      let hhh := h * hh % fieldPrime
      let v := u1 * hh % fieldPrime
      let x := sub (sub (r * r) hhh) (2 * v % fieldPrime)
      let y := sub (r * sub v x) (s1 * hhh % fieldPrime)
      ⟨x, y, h * p.z % fieldPrime * q.z % fieldPrime⟩

/-- A point taken `n` times. -/
def Projective.times (p : Projective) (n : Nat) : Projective :=
  if n = 0 then zero
  else
    let half := (p.times (n / 2)).double
    if n % 2 = 1 then half.add p else half
termination_by n

/-- The first coordinate of a point other than the neutral element. -/
def Projective.x? (p : Projective) : Option Nat :=
  if p.z = 0 then none
  else
    let inv := inverse fieldPrime p.z
    some (p.x * (inv * inv % fieldPrime) % fieldPrime)

end DryRun.P256
