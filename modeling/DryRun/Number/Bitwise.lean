/-!
# Bitwise operations on integers

An integer is an infinite string of bits, eventually all zero or all one.  The three binary
operations act bit by bit; a negative operand is replaced by its complement, which is a natural
number, so that the work is done by the operations on natural numbers.
-/

set_option autoImplicit false

namespace DryRun.Bitwise

/-- The bits of `m` that are not in `n`. -/
def without (m n : Nat) : Nat :=
  m ^^^ (m &&& n)

/-- The bits that both integers have. -/
def and : Int → Int → Int
  | .ofNat m, .ofNat n => .ofNat (m &&& n)
  | .ofNat m, .negSucc n => .ofNat (without m n)
  | .negSucc m, .ofNat n => .ofNat (without n m)
  | .negSucc m, .negSucc n => .negSucc (m ||| n)

/-- The bits that at least one integer has. -/
def or : Int → Int → Int
  | .ofNat m, .ofNat n => .ofNat (m ||| n)
  | .ofNat m, .negSucc n => .negSucc (without n m)
  | .negSucc m, .ofNat n => .negSucc (without m n)
  | .negSucc m, .negSucc n => .negSucc (m &&& n)

/-- The bits that exactly one integer has. -/
def xor : Int → Int → Int
  | .ofNat m, .ofNat n => .ofNat (m ^^^ n)
  | .ofNat m, .negSucc n => .negSucc (m ^^^ n)
  | .negSucc m, .ofNat n => .negSucc (m ^^^ n)
  | .negSucc m, .negSucc n => .ofNat (m ^^^ n)

/-- Does the integer have the bit of this weight? -/
def testBit (v : Int) (i : Nat) : Bool :=
  v / Nat.pow 2 i % 2 = 1

end DryRun.Bitwise
