import DryRun.Digest.Blocks

/-!
# SHA-1

The digest of FIPS 180-4 with five working words and eighty rounds in four stages of twenty.
-/

set_option autoImplicit false

namespace DryRun.Digest.Sha1

/-- The five working words. -/
structure State where
  /-- The first word. -/
  a : UInt32
  /-- The second word. -/
  b : UInt32
  /-- The third word. -/
  c : UInt32
  /-- The fourth word. -/
  d : UInt32
  /-- The fifth word. -/
  e : UInt32

/-- The words a digest starts from. -/
def start : State :=
  ⟨0x67452301, 0xefcdab89, 0x98badcfe, 0x10325476, 0xc3d2e1f0⟩

/-- The mixing function and the constant of a stage. -/
def stage : Nat → (UInt32 → UInt32 → UInt32 → UInt32) × UInt32
  | 0 => (fun b c d => (b &&& c) ||| (~~~ b &&& d), 0x5a827999)
  | 1 => (fun b c d => b ^^^ c ^^^ d, 0x6ed9eba1)
  | 2 => (fun b c d => (b &&& c) ||| (b &&& d) ||| (c &&& d), 0x8f1bbcdc)
  | _ => (fun b c d => b ^^^ c ^^^ d, 0xca62c1d6)

/-- The message words of all rounds, drawn from a window of the sixteen latest ones. -/
def schedule : (count : Nat) → (window : List UInt32) → List UInt32
  | 0, _ => []
  | _, [] => []
  | count + 1, w :: rest =>
    let next := rotateLeft (rest.getD 12 0 ^^^ rest.getD 7 0 ^^^ rest.getD 1 0 ^^^ w) 1
    w :: schedule count (rest ++ [next])

/-- One round of a stage with its message word. -/
def round (number : Nat) (s : State) (word : UInt32) : State :=
  let (mix, constant) := stage number
  ⟨rotateLeft s.a 5 + mix s.b s.c s.d + s.e + constant + word, s.a, rotateLeft s.b 30, s.c, s.d⟩

/-- Mix one block into the state. -/
def compress (s : State) (block : Bytes) : State :=
  let ws := schedule 80 (words Bytes.toNatBE 16 block)
  let run := fun t number => ((ws.drop (20 * number)).take 20).foldl (round number) t
  let t := [0, 1, 2, 3].foldl run s
  ⟨s.a + t.a, s.b + t.b, s.c + t.c, s.d + t.d, s.e + t.e⟩

/-- The state as 20 bytes. -/
def State.toBytes (s : State) : Bytes :=
  bytesBE [s.a, s.b, s.c, s.d, s.e]

end Sha1

/-- The SHA-1 digest of a byte string: 20 bytes. -/
def sha1 (message : Bytes) : Bytes :=
  (digest (Bytes.ofNatBE 8) Sha1.compress Sha1.start message).toBytes

end DryRun.Digest
