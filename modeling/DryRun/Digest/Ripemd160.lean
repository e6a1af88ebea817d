import DryRun.Digest.Blocks

/-!
# RIPEMD-160

Two independent lines of five stages with sixteen steps each, run over the same block and added
together at the end.
-/

set_option autoImplicit false

namespace DryRun.Digest.Ripemd160

/-- The five working words. -/
structure State where
  /-- The first word. -/
  a : UInt32
  /-- The second word. -/
  b : UInt32
  /-- The third word. -/
  c : UInt32
  /-- The fourth word. -/
  d : UInt32
  /-- The fifth word. -/
  e : UInt32

/-- The words a digest starts from. -/
def start : State :=
  ⟨0x67452301, 0xefcdab89, 0x98badcfe, 0x10325476, 0xc3d2e1f0⟩

/-- The five mixing functions. -/
def mix : Nat → UInt32 → UInt32 → UInt32 → UInt32
  | 0, x, y, z => x ^^^ y ^^^ z
  | 1, x, y, z => (x &&& y) ||| (~~~ x &&& z)
  | 2, x, y, z => (x ||| ~~~ y) ^^^ z
  | 3, x, y, z => (x &&& z) ||| (y &&& ~~~ z)
  | _, x, y, z => x ^^^ (y ||| ~~~ z)

/-- A stage: its mixing function, its constant, and for each step the message word it takes and
the bits it rotates by. -/
structure Stage where
  /-- Which mixing function. -/
  mixing : Nat
  /-- The constant added in each step. -/
  constant : UInt32
  /-- Which message word each step takes. -/
  order : List Nat
  /-- How far each step rotates. -/
  shifts : List UInt32

/-- The stages of the left line. -/
def left : List Stage :=
  [⟨0, 0x00000000, [0, 1, 2, 3, 4, 5, 6, 7, 8, 9, 10, 11, 12, 13, 14, 15],
    [11, 14, 15, 12, 5, 8, 7, 9, 11, 13, 14, 15, 6, 7, 9, 8]⟩,
   ⟨1, 0x5a827999, [7, 4, 13, 1, 10, 6, 15, 3, 12, 0, 9, 5, 2, 14, 11, 8],
    [7, 6, 8, 13, 11, 9, 7, 15, 7, 12, 15, 9, 11, 7, 13, 12]⟩,
   ⟨2, 0x6ed9eba1, [3, 10, 14, 4, 9, 15, 8, 1, 2, 7, 0, 6, 13, 11, 5, 12],
    [11, 13, 6, 7, 14, 9, 13, 15, 14, 8, 13, 6, 5, 12, 7, 5]⟩,
   ⟨3, 0x8f1bbcdc, [1, 9, 11, 10, 0, 8, 12, 4, 13, 3, 7, 15, 14, 5, 6, 2],
    [11, 12, 14, 15, 14, 15, 9, 8, 9, 14, 5, 6, 8, 6, 5, 12]⟩,
   ⟨4, 0xa953fd4e, [4, 0, 5, 9, 7, 12, 2, 10, 14, 1, 3, 8, 11, 6, 15, 13],
    [9, 15, 5, 11, 6, 8, 13, 12, 5, 12, 13, 14, 11, 8, 5, 6]⟩]

/-- The stages of the right line. -/
def right : List Stage :=
  [⟨4, 0x50a28be6, [5, 14, 7, 0, 9, 2, 11, 4, 13, 6, 15, 8, 1, 10, 3, 12],
    [8, 9, 9, 11, 13, 15, 15, 5, 7, 7, 8, 11, 14, 14, 12, 6]⟩,
   ⟨3, 0x5c4dd124, [6, 11, 3, 7, 0, 13, 5, 10, 14, 15, 8, 12, 4, 9, 1, 2],
    [9, 13, 15, 7, 12, 8, 9, 11, 7, 7, 12, 7, 6, 15, 13, 11]⟩,
   ⟨2, 0x6d703ef3, [15, 5, 1, 3, 7, 14, 6, 9, 11, 8, 12, 2, 10, 0, 4, 13],
    [9, 7, 15, 11, 8, 6, 6, 14, 12, 13, 5, 14, 13, 13, 7, 5]⟩,
   ⟨1, 0x7a6d76e9, [8, 6, 4, 1, 3, 11, 15, 0, 5, 12, 2, 13, 9, 7, 10, 14],
    [15, 5, 8, 11, 14, 14, 6, 14, 6, 9, 12, 9, 12, 5, 15, 8]⟩,
   ⟨0, 0x00000000, [12, 15, 10, 4, 1, 5, 8, 7, 6, 2, 13, 14, 0, 3, 9, 11],
    [8, 5, 12, 9, 12, 5, 14, 6, 8, 13, 6, 5, 15, 13, 11, 11]⟩]

/-- One step of a stage: the message word taken and the bits to rotate by. -/
def step (stage : Stage) (s : State) (taken : UInt32 × UInt32) : State :=
  let t := rotateLeft (s.a + mix stage.mixing s.b s.c s.d + taken.1 + stage.constant) taken.2 + s.e
  ⟨s.e, t, s.b, rotateLeft s.c 10, s.d⟩

/-- Run the stages of one line over the words of a block. -/
def line (stages : List Stage) (ws : List UInt32) (s : State) : State :=
  stages.foldl (fun s stage =>
    ((stage.order.map fun i => ws.getD i 0).zip stage.shifts).foldl (step stage) s) s

/-- Mix one block into the state. -/
def compress (s : State) (block : Bytes) : State :=
  let ws := words Bytes.toNatLE 16 block
  let l := line left ws s
  let r := line right ws s
  ⟨s.b + l.c + r.d, s.c + l.d + r.e, s.d + l.e + r.a, s.e + l.a + r.b, s.a + l.b + r.c⟩

/-- The state as 20 bytes. -/
def State.toBytes (s : State) : Bytes :=
  bytesLE [s.a, s.b, s.c, s.d, s.e]

end Ripemd160

/-- The RIPEMD-160 digest of a byte string: 20 bytes. -/
def ripemd160 (message : Bytes) : Bytes :=
  (digest (Bytes.ofNatLE 8) Ripemd160.compress Ripemd160.start message).toBytes

end DryRun.Digest
