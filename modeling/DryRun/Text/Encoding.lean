import DryRun.Text.Utf8

/-!
# The encoding of a document

A JSON document may arrive in UTF-8, UTF-16 or UTF-32, with or without a byte-order mark.  A mark
decides the encoding; without one the zero bytes among the first four do, since a document starts
with an ASCII character.
-/

set_option autoImplicit false

namespace DryRun.Encoding

/-- The byte order of a wide encoding. -/
inductive Order where
  /-- The most significant byte comes first. -/
  | big
  /-- The least significant byte comes first. -/
  | little

/-- The number spelt by a unit's bytes in a byte order. -/
def Order.read : Order → Bytes → Nat
  | .big, bytes => Bytes.toNatBE bytes
  | .little, bytes => Bytes.toNatLE bytes

/-- The encodings a document may have. -/
inductive Form where
  /-- Units of one byte. -/
  | utf8
  /-- Units of two bytes. -/
  | utf16 (order : Order)
  /-- Units of four bytes. -/
  | utf32 (order : Order)

/-- The encoding of a document, and the document without its byte-order mark. -/
def detect : Bytes → Form × Bytes
  | 0x00 :: 0x00 :: 0xFE :: 0xFF :: rest => (.utf32 .big, rest)
  | 0xFF :: 0xFE :: 0x00 :: 0x00 :: rest => (.utf32 .little, rest)
  | 0xFE :: 0xFF :: rest => (.utf16 .big, rest)
  | 0xFF :: 0xFE :: rest => (.utf16 .little, rest)
  | 0xEF :: 0xBB :: 0xBF :: rest => (.utf8, rest)
  | bytes =>
    let form := match bytes with
      | a :: b :: c :: d :: _ =>
        if a = 0 then (if b = 0 then .utf32 .big else .utf16 .big)
        else if b = 0 then (if c = 0 ∧ d = 0 then .utf32 .little else .utf16 .little)
        else .utf8
      | [a, b] => if a = 0 then .utf16 .big else if b = 0 then .utf16 .little else .utf8
      | _ => .utf8
    (form, bytes)

/-- The units of two bytes, if the bytes divide evenly. -/
def units16? (order : Order) : Bytes → List Nat → Option (List Nat)
  | [], done => some done.reverse
  | [_], _ => none
  | a :: b :: rest, done => units16? order rest (order.read [a, b] :: done)

/-- The units of four bytes, if the bytes divide evenly. -/
def units32? (order : Order) : Bytes → List Nat → Option (List Nat)
  | [], done => some done.reverse
  | a :: b :: c :: d :: rest, done => units32? order rest (order.read [a, b, c, d] :: done)
  | _, _ => none

/-- Is the number the first half of a surrogate pair? -/
def isHighSurrogate (c : Nat) : Bool := 0xD800 ≤ c && c < 0xDC00

/-- Is the number the second half of a surrogate pair? -/
def isLowSurrogate (c : Nat) : Bool := 0xDC00 ≤ c && c < 0xE000

/-- The code point that a surrogate pair stands for. -/
def joinSurrogates (high low : Nat) : Nat :=
  0x10000 + 0x400 * (high - 0xD800) + (low - 0xDC00)

/-- Take one 16-bit unit; a low surrogate joins the high one just before it. -/
def joinStep (done : RawText) (unit : Nat) : RawText :=
  match done with
  | high :: rest =>
    if isHighSurrogate high && isLowSurrogate unit then joinSurrogates high unit :: rest
    else unit :: done
  | [] => [unit]

/-- The code points of a document; lone surrogates are kept. -/
def decode? (document : Bytes) : Option RawText :=
  match detect document with
  | (.utf8, bytes) => Utf8.decode? true bytes
  | (.utf16 order, bytes) => (units16? order bytes []).map fun us => (us.foldl joinStep []).reverse
  | (.utf32 order, bytes) =>
    (units32? order bytes []).bind fun us => if us.all (· ≤ 0x10FFFF) then some us else none

end DryRun.Encoding
