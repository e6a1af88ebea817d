import DryRun.Bytes
import DryRun.Text.RawText

/-!
# UTF-8

A reader that takes one byte at a time: between characters, or inside one with some continuation
bytes owed and a range the next of them must lie in.  Reading is strict (`decode?`) or lossy
(`decodeLossy`, one replacement character for each maximal part of a sequence that cannot be
completed).  Strings themselves are kept in UTF-8, so `encode` and `decodeString?` only change
the container.
-/

set_option autoImplicit false

namespace DryRun.Utf8

/-! ## One byte at a time -/

/-- Where a reader stands. -/
inductive State where
  /-- Between characters. -/
  | between
  /-- Inside a character: continuation bytes owed, the range of the next, the bits so far. -/
  | inside (owed low high bits : Nat)

/-- What a byte does to a reader. -/
inductive Outcome where
  /-- It completes a character. -/
  | complete (codePoint : Nat)
  /-- It continues or starts one. -/
  | more (state : State)
  /-- It cannot stand here. -/
  | refused

/-- The first byte of a character.  Surrogates are three-byte sequences that only a permissive
reader takes. -/
def first (surrogates : Bool) (b : Nat) : Outcome :=
  if b < 0x80 then .complete b
  else if b < 0xC2 then .refused
  else if b < 0xE0 then .more (.inside 1 0x80 0xBF (b - 0xC0))
  else if b = 0xE0 then .more (.inside 2 0xA0 0xBF 0)
  else if b = 0xED then .more (.inside 2 0x80 (if surrogates then 0xBF else 0x9F) 0xD)
  else if b < 0xF0 then .more (.inside 2 0x80 0xBF (b - 0xE0))
  else if b = 0xF0 then .more (.inside 3 0x90 0xBF 0)
  else if b < 0xF4 then .more (.inside 3 0x80 0xBF (b - 0xF0))
  else if b = 0xF4 then .more (.inside 3 0x80 0x8F 4)
  else .refused

/-- The next byte, wherever the reader stands. -/
def next (surrogates : Bool) : State → Nat → Outcome
  | .between, b => first surrogates b
  | .inside owed low high bits, b =>
    if low ≤ b ∧ b ≤ high then
      let bits := 64 * bits + (b - 0x80)
      if owed ≤ 1 then .complete bits else .more (.inside (owed - 1) 0x80 0xBF bits)
    else .refused

/-! ## Strict reading -/

/-- Take one byte; the characters read so far are kept in reverse. -/
def strictStep (surrogates : Bool) (reading : Option (State × RawText)) (b : UInt8) :
    Option (State × RawText) :=
  reading.bind fun (state, done) =>
    match next surrogates state b.toNat with
    | .complete c => some (.between, c :: done)
    | .more state => some (state, done)
    | .refused => none

/-- The code points of a byte string that is UTF-8 throughout; a permissive reader also takes
encoded surrogates. -/
def decode? (surrogates : Bool) (bytes : Bytes) : Option RawText :=
  match bytes.foldl (strictStep surrogates) (some (.between, [])) with
  | some (.between, done) => some done.reverse
  | _ => none

/-! ## Lossy reading -/

/-- The code point that stands for what cannot be read. -/
def replacement : Nat := 0xFFFD

/-- Take one byte; where it cannot continue a character, the part read so far is replaced and
the byte is read afresh. -/
def lossyStep (reading : State × RawText) (b : UInt8) : State × RawText :=
  let (state, done) := reading
  match next false state b.toNat, state with
  | .complete c, _ => (.between, c :: done)
  | .more state, _ => (state, done)
  | .refused, .between => (.between, replacement :: done)
  | .refused, .inside .. =>
    match first false b.toNat with
    | .complete c => (.between, c :: replacement :: done)
    | .more state => (state, replacement :: done)
    | .refused => (.between, replacement :: replacement :: done)

/-- The text of a byte string, with replacement characters for what is not UTF-8. -/
def decodeLossy (bytes : Bytes) : String :=
  let (state, done) := bytes.foldl lossyStep (.between, [])
  let done := match state with
    | .between => done
    | .inside .. => replacement :: done
  RawText.toString done.reverse

/-! ## Strings -/

/-- The bytes of a string. -/
def encode (text : String) : Bytes :=
  text.toUTF8.data.toList

/-- The string these bytes are the encoding of. -/
def decodeString? (bytes : Bytes) : Option String :=
  String.fromUTF8? ⟨bytes.toArray⟩

theorem decodeString?_encode (text : String) : decodeString? (encode text) = some text := by
  have h : (⟨(text.toUTF8.data.toList).toArray⟩ : ByteArray) = text.toUTF8 := by simp
  rw [decodeString?, encode, h]
  simp [String.fromUTF8?, String.fromUTF8, text.isValidUTF8]

theorem encode_of_decodeString? {bytes : Bytes} {text : String}
    (h : decodeString? bytes = some text) : encode text = bytes := by
  unfold decodeString? String.fromUTF8? at h
  split at h
  · cases h
    simp [encode, String.fromUTF8]
  · cases h

end DryRun.Utf8
