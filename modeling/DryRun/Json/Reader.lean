import DryRun.Json
import DryRun.Hex
import DryRun.Text.Encoding

/-!
# Reading JSON

A document is one value with blanks around it.  Of fields with the same name the last value
counts, in the place of the first.  Integers have at most 4300 digits; a longer one makes the
document unreadable.
-/

set_option autoImplicit false

namespace DryRun.Json

/-! ## Tokens -/

/-- The blanks between tokens. -/
def isBlank (c : Nat) : Bool :=
  c == 0x20 || c == 0x09 || c == 0x0A || c == 0x0D

/-- The text after the blanks in front. -/
def skipBlanks (s : RawText) : RawText :=
  s.dropWhile isBlank

/-- Is this a decimal digit? -/
def isDigit (c : Nat) : Bool :=
  0x30 ≤ c && c ≤ 0x39

/-- The number that decimal digits spell. -/
def digitsValue (digits : RawText) : Nat :=
  digits.foldl (fun n c => 10 * n + (c - 0x30)) 0

/-- The most digits an integer may have. -/
def maxIntegerDigits : Nat := 4300

/-- The digits before the point: a zero alone, or digits that do not start with zero. -/
def wholePart? (s : RawText) : Option (RawText × RawText) :=
  match s with
  | 0x30 :: rest => some ([0x30], rest)
  | c :: _ => if isDigit c then some (s.span isDigit) else none
  | [] => none

/-- The digits after a point; without a digit the point does not belong to the number. -/
def fractionPart (s : RawText) : RawText × RawText :=
  match s with
  | 0x2E :: c :: rest => if isDigit c then (c :: rest).span isDigit else ([], s)
  | _ => ([], s)

/-- The exponent after the letter `e`; without a digit the letter does not belong to the number. -/
def exponentPart (s : RawText) : Option Int × RawText :=
  match s with
  | e :: rest =>
    if e = 0x65 ∨ e = 0x45 then
      let (negative, rest) := match rest with
        | 0x2D :: rest => (true, rest)
        | 0x2B :: rest => (false, rest)
        | rest => (false, rest)
      match rest.span isDigit with
      | ([], _) => (none, s)
      | (digits, rest) =>
        let magnitude : Int := digitsValue digits
        (some (if negative then -magnitude else magnitude), rest)
    else (none, s)
  | [] => (none, s)

/-- A number and the text after it. -/
def number? (s : RawText) : Option (Json × RawText) := do
  let (negative, s) := match s with
    | 0x2D :: rest => (true, rest)
    | s => (false, s)
  let (whole, s) ← wholePart? s
  let (fraction, s) := fractionPart s
  let (exponent, s) := exponentPart s
  match fraction, exponent with
  | [], none =>
    let magnitude : Int := digitsValue whole
    if whole.length ≤ maxIntegerDigits then
      some (.int (if negative then -magnitude else magnitude), s)
    else none
  | _, _ =>
    let power := exponent.getD 0 - fraction.length
    some (.float (.ofDecimal negative (digitsValue (whole ++ fraction)) power), s)

/-- The code unit that four hexadecimal digits spell. -/
def unit? (a b c d : Nat) : Option Nat := do
  let a ← Hex.digitValue? a
  let b ← Hex.digitValue? b
  let c ← Hex.digitValue? c
  let d ← Hex.digitValue? d
  some (4096 * a + 256 * b + 16 * c + d)

/-- The character that a letter after a backslash stands for. -/
def escaped? : Nat → Option Nat
  | 0x22 => some 0x22
  | 0x5C => some 0x5C
  | 0x2F => some 0x2F
  | 0x62 => some 0x08
  | 0x66 => some 0x0C
  | 0x6E => some 0x0A
  | 0x72 => some 0x0D
  | 0x74 => some 0x09
  | _ => none

/-- Characters read so far, in reverse, with the high surrogate that the last escape spelt. -/
def settle (pending : Option Nat) (done : RawText) : RawText :=
  match pending with
  | some high => high :: done
  | none => done

/-- The rest of a string after its opening quote, and the text after the closing one.  Two escapes
in a row that spell a surrogate pair make one character. -/
def stringBody? : RawText → (pending : Option Nat) → (done : RawText) →
    Option (RawText × RawText)
  | [], _, _ => none
  | 0x22 :: rest, pending, done => some ((settle pending done).reverse, rest)
  | 0x5C :: 0x75 :: a :: b :: c :: d :: rest, pending, done =>
    match unit? a b c d, pending with
    | none, _ => none
    | some unit, some high =>
      if Encoding.isLowSurrogate unit then
        stringBody? rest none (Encoding.joinSurrogates high unit :: done)
      else if Encoding.isHighSurrogate unit then stringBody? rest (some unit) (high :: done)
      else stringBody? rest none (unit :: high :: done)
    | some unit, none =>
      if Encoding.isHighSurrogate unit then stringBody? rest (some unit) done
      else stringBody? rest none (unit :: done)
  | 0x5C :: e :: rest, pending, done =>
    match escaped? e with
    | some c => stringBody? rest none (c :: settle pending done)
    | none => none
  | c :: rest, pending, done =>
    if c < 0x20 ∨ c = 0x5C then none else stringBody? rest none (c :: settle pending done)

/-! ## Values -/

/-- Put a field in the place of the one with its name, or else at the end. -/
def placeField (name : RawText) (value : Json) : List (RawText × Json) → List (RawText × Json)
  | [] => [(name, value)]
  | old :: rest =>
    if old.1 = name then (name, value) :: rest else old :: placeField name value rest

/-- The text after a word, if the text starts with it. -/
def dropWord? (word : String) (s : RawText) : Option RawText :=
  let w := RawText.ofString word
  if s.take w.length = w then some (s.drop w.length) else none

mutual

/-- A value and the text after it.  No text needs more fuel than it has characters. -/
def value? : (fuel : Nat) → RawText → Option (Json × RawText)
  | 0, _ => none
  | fuel + 1, s =>
    match s with
    | 0x22 :: rest => (stringBody? rest none []).map fun (t, s) => (.text t, s)
    | 0x5B :: rest =>
      match skipBlanks rest with
      | 0x5D :: s => some (.array [], s)
      | s => elements? fuel s []
    | 0x7B :: rest =>
      match skipBlanks rest with
      | 0x7D :: s => some (.object [], s)
      | s => members? fuel s []
    | 0x6E :: _ => (dropWord? "null" s).map fun s => (.null, s)
    | 0x74 :: _ => (dropWord? "true" s).map fun s => (.bool true, s)
    | 0x66 :: _ => (dropWord? "false" s).map fun s => (.bool false, s)
    | s => number? s

/-- The elements of an array up to its end; those read so far are kept in reverse. -/
def elements? : (fuel : Nat) → RawText → List Json → Option (Json × RawText)
  | 0, _, _ => none
  | fuel + 1, s, done =>
    match value? fuel s with
    | none => none
    | some (v, s) =>
      match skipBlanks s with
      | 0x2C :: s => elements? fuel (skipBlanks s) (v :: done)
      | 0x5D :: s => some (.array (v :: done).reverse, s)
      | _ => none

/-- The fields of an object up to its end. -/
def members? : (fuel : Nat) → RawText → List (RawText × Json) → Option (Json × RawText)
  | 0, _, _ => none
  | fuel + 1, s, done =>
    match s with
    | 0x22 :: rest =>
      match stringBody? rest none [] with
      | none => none
      | some (name, s) =>
        match skipBlanks s with
        | 0x3A :: s =>
          match value? fuel (skipBlanks s) with
          | none => none
          | some (v, s) =>
            let done := placeField name v done
            match skipBlanks s with
            | 0x2C :: s => members? fuel (skipBlanks s) done
            | 0x7D :: s => some (.object done, s)
            | _ => none
        | _ => none
    | _ => none

end

/-- The value of a text that is one JSON document. -/
def parse? (s : RawText) : Option Json :=
  match value? (s.length + 1) (skipBlanks s) with
  | some (v, rest) => if (skipBlanks rest).isEmpty then some v else none
  | none => none

/-- The value of a JSON document given as bytes. -/
def ofBytes? (document : Bytes) : Option Json :=
  (Encoding.decode? document).bind parse?

end DryRun.Json
