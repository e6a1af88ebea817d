import DryRun.Number.Binary64
import DryRun.Text.Digit
import DryRun.Text.RawText

/-!
# Numerals

Numbers that people type may have blanks around them, a sign, single underscores between digits,
and digits of any script.  A floating-point numeral may also be one of the words for an infinity
or for no number at all.

An integer has a numeral only if it has few enough digits, so that nobody waits for the conversion:
`toInt?` refuses the others.
-/

set_option autoImplicit false

namespace DryRun.Numeral

/-- A character of a numeral. -/
inductive Mark where
  /-- A digit and its value. -/
  | digit (value : Nat)
  /-- Any other character. -/
  | other (code : Nat)
deriving DecidableEq

/-- The blanks around a numeral; the controls that separate records are none. -/
def isBlank (c : Nat) : Bool :=
  RawText.isBlank c && !(0x1C ≤ c && c ≤ 0x1F)

/-- The characters between the blanks: digits of any script as their values, all else as it is. -/
def marks (text : RawText) : List Mark :=
  (text.trimWhile isBlank).map fun c =>
    match Text.digitValue? c with
    | some value => .digit value
    | none => .other c

/-- A sign, if there is one, and what follows it. -/
def takeSign : List Mark → Bool × List Mark
  | .other 0x2D :: rest => (true, rest)
  | .other 0x2B :: rest => (false, rest)
  | text => (false, text)

/-- The digits in front, with single underscores between them, and what follows them. -/
def takeDigits : List Mark → List Nat × List Mark
  | .digit a :: .other 0x5F :: .digit b :: rest =>
    let (digits, rest) := takeDigits (.digit b :: rest)
    (a :: digits, rest)
  | .digit a :: rest =>
    let (digits, rest) := takeDigits rest
    (a :: digits, rest)
  | text => ([], text)
termination_by text => text.length

/-- The number that decimal digits spell. -/
def valueOf (digits : List Nat) : Nat :=
  digits.foldl (fun n d => 10 * n + d) 0

/-- The most digits of an integer. -/
def maxDigits : Nat := 4300

/-- The integer that a numeral spells. -/
def toInt? (text : RawText) : Option Int :=
  let (negative, body) := takeSign (marks text)
  match takeDigits body with
  | ([], _) => none
  | (digits, []) =>
    if digits.length > maxDigits then none
    else some (if negative then -(valueOf digits : Int) else valueOf digits)
  | _ => none

/-- What a floating-point numeral spells. -/
inductive Real where
  /-- A number. -/
  | number (value : Binary64)
  /-- No number. -/
  | notANumber
deriving DecidableEq

/-- A mark with a capital letter made small. -/
def Mark.lower : Mark → Mark
  | .other c => .other (if 'A'.toNat ≤ c ∧ c ≤ 'Z'.toNat then c + 32 else c)
  | m => m

/-- Is the text this word, whatever the case of its letters? -/
def isWord (word : String) (text : List Mark) : Bool :=
  text.map Mark.lower = word.toList.map fun c => .other c.toNat

/-- The exponent at the end of a numeral, zero if there is none. -/
def readExponent? : List Mark → Option Int
  | [] => some 0
  | .other e :: rest =>
    if e = 'e'.toNat ∨ e = 'E'.toNat then
      let (negative, body) := takeSign rest
      match takeDigits body with
      | ([], _) => none
      | (digits, []) => some (if negative then -(valueOf digits : Int) else valueOf digits)
      | _ => none
    else none
  | _ => none

/-- The floating-point number that a numeral spells. -/
def toReal? (text : RawText) : Option Real := do
  let (negative, body) := takeSign (marks text)
  if isWord "inf" body || isWord "infinity" body then return .number (.infinite negative)
  if isWord "nan" body then return .notANumber
  let (whole, rest) := takeDigits body
  let (fraction, rest) := match rest with
    | .other 0x2E :: rest => takeDigits rest
    | rest => ([], rest)
  if whole.isEmpty && fraction.isEmpty then none
  let exponent ← readExponent? rest
  return .number (.ofDecimal negative (valueOf (whole ++ fraction)) (exponent - fraction.length))

end DryRun.Numeral
