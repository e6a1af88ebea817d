/-!
# Text from outside

Text that arrives in a document or on a command line is a list of code points.  Unlike a
`String` it may hold lone surrogates, which a JSON escape can spell.  This file converts between
the two, trims blanks and splits at a separator.
-/

set_option autoImplicit false

namespace DryRun

/-- Text as code points, lone surrogates included. -/
abbrev RawText := List Nat

namespace RawText

/-- The code points of a string. -/
def ofString (text : String) : RawText :=
  text.toList.map Char.toNat

/-- The string these code points spell; a code point that no string can hold becomes the
replacement character. -/
def toString (text : RawText) : String :=
  String.ofList (text.map fun c => if c.isValidChar then Char.ofNat c else Char.ofNat 0xFFFD)

/-- The blanks of Unicode: every kind of space, the line and paragraph separators, and the
controls that separate lines or records. -/
def isBlank (c : Nat) : Bool :=
  (0x09 ≤ c && c ≤ 0x0D) || (0x1C ≤ c && c ≤ 0x20) || c == 0x85 || c == 0xA0 || c == 0x1680 ||
    (0x2000 ≤ c && c ≤ 0x200A) || c == 0x2028 || c == 0x2029 || c == 0x202F || c == 0x205F ||
    c == 0x3000

/-- The text without the characters of a class at its two ends. -/
def trimWhile (inClass : Nat → Bool) (text : RawText) : RawText :=
  ((text.dropWhile inClass).reverse.dropWhile inClass).reverse

/-- The text without blanks at its two ends. -/
def trim (text : RawText) : RawText :=
  text.trimWhile isBlank

/-- The parts between separators, in order; there is always at least one. -/
def splitAt (separator : Nat) (text : RawText) : List RawText :=
  text.foldr (fun c parts =>
    if c = separator then [] :: parts
    else match parts with
      | [] => [[c]]
      | part :: rest => (c :: part) :: rest) [[]]

end RawText

end DryRun
