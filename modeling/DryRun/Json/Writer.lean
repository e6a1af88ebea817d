import DryRun.Json
import DryRun.Text.Encoding
import DryRun.Text.Quoted

/-!
# Writing JSON

Documents are written in ASCII: every other character becomes an escape, and one beyond the basic
plane becomes a pair of escapes.  A `Layout` decides the separators and the indentation.
-/

set_option autoImplicit false

namespace DryRun.Json

/-! ## Layouts -/

/-- How a document is laid out. -/
structure Layout where
  /-- What stands between two elements on one line. -/
  comma : String
  /-- What stands between a name and its value. -/
  colon : String
  /-- How far each level is indented on a line of its own; none for a single line. -/
  indent : Option Nat

/-- One line, with a blank after commas and colons. -/
def spaced : Layout := ⟨", ", ": ", none⟩

/-- A line for each element, two blanks for each level. -/
def pretty : Layout := ⟨",", ": ", some 2⟩

/-- What separates an element from what stands before it. -/
def Layout.lineBreak (layout : Layout) (level : Nat) : String :=
  match layout.indent with
  | none => ""
  | some width => String.ofList ('\n' :: List.replicate (width * level) ' ')

/-! ## Strings -/

/-- A 16-bit unit as an escape. -/
def unitEscape (unit : Nat) : List Char :=
  ['\\', 'u'] ++ Quoted.hexDigits 4 unit

/-- One character of a string. -/
def charText (c : Nat) : List Char :=
  if c = 0x22 ∨ c = 0x5C then ['\\', Char.ofNat c]
  else if c = 0x0A then ['\\', 'n']
  else if c = 0x0D then ['\\', 'r']
  else if c = 0x09 then ['\\', 't']
  else if c = 0x0C then ['\\', 'f']
  else if c = 0x08 then ['\\', 'b']
  else if 0x20 ≤ c ∧ c < 0x7F then [Char.ofNat c]
  else if c < 0x10000 then unitEscape c
  else unitEscape (0xD800 + (c - 0x10000) / 0x400) ++ unitEscape (0xDC00 + (c - 0x10000) % 0x400)

/-- A string between quotes. -/
def stringText (t : RawText) : String :=
  String.ofList ('"' :: t.flatMap charText ++ ['"'])

/-- A floating-point number.  An infinity has no numeral of its own; one that is too large reads
back as it. -/
def floatText : Binary64 → String
  | .infinite negative => if negative then "-1e999" else "1e999"
  | x => x.text

/-! ## Values -/

mutual

/-- The pieces of a value's text, in front of the pieces that follow. -/
def pieces (layout : Layout) (level : Nat) : Json → List String → List String
  | .null, after => "null" :: after
  | .bool true, after => "true" :: after
  | .bool false, after => "false" :: after
  | .int v, after => toString v :: after
  | .float x, after => floatText x :: after
  | .text t, after => stringText t :: after
  | .array [], after => "[]" :: after
  | .array (v :: rest), after =>
    "[" :: layout.lineBreak (level + 1) :: pieces layout (level + 1) v
      (elementPieces layout (level + 1) rest (layout.lineBreak level :: "]" :: after))
  | .object [], after => "\x7b\x7d" :: after
  | .object ((name, v) :: rest), after =>
    "\x7b" :: layout.lineBreak (level + 1) :: stringText name :: layout.colon ::
      pieces layout (level + 1) v
        (fieldPieces layout (level + 1) rest (layout.lineBreak level :: "\x7d" :: after))

/-- The pieces of the elements after the first. -/
def elementPieces (layout : Layout) (level : Nat) : List Json → List String → List String
  | [], after => after
  | v :: rest, after =>
    layout.comma :: layout.lineBreak level :: pieces layout level v
      (elementPieces layout level rest after)

/-- The pieces of the fields after the first. -/
def fieldPieces (layout : Layout) (level : Nat) :
    List (RawText × Json) → List String → List String
  | [], after => after
  | (name, v) :: rest, after =>
    layout.comma :: layout.lineBreak level :: stringText name :: layout.colon ::
      pieces layout level v (fieldPieces layout level rest after)

end

/-- The text of a value. -/
def render (layout : Layout) (v : Json) : String :=
  String.join (pieces layout 0 v [])

end DryRun.Json
