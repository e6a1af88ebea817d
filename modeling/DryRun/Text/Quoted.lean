import DryRun.Bytes
import DryRun.Text.Printable
import DryRun.Text.RawText

/-!
# Quoted text

How text and byte strings appear inside messages: between single quotes, or between double
quotes when the text holds a single quote and no double one.  The backslash and the quote in use
are escaped, line feed, carriage return and tab have escapes of one letter, and everything
unprintable is written by its number.
-/

set_option autoImplicit false

namespace DryRun.Quoted

/-- The lower-case hexadecimal digit of a number below sixteen. -/
def hexDigit (n : Nat) : Char :=
  if n < 10 then Char.ofNat (0x30 + n) else Char.ofNat (0x57 + n)

/-- A number in lower-case hexadecimal, in exactly `width` digits. -/
def hexDigits : (width : Nat) → Nat → List Char
  | 0, _ => []
  | width + 1, n => hexDigits width (n / 16) ++ [hexDigit (n % 16)]

/-- The number of a character as an escape, in the shortest of the three widths. -/
def numericEscape (c : Nat) : List Char :=
  if c < 0x100 then ['\\', 'x'] ++ hexDigits 2 c
  else if c < 0x10000 then ['\\', 'u'] ++ hexDigits 4 c
  else ['\\', 'U'] ++ hexDigits 8 c

/-- One character inside quotes of the given kind; `plain` says which are shown as themselves. -/
def escape (plain : Nat → Bool) (quote : Nat) (c : Nat) : List Char :=
  if c = quote ∨ c = 0x5C then ['\\', Char.ofNat c]
  else if c = 0x0A then ['\\', 'n']
  else if c = 0x0D then ['\\', 'r']
  else if c = 0x09 then ['\\', 't']
  else if plain c then [Char.ofNat c]
  else numericEscape c

/-- The quote that surrounds a text. -/
def quoteFor (text : RawText) : Nat :=
  if 0x27 ∈ text ∧ 0x22 ∉ text then 0x22 else 0x27

/-- Characters between quotes. -/
def surround (plain : Nat → Bool) (text : RawText) : String :=
  let quote := quoteFor text
  String.ofList (Char.ofNat quote :: text.flatMap (escape plain quote) ++ [Char.ofNat quote])

/-- Text between quotes; printable characters of every script are shown as themselves. -/
def text (t : RawText) : String :=
  surround Text.isPrintable t

/-- A byte string between quotes, marked by a letter; printable ASCII is shown as itself. -/
def bytes (b : Bytes) : String :=
  "b" ++ surround (fun c => 0x20 ≤ c && c < 0x7F) (b.map UInt8.toNat)

end DryRun.Quoted
