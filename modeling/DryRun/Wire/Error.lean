import DryRun.Hex
import DryRun.Text.Quoted

/-!
# Ill-formed data

Why bytes or hexadecimal text do not have the expected form, and how each cause is worded.
-/

set_option autoImplicit false

namespace DryRun

/-- A cause for which data is refused. -/
inductive FormatError where
  /-- Fewer bytes are left than are needed. -/
  | unexpectedEnd (need : Int) (offset available : Nat)
  /-- A variable-length number is above its limit. -/
  | numberAboveLimit (value : Nat) (limit : Int)
  /-- A string is not UTF-8. -/
  | invalidUtf8
  /-- A curve point starts with an unknown mark. -/
  | unknownPointMark (byte : UInt8)
  /-- Bytes are left where the data should end. -/
  | trailingBytes (count : Nat)
  /-- A stack item starts with an unknown type. -/
  | unknownItemType (byte : UInt8)
  /-- A transaction starts with an unknown type. -/
  | unknownTransactionType (byte : UInt8)
  /-- A transaction attribute has an unknown usage. -/
  | unknownAttributeUsage (byte : UInt8)
  /-- A header's witness is not announced by a one. -/
  | badWitnessMarker (byte : UInt8)
  /-- A header does not end in a zero. -/
  | badHeaderPadding (byte : UInt8)
  /-- Something other than text stands where hexadecimal text should. -/
  | notHexText (kind : String)
  /-- A text is not hexadecimal. -/
  | badHex
  /-- A displayed identifier is not hexadecimal. -/
  | badIdentifier (text : RawText)
  /-- An identifier has the wrong size. -/
  | wrongSize (expected : Int) (actual : Nat)
deriving DecidableEq

namespace FormatError

/-- A byte in messages: two hexadecimal digits with the mark. -/
def byteText (b : UInt8) : String :=
  "0x" ++ Hex.encode [b]

/-- What is said in place of the position at which a text stops being hexadecimal. -/
def hexReason : String := "<hex>"

/-- What is said in place of the position at which a string stops being UTF-8. -/
def utf8Reason : String := "<utf8>"

/-- The wording of each cause. -/
def message : FormatError → String
  | .unexpectedEnd need offset available =>
    s!"unexpected end of data: need {need} bytes at offset {offset}, have {available}"
  | .numberAboveLimit value limit => s!"var-int {value} exceeds limit {limit}"
  | .invalidUtf8 => s!"invalid utf-8 string: {utf8Reason}"
  | .unknownPointMark b => s!"invalid EC point prefix {byteText b}"
  | .trailingBytes count => s!"{count} trailing bytes"
  | .unknownItemType b => s!"unknown stack item type {byteText b}"
  | .unknownTransactionType b => s!"unknown transaction type {byteText b}"
  | .unknownAttributeUsage b => s!"unknown attribute usage {byteText b}"
  | .badWitnessMarker b => s!"expected witness marker 1, got {b.toNat}"
  | .badHeaderPadding b => s!"expected header padding 0, got {b.toNat}"
  | .notHexText kind => s!"expected hex string, got {kind}"
  | .badHex => s!"invalid hex: {hexReason}"
  | .badIdentifier text => s!"invalid hex {Quoted.text text}: {hexReason}"
  | .wrongSize expected actual => s!"expected {expected} bytes, got {actual}"

end FormatError

namespace Hex

/-- The bytes of a hexadecimal text with or without the mark. -/
def read (text : RawText) : Except FormatError Bytes :=
  match decode? (dropMark text) with
  | some bytes => .ok bytes
  | none => .error .badHex

/-- The identifier of a given size that a displayed text names, in wire order. -/
def readDisplay (text : RawText) (size : Int) : Except FormatError Bytes :=
  let text := dropMark text
  match decode? text with
  | none => .error (.badIdentifier text)
  | some bytes =>
    if bytes.length = size then .ok bytes.reverse else .error (.wrongSize size bytes.length)

end Hex

end DryRun
