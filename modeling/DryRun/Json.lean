import DryRun.Number.Binary64
import DryRun.Text.RawText

/-!
# JSON values

A document's value.  Integers and floating-point numbers are told apart by how they are written,
text may hold lone surrogates, and an object keeps its fields in order of first occurrence.
-/

set_option autoImplicit false

namespace DryRun

/-- A JSON value. -/
inductive Json where
  /-- The null value. -/
  | null
  /-- A truth value. -/
  | bool (value : Bool)
  /-- A number written without fraction and exponent. -/
  | int (value : Int)
  /-- A number written with a fraction or an exponent. -/
  | float (value : Binary64)
  /-- A string. -/
  | text (value : RawText)
  /-- An array. -/
  | array (elements : List Json)
  /-- An object: its fields, no name twice. -/
  | object (fields : List (RawText × Json))

namespace Json

instance : Inhabited Json := ⟨.null⟩

/-- A string value. -/
def ofString (s : String) : Json :=
  .text (RawText.ofString s)

/-- An object with these fields. -/
def ofFields (fields : List (String × Json)) : Json :=
  .object (fields.map fun (name, value) => (RawText.ofString name, value))

/-- The first field of a name in a list of fields. -/
def lookup (name : String) (fields : List (RawText × Json)) : Option Json :=
  let name := RawText.ofString name
  (fields.find? fun field => field.1 == name).map Prod.snd

/-- The field of an object with this name. -/
def field? (name : String) : Json → Option Json
  | .object fields => lookup name fields
  | _ => none

end Json

end DryRun
