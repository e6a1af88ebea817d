import DryRun.Json
import DryRun.Text.Quoted

/-!
# Values inside messages

A message that complains about a value shows it: `None`, `True` and `False` for the three words,
numbers as they are, strings quoted, arrays in square and objects in curly brackets.
-/

set_option autoImplicit false

namespace DryRun.Json

/-- What kind of value it is, in a word. -/
def kindName : Json → String
  | .null => "NoneType"
  | .bool _ => "bool"
  | .int _ => "int"
  | .float _ => "float"
  | .text _ => "str"
  | .array _ => "list"
  | .object _ => "dict"

mutual

/-- A value as messages show it. -/
def display : Json → String
  | .null => "None"
  | .bool true => "True"
  | .bool false => "False"
  | .int v => toString v
  | .float x => x.text
  | .text t => Quoted.text t
  | .array elements => "[" ++ String.intercalate ", " (displayElements elements) ++ "]"
  | .object fields => "\x7b" ++ String.intercalate ", " (displayFields fields) ++ "\x7d"

/-- The elements of an array, each as messages show it. -/
def displayElements : List Json → List String
  | [] => []
  | v :: rest => display v :: displayElements rest

/-- The fields of an object, each as messages show it. -/
def displayFields : List (RawText × Json) → List String
  | [] => []
  | (name, v) :: rest => (Quoted.text name ++ ": " ++ display v) :: displayFields rest

end

/-- A value inside running text: strings without quotes, everything else as `display` has it. -/
def plain : Json → RawText
  | .text t => t
  | v => .ofString (display v)

/-- Does the value count as something?  Empty strings and collections, zero, `false` and null do
not. -/
def isPresent : Json → Bool
  | .null => false
  | .bool b => b
  | .int v => v != 0
  | .float x => !x.isZero
  | .text t => !t.isEmpty
  | .array elements => !elements.isEmpty
  | .object fields => !fields.isEmpty

end DryRun.Json
