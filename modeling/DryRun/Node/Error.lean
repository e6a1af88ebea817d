import DryRun.Json.Display
import DryRun.Wire.Error

/-!
# What can go wrong with a node

A node may not answer at all, may answer with an error of its own, or may answer with something
that is not an answer to the question.
-/

set_option autoImplicit false

namespace DryRun

/-- What is wrong with an answer. -/
inductive Malformation where
  /-- The body is not a document. -/
  | notJson
  /-- The document is not an object. -/
  | notObject
  /-- The object has no result. -/
  | noResult
  /-- The result should have been an unsigned integer. -/
  | notUnsigned (result : Json)
  /-- The result should have been a text. -/
  | notText (result : Json)
  /-- The result does not have the expected form. -/
  | badForm (cause : FormatError)

/-- The wording of each defect. -/
def Malformation.message : Malformation → String
  | .notJson => "response is not JSON: <json>"
  | .notObject => "response is not a JSON object"
  | .noResult => "response has no result"
  | .notUnsigned result => s!"expected an unsigned integer, got {result.display}"
  | .notText result => s!"expected hex string, got {result.display}"
  | .badForm cause => cause.message

/-- Why there is no answer from a node. -/
inductive NodeError where
  /-- The node could not be reached. -/
  | unavailable (reason : RawText)
  /-- The node answered with an error. -/
  | remote (code : Json) (text : RawText)
  /-- The answer to a method is not one. -/
  | malformed (method : String) (defect : Malformation)
  /-- A number is infinite where an integer is needed. -/
  | infinite

/-- The wording of each error. -/
def NodeError.message : NodeError → RawText
  | .unavailable reason => reason
  | .remote code text => .ofString "remote error " ++ code.plain ++ .ofString ": " ++ text
  | .malformed method defect => .ofString s!"{method}: {defect.message}"
  | .infinite => .ofString "OverflowError"

end DryRun
