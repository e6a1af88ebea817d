import DryRun.Node
import DryRun.Node.Endpoint
import DryRun.Text.Quoted

/-!
# How requests travel

A request is posted to the endpoint of a node.  Whatever goes wrong on the way becomes a reply that
there is no answer, with a text that says what happened.
-/

set_option autoImplicit false

namespace DryRun

/-- A message that is posted. -/
structure Post where
  /-- Where it goes. -/
  endpoint : RawText
  /-- What it says. -/
  body : RawText

namespace Post

/-- The verb of the message. -/
def verb : String := "POST"

/-- The headers that describe the body, in lower case. -/
def headers : List (String × String) := [("content-type", "application/json")]

end Post

/-- What can happen to a message on the way. -/
inductive TransportFailure where
  /-- The server answers with a status that is no success. -/
  | status (code : Int) (reason : RawText)
  /-- There is no connection. -/
  | unreachable (reason : RawText)
  /-- The first line of the answer makes no sense. -/
  | badStatusLine (line : RawText)
  /-- The answer ends too early. -/
  | incomplete (received : Nat) (missing : Option Int)
  /-- The system reports an error. -/
  | system (reason : RawText)

namespace TransportFailure

/-- A first line as it is shown: an empty one already in quotes. -/
def shownLine (line : RawText) : RawText :=
  if line.isEmpty then RawText.ofString "''" else line

/-- What is missing of an answer that ends too early. -/
def missingText : Option Int → String
  | none => ""
  | some missing => s!", {missing} more expected"

/-- What is said of a failure on the way to an endpoint. -/
def message (endpoint : RawText) (failure : TransportFailure) : RawText :=
  let say (before : String) (after : RawText) : RawText :=
    .ofString before ++ endpoint ++ .ofString ": " ++ after
  match failure with
  | .status code reason => say s!"HTTP {code} from " reason
  | .unreachable reason => say "cannot reach " reason
  | .badStatusLine line =>
    say "bad HTTP response from " (.ofString s!"BadStatusLine({Quoted.text (shownLine line)})")
  | .incomplete received missing =>
    say "bad HTTP response from "
      (.ofString s!"IncompleteRead({received} bytes read{missingText missing})")
  | .system reason => say "transport error talking to " reason

end TransportFailure

/-- What is said of an endpoint that has no scheme. -/
def badEndpointMessage (text address : RawText) : RawText :=
  .ofString s!"invalid endpoint {Quoted.text text}: unknown url type: {Quoted.text address}"

/-- The reply that a journey to an endpoint amounts to, given how it ends where there is a way. -/
def Reply.ofTransport (text : RawText)
    (journey : Endpoint → Except TransportFailure Bytes) : Reply :=
  match Endpoint.read text with
  | .error address => .unavailable (badEndpointMessage text address)
  | .ok endpoint =>
    match journey endpoint with
    | .ok bytes => .body bytes
    | .error failure => .unavailable (failure.message text)

end DryRun
