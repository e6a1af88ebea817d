import DryRun.CommandLine
import DryRun.Node.Transport

/-!
# Talking to a node that answers in its own time

A run asks a node as if all its answers were there.  With a node that is far away they come one by
one, each after a request was sent.  `next` says what follows from the replies so far: either the
outcome, or the first request that has no reply yet.  A run that finds no reply stops there, as it
does when a node is out of reach, and the same command line is looked at again when the reply is
there; since a run depends on nothing but the replies, it comes to the same request again and goes
on from it.
-/

set_option autoImplicit false

namespace DryRun

/-- A node of which only the first replies are known. -/
def Node.ofReplies (replies : List Reply) : Node := fun request =>
  replies.getD (request.id - 1) (.unavailable (.ofString "no reply yet"))

namespace CommandLine

/-- What follows from some replies. -/
inductive Progress where
  /-- All is done. -/
  | finished (outcome : Outcome)
  /-- A request waits for its reply. -/
  | waiting (request : Request)

/-- What follows from the replies that came so far. -/
def next (arguments : List RawText) (environment : Environment) (replies : List Reply) :
    Progress :=
  let (outcome, link) := execute (.ofReplies replies) arguments environment
  match link.sent.reverse[replies.length]? with
  | none => .finished outcome
  | some request => .waiting request

/-- The message that brings a request to an endpoint. -/
def postOf (endpoint : RawText) (request : Request) : Post :=
  ⟨endpoint, RawText.ofString request.body⟩

/-- The longest time that is waited for a reply, in milliseconds. -/
def longestWait : Nat := 0x80000000

/-- The milliseconds to wait for a reply, at least one. -/
def waitingTime : Json → Nat
  | .int v => max 1 (min longestWait (v.toNat * 1000))
  | .float (.finite _ significand exponent) =>
    let thousandths := 
      significand * Nat.pow 2 exponent.toNat * 1000 / Nat.pow 2 (-exponent).toNat
    max 1 (min longestWait thousandths)
  | _ => longestWait

/-- The names of the variables that stand for options. -/
def variableNames : List String := valueOptions.map ValueOption.variableName

end CommandLine

end DryRun
