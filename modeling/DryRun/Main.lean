import DryRun.CommandLine.Conversation
import DryRun.Node.Http
import Std.Async.DNS
import Std.Async.TCP
import Std.Async.Timer

/-!
# The program

Everything here touches the outside: the command line, the environment, the connection to a node
and the two streams.  What is said on them is decided elsewhere.
-/

set_option autoImplicit false

open DryRun Std.Async Std.Net

namespace DryRun.Program

/-- The address of a server as a connection takes it. -/
def socketAddress (service : Nat) : IPAddr → SocketAddress
  | .v4 addr => .v4 ⟨addr, service.toUInt16⟩
  | .v6 addr => .v6 ⟨addr, service.toUInt16⟩

/-- Everything that arrives until the connection ends. -/
partial def receive (socket : TCP.Socket.Client) (received : ByteArray) : Async ByteArray := do
  match ← socket.recv? 65536 with
  | some bytes => receive socket (received ++ bytes)
  | none => return received

/-- Send a message and wait for the answer. -/
def exchange (address : Http.Address) (message : Bytes) : Async ByteArray := do
  let found ← DNS.getAddrInfo address.host (toString address.service)
  match found[0]? with
  | none => throw (IO.userError "no such host")
  | some place =>
    let socket ← TCP.Socket.Client.mk
    socket.connect (socketAddress address.service place)
    socket.send ⟨message.toArray⟩
    receive socket .empty

/-- The end of the time that is waited. -/
def expire (milliseconds : Nat) : Async ByteArray := do
  sleep (.ofNat milliseconds)
  throw (IO.userError "timed out")

/-- Follow a message on its way to an endpoint. -/
def follow (post : Post) (milliseconds : Nat) (endpoint : Endpoint) :
    IO (Except TransportFailure Bytes) := do
  match Http.Address.ofEndpoint? endpoint with
  | none => return .error (.unreachable endpoint.obstacle)
  | some address =>
    try
      let answer ← (Async.race (exchange address (Http.encode address post))
        (expire milliseconds)).block
      return Http.decode answer.toList
    catch e => return .error (.unreachable (.ofString (toString e)))

/-- Post a message, and say what became of it. -/
def deliver (post : Post) (milliseconds : Nat) : IO Reply := do
  match Endpoint.read post.endpoint with
  | .error address => return .unavailable (badEndpointMessage post.endpoint address)
  | .ok endpoint =>
    let happened ← follow post milliseconds endpoint
    return .ofTransport post.endpoint fun _ => happened

/-- Answer the requests of a run one after the other until it is finished. -/
partial def converse (arguments : List RawText) (environment : CommandLine.Environment)
    (endpoint : RawText) (milliseconds : Nat) (replies : List Reply) : IO CommandLine.Outcome := do
  match CommandLine.next arguments environment replies with
  | .finished outcome => return outcome
  | .waiting request =>
    let reply ← deliver (CommandLine.postOf endpoint request) milliseconds
    converse arguments environment endpoint milliseconds (replies ++ [reply])

/-- The variables that are set. -/
def readEnvironment : IO CommandLine.Environment :=
  CommandLine.variableNames.filterMapM fun name => do
    return (← IO.getEnv name).map fun value =>
      (RawText.ofString name, RawText.ofString value)

end DryRun.Program

/-- Do what the command line asks for. -/
def main (arguments : List String) : IO UInt32 := do
  let arguments := arguments.map RawText.ofString
  let environment ← Program.readEnvironment
  let (endpoint, timeout) := match CommandLine.invocation arguments environment with
    | .run settings _ => (settings.endpoint.plain, settings.timeout)
    | _ => ([], Settings.defaultTimeout)
  let outcome ← Program.converse arguments environment endpoint
    (CommandLine.waitingTime timeout) []
  IO.print outcome.output
  outcome.reports.forM (IO.eprintln ·)
  return outcome.exitCode.toUInt32
