import DryRun.Chain.Account
import DryRun.Chain.Asset
import DryRun.Chain.Block
import DryRun.Chain.Contract
import DryRun.Json.Reader
import DryRun.Node.Error
import DryRun.Node.Query

/-!
# Nodes

A node is what it would answer to each request.  `Link` is what a conversation with a node has
come to; asking adds a request to it and takes the answer apart.  Whatever the node answers, the
outcome is a value or one of the errors of `NodeError`.
-/

set_option autoImplicit false

namespace DryRun

/-- What comes back. -/
inductive Reply where
  /-- The body of an answer. -/
  | body (bytes : Bytes)
  /-- No answer, for a reason. -/
  | unavailable (reason : RawText)

/-- What a node would answer to each request. -/
abbrev Node := Request → Reply

/-- The requests sent so far, latest first. -/
structure Link where
  /-- The requests. -/
  sent : List Request

namespace Link

/-- A conversation that has not begun. -/
def fresh : Link := ⟨[]⟩

/-- How many requests were sent. -/
def count (link : Link) : Nat := link.sent.length

end Link

/-- A computation that may ask a node. -/
abbrev Asking := EStateM NodeError Link

namespace Node

/-! ## Answers -/

/-- The result inside the body of an answer. -/
def result (method : String) (body : Bytes) : Except NodeError Json :=
  match Json.ofBytes? body with
  | none => .error (.malformed method .notJson)
  | some (.object fields) =>
    match (Json.lookup "error" fields).getD .null with
    | .null =>
      match Json.lookup "result" fields with
      | some result => .ok result
      | none => .error (.malformed method .noResult)
    | .object error =>
      let code := (Json.lookup "code" error).getD (.int 0)
      let text := (Json.lookup "message" error).getD (.text [])
      .error (.remote code text.plain)
    | error => .error (.remote (.int 0) error.plain)
  | some _ => .error (.malformed method .notObject)

/-- Send a question and take the result out of the answer. -/
def ask (node : Node) (query : Query) : Asking Json := do
  let request : Request := ⟨(← get).count + 1, query⟩
  set (⟨request :: (← get).sent⟩ : Link)
  match node request with
  | .unavailable reason => throw (.unavailable reason)
  | .body bytes =>
    match result query.method bytes with
    | .ok value => return value
    | .error e => throw e

/-- A result as an unsigned integer; a number with a fraction part of zero is one, a truth value is
not. -/
def readUnsigned (method : String) (result : Json) : Except NodeError Nat :=
  let refused := NodeError.malformed method (.notUnsigned result)
  match result with
  | .int v => if v < 0 then .error refused else .ok v.toNat
  | .float (.infinite false) => .error .infinite
  | .float x =>
    match x.toInt? with
    | some v => if v < 0 then .error refused else .ok v.toNat
    | none => .error refused
  | _ => .error refused

/-- The bytes that a result spells in hexadecimal. -/
def readHex (result : Json) : Except FormatError Bytes :=
  match result with
  | .text t => Hex.read t
  | other => .error (.notHexText other.kindName)

/-- A result as an object, read from bytes; null means that there is none. -/
def readObject {α : Type} (method : String) (read : Reader α) (result : Json) :
    Except NodeError (Option α) :=
  match result with
  | .null => .ok none
  | result =>
    match readHex result >>= Reader.readAll read with
    | .ok value => .ok (some value)
    | .error cause => .error (.malformed method (.badForm cause))

/-- A result as a displayed hash; null means that there is none. -/
def readHash (method : String) (result : Json) : Except NodeError (Option Bytes) :=
  match result with
  | .null => .ok none
  | .text t =>
    match Hex.readDisplay t Reader.hash256Size with
    | .ok hash => .ok (some hash)
    | .error cause => .error (.malformed method (.badForm cause))
  | result => .error (.malformed method (.notText result))

/-- A result as bytes; null means no bytes. -/
def readBytes (method : String) (result : Json) : Except NodeError Bytes :=
  match result with
  | .null => .ok []
  | result =>
    match readHex result with
    | .ok bytes => .ok bytes
    | .error cause => .error (.malformed method (.badForm cause))

/-! ## Questions -/

variable (node : Node)

/-- Ask a question and read the result. -/
def query {α : Type} (query : Query) (read : String → Json → Except NodeError α) :
    Asking α := do
  match read query.method (← node.ask query) with
  | .ok value => return value
  | .error e => throw e

/-- The height of the chain. -/
def currentHeight : Asking Nat :=
  node.query .currentHeight readUnsigned

/-- The block of a hash. -/
def block (hash : Bytes) (height : Nat) : Asking (Option Block) :=
  node.query (.block hash height) (readObject · Block.read)

/-- The header of a hash. -/
def header (hash : Bytes) (height : Nat) : Asking (Option Header) :=
  node.query (.header hash height) (readObject · Header.read)

/-- The header of an index. -/
def headerAt (index : Nat) : Asking (Option Header) :=
  node.query (.headerAt index) (readObject · Header.read)

/-- The hash of the block of an index. -/
def hashAt (index : Nat) : Asking (Option Bytes) :=
  node.query (.hashAt index) readHash

/-- The contract of a name. -/
def contract (scriptHash : Bytes) (height : Nat) : Asking (Option Contract) :=
  node.query (.contract scriptHash height) (readObject · (Reader.record Contract.read))

/-- What a contract stores under a key; nothing is the empty byte string. -/
def storage (scriptHash key : Bytes) (height : Nat) : Asking Bytes :=
  node.query (.storage scriptHash key height) readBytes

/-- The transaction of a hash. -/
def transaction (hash : Bytes) (height : Nat) : Asking (Option Transaction) :=
  node.query (.transaction hash height) (readObject · Transaction.read)

/-- The index of the block of a transaction. -/
def transactionHeight (hash : Bytes) (height : Nat) : Asking (Option Nat) :=
  node.query (.transactionHeight hash height) fun method result =>
    match result with
    | .null => .ok none
    | result => some <$> readUnsigned method result

/-- The account of a name. -/
def account (scriptHash : Bytes) (height : Nat) : Asking (Option Account) :=
  node.query (.account scriptHash height) (readObject · (Reader.record Account.read))

/-- The asset of a name. -/
def asset (id : Bytes) (height : Nat) : Asking (Option Asset) :=
  node.query (.asset id height) (readObject · (Reader.record Asset.read))

end Node

end DryRun
