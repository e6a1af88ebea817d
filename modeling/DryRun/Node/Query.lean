import DryRun.Hex
import DryRun.Json.Writer

/-!
# Questions to a node

A node answers questions about the chain as it was at a height.  A question is sent as a document
that names a method and its parameters, and carries a number that counts the questions.
-/

set_option autoImplicit false

namespace DryRun

/-- A question. -/
inductive Query where
  /-- How high is the chain? -/
  | currentHeight
  /-- The block of a hash. -/
  | block (hash : Bytes) (height : Nat)
  /-- The header of a hash. -/
  | header (hash : Bytes) (height : Nat)
  /-- The header of an index. -/
  | headerAt (index : Nat)
  /-- The hash of the block of an index. -/
  | hashAt (index : Nat)
  /-- The contract of a name. -/
  | contract (scriptHash : Bytes) (height : Nat)
  /-- What a contract stores under a key. -/
  | storage (scriptHash key : Bytes) (height : Nat)
  /-- The transaction of a hash. -/
  | transaction (hash : Bytes) (height : Nat)
  /-- The index of the block of a transaction. -/
  | transactionHeight (hash : Bytes) (height : Nat)
  /-- The account of a name. -/
  | account (scriptHash : Bytes) (height : Nat)
  /-- The asset of a name. -/
  | asset (id : Bytes) (height : Nat)
deriving DecidableEq

namespace Query

/-- The method that answers a question. -/
def method : Query → String
  | .currentHeight => "get_count_in_uint64"
  | .block .. => "get_block_by_hash_in_hex"
  | .header .. => "get_header_by_hash_in_hex"
  | .headerAt _ => "get_header_by_height_in_hex"
  | .hashAt _ => "get_hash_by_height_in_hex"
  | .contract .. => "get_contract_by_hash_height_in_hex"
  | .storage .. => "get_storage_by_dbkey_height_in_hex"
  | .transaction .. => "get_transaction_by_hash_in_hex"
  | .transactionHeight .. => "get_transaction_height_by_hash_in_uint64"
  | .account .. => "get_account_by_hash_height_in_hex"
  | .asset .. => "get_asset_by_hash_height_in_hex"

/-- The name under which a node stores what a contract stores under a key. -/
def storageKey (scriptHash key : Bytes) : String :=
  Hex.display scriptHash ++ Hex.encode key

/-- The parameters for an object of a hash. -/
def hashParams (hash : Bytes) (height : Nat) : Json :=
  .ofFields [("Hash", .ofString (Hex.display hash)), ("Height", .int height)]

/-- The parameters of a question. -/
def params : Query → Json
  | .currentHeight => .object []
  | .block hash height => hashParams hash height
  | .header hash height => hashParams hash height
  | .headerAt index => .ofFields [("Height", .int index)]
  | .hashAt index => .ofFields [("Height", .int index)]
  | .contract scriptHash height => hashParams scriptHash height
  | .storage scriptHash key height =>
    .ofFields [("DBKey", .ofString (storageKey scriptHash key)), ("Height", .int height)]
  | .transaction hash height => hashParams hash height
  | .transactionHeight hash height => hashParams hash height
  | .account scriptHash height => hashParams scriptHash height
  | .asset id height => hashParams id height

end Query

/-- A question with its number. -/
structure Request where
  /-- The number, from one on. -/
  id : Nat
  /-- The question. -/
  query : Query
deriving DecidableEq

/-- The document that asks the question. -/
def Request.toJson (request : Request) : Json :=
  .ofFields
    [("jsonrpc", .ofString "2.0"), ("method", .ofString request.query.method),
     ("params", request.query.params), ("id", .int request.id)]

/-- The text that is sent. -/
def Request.body (request : Request) : String :=
  Json.render Json.spaced request.toJson

end DryRun
