import DryRun.Chain.Account
import DryRun.Chain.Asset
import DryRun.Chain.Block
import DryRun.Chain.Contract

/-!
# Chain objects as documents

The view of a chain object is a document with all its fields, with what is computed from them, and
with the bytes that the object is written as.
-/

set_option autoImplicit false

/-! ## Making documents

Bytes are written in hexadecimal and amounts as numerals, since a reader of documents may not keep
large numbers exact. -/

namespace DryRun.Json

/-- A string. -/
def str (s : String) : Json := .ofString s

/-- Bytes, in hexadecimal. -/
def hex (bytes : Bytes) : Json := str (Hex.encode bytes)

/-- A natural number. -/
def num (n : Nat) : Json := .int n

/-- An integer, as a numeral. -/
def dec (value : Int) : Json := str (toString value)

/-- An object from its names, written with blanks between them, and the values. -/
def obj (names : String) (values : List Json) : Json :=
  .ofFields ((names.splitOn " ").zip values)

/-- An array of what is made of the elements of a list. -/
def arr {α : Type} (make : α → Json) (elements : List α) : Json :=
  .array (elements.map make)

end DryRun.Json

namespace DryRun

open Json

/-! ## Blocks -/

/-- The fields of a witness, and its account. -/
def Witness.view (w : Witness) : Json :=
  obj "invocation verification script_hash serialized"
    [hex w.invocation, hex w.verification, hex w.scriptHash, hex w.write]

/-- A header: the document that a node shows, its hash and its witness. -/
def Header.view (h : Header) : Json :=
  obj "dict hash witness serialized" [h.toJson, hex h.hash, h.witness.view, hex h.write]

/-- The usage and the data of an attribute. -/
def Attribute.view (a : Attribute) : Json :=
  obj "usage data" [num a.usage.toNat, hex a.data]

/-- The output that an input spends. -/
def Input.view (i : Input) : Json :=
  obj "prev_hash prev_index" [hex i.prevHash, num i.prevIndex.toNat]

/-- What an output pays, and to whom. -/
def Output.view (o : Output) : Json :=
  obj "asset_id amount script_hash" [hex o.assetId, dec o.amount.toInt, hex o.scriptHash]

/-- The fields that only transactions of one type have. -/
def Payload.view : Payload → Json
  | .miner nonce => obj "nonce" [num nonce.toNat]
  | .issue | .contract => .object []
  | .claim claims => obj "claims" [arr Input.view claims]
  | .enrollment key => obj "public_key" [hex key]
  | .register r =>
    obj "asset_type name amount precision owner admin"
      [num r.assetType.toNat, str r.name, dec r.amount.toInt, num r.precision.toNat, hex r.owner,
        hex r.admin]
  | .state descriptors =>
    let row (d : Descriptor) : Json :=
      obj "type key field value" [num d.kind.toNat, hex d.key, str d.field, hex d.value]
    obj "descriptors" [arr row descriptors]
  | .publish p =>
    obj ("script param_list return_type need_storage name code_version author email " ++
        "description")
      [hex p.script, hex p.paramList, num p.returnType.toNat, .bool p.needStorage, str p.name,
        str p.codeVersion, str p.author, str p.email, str p.description]
  | .invocation script gas => obj "script gas" [hex script, dec gas.toInt]

/-- A transaction, and its sizes with and without the witnesses. -/
def Transaction.view (t : Transaction) : Json :=
  obj ("type version hash is_invocation exclusive attributes inputs outputs witnesses raw_size " ++
      "unsigned_size")
    [num t.payload.typeByte.toNat, num t.version.toNat, hex t.hash, .bool t.script?.isSome,
      t.payload.view, arr Attribute.view t.attributes, arr Input.view t.inputs,
      arr Output.view t.outputs, arr Witness.view t.witnesses, num t.raw.length,
      num t.unsigned.length]

/-- A block: its header and its transactions. -/
def Block.view (b : Block) : Json :=
  obj "header hash transactions serialized"
    [b.header.view, hex b.hash, arr Transaction.view b.transactions, hex b.write]

/-! ## States -/

/-- A contract, its hash, and its properties also one by one. -/
def Contract.view (c : Contract) : Json :=
  obj ("script param_list return_type properties name code_version author email description " ++
      "script_hash has_storage has_dynamic_invoke is_payable serialized")
    [hex c.script, hex c.paramList, num c.returnType.toNat, num c.properties.toNat, str c.name,
      str c.codeVersion, str c.author, str c.email, str c.description, hex c.scriptHash,
      .bool c.hasStorage, .bool c.hasDynamicInvoke, .bool c.isPayable, hex c.write]

/-- An account; its balances are pairs of an asset and an amount. -/
def Account.view (a : Account) : Json :=
  obj "version script_hash is_frozen votes balances serialized"
    [num a.version.toNat, hex a.scriptHash, .bool a.isFrozen, arr hex a.votes,
      arr (fun (id, v) => .array [hex id, dec v.toInt]) a.balances.rows, hex a.write]

/-- An asset. -/
def Asset.view (a : Asset) : Json :=
  obj ("id asset_type name amount available precision fee_mode fee_address owner admin issuer " ++
      "expiration is_frozen serialized")
    [hex a.id, num a.assetType.toNat, str a.name, dec a.amount.toInt, dec a.available.toInt,
      num a.precision.toNat, num a.feeMode.toNat, hex a.feeAddress, hex a.owner, hex a.admin,
      hex a.issuer, num a.expiration.toNat, .bool a.isFrozen, hex a.write]

end DryRun
