import DryRun.World

/-!
# System calls on chain data

The calls that fetch blocks, headers, transactions, accounts, assets and contracts from the node,
and those that read their fields.
-/

set_option autoImplicit false

namespace DryRun

/-- Calls that fetch objects. -/
inductive BlockchainCall where
  /-- The height of the run. -/
  | getHeight
  /-- A block by index or hash. -/
  | getBlock
  /-- A header by index or hash. -/
  | getHeader
  /-- A contract by name. -/
  | getContract
  /-- A transaction by hash. -/
  | getTransaction
  /-- The index of the block of a transaction. -/
  | getTransactionHeight
  /-- An account by name. -/
  | getAccount
  /-- An asset by name. -/
  | getAsset
  /-- The validators. -/
  | getValidators
deriving DecidableEq

/-- Fields of a header, or of the header of a block. -/
inductive HeaderCall where
  /-- The hash. -/
  | getHash
  /-- The height. -/
  | getIndex
  /-- The hash of the block before. -/
  | getPrevHash
  /-- The time. -/
  | getTimestamp
  /-- The version. -/
  | getVersion
  /-- The root of the transaction hashes. -/
  | getMerkleRoot
  /-- The random number. -/
  | getConsensusData
  /-- The next validators. -/
  | getNextConsensus
deriving DecidableEq

/-- Calls on blocks. -/
inductive BlockCall where
  /-- The number of transactions. -/
  | getTransactionCount
  /-- All transactions. -/
  | getTransactions
  /-- One transaction. -/
  | getTransaction
deriving DecidableEq

/-- Calls on transactions. -/
inductive TransactionCall where
  /-- The hash. -/
  | getHash
  /-- The type. -/
  | getType
  /-- The attributes. -/
  | getAttributes
  /-- The inputs. -/
  | getInputs
  /-- The outputs. -/
  | getOutputs
  /-- The outputs that are spent. -/
  | getReferences
  /-- The outputs that are not spent. -/
  | getUnspentCoins
  /-- The witnesses. -/
  | getWitnesses
  /-- The script of an invocation. -/
  | getScript
deriving DecidableEq

/-- Fields of parts of transactions. -/
inductive PartCall where
  /-- What an attribute is for. -/
  | attributeUsage
  /-- The data of an attribute. -/
  | attributeData
  /-- The transaction an input refers to. -/
  | inputHash
  /-- The output an input refers to. -/
  | inputIndex
  /-- The asset of an output. -/
  | outputAssetId
  /-- The amount of an output. -/
  | outputValue
  /-- The account of an output. -/
  | outputScriptHash
  /-- The script that checks a witness. -/
  | witnessScript
deriving DecidableEq

/-- Calls on accounts. -/
inductive AccountCall where
  /-- The name. -/
  | getScriptHash
  /-- The votes. -/
  | getVotes
  /-- The balance in an asset. -/
  | getBalance
  /-- Does an account only check signatures? -/
  | isStandard
deriving DecidableEq

/-- Calls on assets. -/
inductive AssetCall where
  /-- A new asset. -/
  | create
  /-- A longer registration. -/
  | renew
  /-- The name. -/
  | getAssetId
  /-- The kind. -/
  | getAssetType
  /-- The total amount. -/
  | getAmount
  /-- The amount issued. -/
  | getAvailable
  /-- The number of decimals. -/
  | getPrecision
  /-- The owner. -/
  | getOwner
  /-- The administrator. -/
  | getAdmin
  /-- The issuer. -/
  | getIssuer
deriving DecidableEq

namespace Exec

/-! ## Fetching -/

/-- The greatest index of a block. -/
def maxBlockIndex : Int := 0xFFFFFFFF

/-- The most bytes of an element that is the index of a block. -/
def maxIndexSize : Nat := 5

/-- Pop the index or the hash of a block, and find the hash.  Blocks above the height of the run do
not exist. -/
def popBlockHash (setting : Setting) : Exec World (Option Bytes) := do
  let data ← popBytes
  if data.length ≤ maxIndexSize then
    let index ← readInteger data
    if index < 0 ∨ index > maxBlockIndex then refuse (.blockIndex index)
    if index > setting.height then return none
    asking (setting.node.hashAt index.toNat)
  else if data.length = Reader.hash256Size then return some data
  else refuse (.size (.blockElement data.length))

/-- Fetch an object. -/
def blockchain (setting : Setting) : BlockchainCall → Exec World Unit
  | .getHeight => pushInt setting.height
  | .getBlock => do
    match ← popBlockHash setting with
    | some hash => pushOptional ((← asking (setting.node.block hash setting.height)).map .block)
    | none => pushBytes []
  | .getHeader => do
    match ← popBlockHash setting with
    | some hash => pushOptional ((← asking (setting.node.header hash setting.height)).map .header)
    | none => pushBytes []
  | .getContract => do
    match ← findContract setting (← popHash Reader.hash160Size) with
    | some found => pushContract found
    | none => pushBytes []
  | .getTransaction => do
    let hash ← popHash Reader.hash256Size
    pushOptional ((← asking (setting.node.transaction hash setting.height)).map .transaction)
  | .getTransactionHeight => do
    let hash ← popHash Reader.hash256Size
    match ← asking (setting.node.transactionHeight hash setting.height) with
    | some height => pushInt height
    | none => pushInt (-1)
  | .getAccount => do
    let scriptHash ← popHash Reader.hash160Size
    let found ← asking (setting.node.account scriptHash setting.height)
    pushObject (.account (found.getD (.fresh scriptHash)))
  | .getAsset => do
    let id ← popHash Reader.hash256Size
    pushOptional ((← asking (setting.node.asset id setting.height)).map .asset)
  | .getValidators =>
    refuse (.unsupported "Blockchain.GetValidators" "the node interface exposes no validator set")

/-! ## Headers and blocks -/

/-- Pop a header, or the header of a block. -/
def popHeader : Exec World Header :=
  popObject "BlockHeader" fun
    | .header h => some h
    | .block b => some b.header
    | _ => none

/-- Push a field of a header. -/
def header (call : HeaderCall) : Exec World Unit := do
  let h ← popHeader
  match call with
  | .getHash => pushBytes h.hash
  | .getIndex => pushInt h.index.toNat
  | .getPrevHash => pushBytes h.prevHash
  | .getTimestamp => pushInt h.timestamp.toNat
  | .getVersion => pushInt h.version.toNat
  | .getMerkleRoot => pushBytes h.merkleRoot
  | .getConsensusData => pushInt h.consensusData.toNat
  | .getNextConsensus => pushBytes h.nextConsensus

/-- Pop a block. -/
def popBlock : Exec World (Handle × Block) :=
  popHandle "Block" fun
    | .block b => some b
    | _ => none

/-- Push what a block has. -/
def block (call : BlockCall) : Exec World Unit := do
  let (handle, b) ← popBlock
  match call with
  | .getTransactionCount => pushInt b.transactions.length
  | .getTransactions => pushParts handle .transaction b.transactions.length
  | .getTransaction =>
    let index ← popInt
    if index < 0 ∨ index ≥ b.transactions.length then refuse (.transactionIndex index)
    push (.handle { handle with path := handle.path ++ [.transaction index.toNat] })

/-! ## Transactions -/

/-- Pop a transaction. -/
def popTransaction : Exec World (Handle × Transaction) :=
  popHandle "Transaction" fun
    | .transaction t => some t
    | _ => none

/-- The output an input refers to, as a part of a transaction fetched for it. -/
def fetchReference (setting : Setting) (input : Input) : Exec World Item := do
  match ← asking (setting.node.transaction input.prevHash setting.height) with
  | none => refuse (.missingReference input.prevHash)
  | some previous =>
    let index := input.prevIndex.toNat
    if index ≥ previous.outputs.length then refuse (.outputIndex index)
    let handle ← onHeap (·.makeObject (.transaction previous))
    return .handle { handle with path := [.output index] }

/-- The outputs that the inputs of a transaction refer to. -/
def fetchReferences (setting : Setting) (t : Transaction) : Exec World (List Item) := do
  if t.inputs.length > maxCollectionSize then refuse (.tooManyInputs t.inputs.length)
  t.inputs.mapM (fetchReference setting)

/-- The script of a transaction that runs one. -/
def invocationScript (t : Transaction) : Exec World Bytes :=
  match t.script? with
  | some script => pure script
  | none => refuse (.wrongType "InvocationTransaction" "Transaction")

/-- Push what a transaction has. -/
def transaction (setting : Setting) : TransactionCall → Exec World Unit
  | .getHash => do pushBytes (← popTransaction).2.hash
  | .getType => do pushInt (← popTransaction).2.payload.typeByte.toNat
  | .getAttributes => do
    let (handle, t) ← popTransaction
    pushParts handle .attr t.attributes.length
  | .getInputs => do
    let (handle, t) ← popTransaction
    pushParts handle .input t.inputs.length
  | .getOutputs => do
    let (handle, t) ← popTransaction
    pushParts handle .output t.outputs.length
  | .getWitnesses => do
    let (handle, t) ← popTransaction
    pushParts handle .witness t.witnesses.length
  | .getReferences => do
    let (_, t) ← popTransaction
    pushSequence .array (← fetchReferences setting t)
  | .getUnspentCoins =>
    refuse (.unsupported "Transaction.GetUnspentCoins" "the node interface exposes no UTXO index")
  | .getScript => do
    let (_, t) ← popTransaction
    pushBytes (← invocationScript t)

/-- Pop an attribute of a transaction. -/
def popAttribute : Exec World Attribute :=
  popObject "TransactionAttribute" fun
    | .attr a => some a
    | _ => none

/-- Pop an input. -/
def popInput : Exec World Input :=
  popObject "TransactionInput" fun
    | .input i => some i
    | _ => none

/-- Pop an output. -/
def popOutput : Exec World Output :=
  popObject "TransactionOutput" fun
    | .output o => some o
    | _ => none

/-- Pop a witness. -/
def popWitness : Exec World Witness :=
  popObject "Witness" fun
    | .witness w => some w
    | _ => none

/-- Push a field of a part of a transaction. -/
def part : PartCall → Exec World Unit
  | .attributeUsage => do pushInt (← popAttribute).usage.toNat
  | .attributeData => do pushBytes (← popAttribute).data
  | .inputHash => do pushBytes (← popInput).prevHash
  | .inputIndex => do pushInt (← popInput).prevIndex.toNat
  | .outputAssetId => do pushBytes (← popOutput).assetId
  | .outputValue => do pushInt (← popOutput).amount.toInt
  | .outputScriptHash => do pushBytes (← popOutput).scriptHash
  | .witnessScript => do pushBytes (← popWitness).verification

/-! ## Accounts -/

/-- Pop an account. -/
def popAccount : Exec World Account :=
  popObject "AccountState" fun
    | .account a => some a
    | _ => none

/-- Push what an account has. -/
def account (setting : Setting) : AccountCall → Exec World Unit
  | .getScriptHash => do pushBytes (← popAccount).scriptHash
  | .getVotes => do
    let a ← popAccount
    pushSequence .array (a.votes.map .ofBytes)
  | .getBalance => do
    let a ← popAccount
    let assetId ← popHash Reader.hash256Size
    pushInt (a.balance assetId).toInt
  | .isStandard => do
    match ← findContract setting (← popHash Reader.hash160Size) with
    | some found => pushBool (Standard.isStandard found.contract.script)
    | none => pushBool true

/-! ## Assets -/

/-- Pop an asset. -/
def popAsset : Exec World (Handle × Asset) :=
  popHandle "AssetState" fun
    | .asset a => some a
    | _ => none

/-- Renew the registration of an asset.  Every handle to the same object sees it. -/
def renewAsset (setting : Setting) : Exec World Unit := do
  let (handle, asset) ← popAsset
  let years ← popInt
  if years < 0 ∨ years > 0xFF then refuse (.renewalYears years)
  let renewed := asset.renew setting.height years.toNat
  modifyHeap (·.setObject handle.root (.asset renewed))
  pushInt renewed.expiration.toNat

/-- Push what an asset has, or renew it. -/
def asset (setting : Setting) : AssetCall → Exec World Unit
  | .create =>
    refuse (.unsupported "Asset.Create"
      "assets can only be registered by an invocation transaction")
  | .renew => renewAsset setting
  | .getAssetId => do pushBytes (← popAsset).2.id
  | .getAssetType => do pushInt (← popAsset).2.assetType.toNat
  | .getAmount => do pushInt (← popAsset).2.amount.toInt
  | .getAvailable => do pushInt (← popAsset).2.available.toInt
  | .getPrecision => do pushInt (← popAsset).2.precision.toNat
  | .getOwner => do pushBytes (← popAsset).2.owner
  | .getAdmin => do pushBytes (← popAsset).2.admin
  | .getIssuer => do pushBytes (← popAsset).2.issuer

end Exec

end DryRun
