import DryRun.Machine.Price
import DryRun.Syscall.Chain
import DryRun.Syscall.Contract
import DryRun.Syscall.Runtime

/-!
# System calls

Every system call a run knows, with the names it is registered under and its price.
-/

set_option autoImplicit false

namespace DryRun

/-- A system call. -/
inductive Syscall where
  /-- Fetching objects. -/
  | blockchain (call : BlockchainCall)
  /-- Fields of headers. -/
  | header (call : HeaderCall)
  /-- Blocks. -/
  | block (call : BlockCall)
  /-- Transactions. -/
  | transaction (call : TransactionCall)
  /-- Parts of transactions. -/
  | part (call : PartCall)
  /-- Accounts. -/
  | account (call : AccountCall)
  /-- Assets. -/
  | asset (call : AssetCall)
  /-- Contracts. -/
  | contract (call : ContractCall)
  /-- The run. -/
  | runtime (call : RuntimeCall)
  /-- The frames. -/
  | engine (call : EngineCall)
  /-- Storage. -/
  | storage (call : StorageCall)
  /-- Iterators. -/
  | iterator (call : IteratorCall)
deriving DecidableEq

namespace Syscall

/-- Do what a system call says. -/
def run (setting : Setting) : Syscall → Exec World Unit
  | .blockchain call => Exec.blockchain setting call
  | .header call => Exec.header call
  | .block call => Exec.block call
  | .transaction call => Exec.transaction setting call
  | .part call => Exec.part call
  | .account call => Exec.account setting call
  | .asset call => Exec.asset setting call
  | .contract call => Exec.contract setting call
  | .runtime call => Exec.runtime setting call
  | .engine call => Exec.engine call
  | .storage call => Exec.storage setting call
  | .iterator call => Exec.iterator call

/-! ## Names and prices -/

/-- Registered under the current names only. -/
def current : List NameSpace := [.system]

/-- Registered under the older names only. -/
def older : List NameSpace := [.neo]

/-- Registered under both. -/
def both : List NameSpace := [.system, .neo]

/-- The methods, what they do, their prices and their name spaces. -/
def methods : List (String × Syscall × Option Int × List NameSpace) :=
  [("Blockchain.GetHeight", .blockchain .getHeight, some 1, both),
   ("Blockchain.GetBlock", .blockchain .getBlock, some 200, both),
   ("Blockchain.GetHeader", .blockchain .getHeader, some 100, both),
   ("Blockchain.GetContract", .blockchain .getContract, some 100, both),
   ("Blockchain.GetTransaction", .blockchain .getTransaction, some 100, both),
   ("Blockchain.GetTransactionHeight", .blockchain .getTransactionHeight, some 100, both),
   ("Blockchain.GetAccount", .blockchain .getAccount, some 100, older),
   ("Blockchain.GetAsset", .blockchain .getAsset, some 100, older),
   ("Blockchain.GetValidators", .blockchain .getValidators, some 200, older),
   ("Header.GetHash", .header .getHash, some 1, both),
   ("Header.GetIndex", .header .getIndex, some 1, both),
   ("Header.GetPrevHash", .header .getPrevHash, some 1, both),
   ("Header.GetTimestamp", .header .getTimestamp, some 1, both),
   ("Header.GetVersion", .header .getVersion, some 1, older),
   ("Header.GetMerkleRoot", .header .getMerkleRoot, some 1, older),
   ("Header.GetConsensusData", .header .getConsensusData, some 1, older),
   ("Header.GetNextConsensus", .header .getNextConsensus, some 1, older),
   ("Block.GetTransactionCount", .block .getTransactionCount, some 1, both),
   ("Block.GetTransactions", .block .getTransactions, some 1, both),
   ("Block.GetTransaction", .block .getTransaction, some 1, both),
   ("Transaction.GetHash", .transaction .getHash, some 1, both),
   ("Transaction.GetType", .transaction .getType, some 1, older),
   ("Transaction.GetAttributes", .transaction .getAttributes, some 1, older),
   ("Transaction.GetInputs", .transaction .getInputs, some 1, older),
   ("Transaction.GetOutputs", .transaction .getOutputs, some 1, older),
   ("Transaction.GetReferences", .transaction .getReferences, some 200, older),
   ("Transaction.GetUnspentCoins", .transaction .getUnspentCoins, some 200, older),
   ("Transaction.GetWitnesses", .transaction .getWitnesses, some 200, older),
   ("InvocationTransaction.GetScript", .transaction .getScript, some 1, older),
   ("Attribute.GetUsage", .part .attributeUsage, some 1, older),
   ("Attribute.GetData", .part .attributeData, some 1, older),
   ("Input.GetHash", .part .inputHash, some 1, older),
   ("Input.GetIndex", .part .inputIndex, some 1, older),
   ("Output.GetAssetId", .part .outputAssetId, some 1, older),
   ("Output.GetValue", .part .outputValue, some 1, older),
   ("Output.GetScriptHash", .part .outputScriptHash, some 1, older),
   ("Witness.GetVerificationScript", .part .witnessScript, some 100, older),
   ("Account.GetScriptHash", .account .getScriptHash, some 1, older),
   ("Account.GetVotes", .account .getVotes, some 1, older),
   ("Account.GetBalance", .account .getBalance, some 1, older),
   ("Account.IsStandard", .account .isStandard, some 100, older),
   ("Asset.Create", .asset .create, none, older),
   ("Asset.Renew", .asset .renew, none, older),
   ("Asset.GetAssetId", .asset .getAssetId, some 1, older),
   ("Asset.GetAssetType", .asset .getAssetType, some 1, older),
   ("Asset.GetAmount", .asset .getAmount, some 1, older),
   ("Asset.GetAvailable", .asset .getAvailable, some 1, older),
   ("Asset.GetPrecision", .asset .getPrecision, some 1, older),
   ("Asset.GetOwner", .asset .getOwner, some 1, older),
   ("Asset.GetAdmin", .asset .getAdmin, some 1, older),
   ("Asset.GetIssuer", .asset .getIssuer, some 1, older),
   ("Contract.Create", .contract .create, none, older),
   ("Contract.Migrate", .contract .migrate, none, older),
   ("Contract.Destroy", .contract .destroy, some 1, both),
   ("Contract.GetScript", .contract .getScript, some 1, older),
   ("Contract.IsPayable", .contract .isPayable, some 1, older),
   ("Contract.GetStorageContext", .contract .getStorageContext, some 1, both),
   ("Runtime.CheckWitness", .runtime .checkWitness, some 200, both),
   ("Runtime.GetTime", .runtime .getTime, some 1, both),
   ("Runtime.GetTrigger", .runtime .getTrigger, some 1, both),
   ("Runtime.Log", .runtime .log, some 1, both),
   ("Runtime.Notify", .runtime .notify, some 1, both),
   ("Runtime.Serialize", .runtime .serialize, some 1, both),
   ("Runtime.Deserialize", .runtime .deserialize, some 1, both),
   ("Runtime.Platform", .runtime .platform, some 1, current),
   ("ExecutionEngine.GetScriptContainer", .engine .getScriptContainer, some 1, current),
   ("ExecutionEngine.GetExecutingScriptHash", .engine .getExecutingScriptHash, some 1, current),
   ("ExecutionEngine.GetCallingScriptHash", .engine .getCallingScriptHash, some 1, current),
   ("ExecutionEngine.GetEntryScriptHash", .engine .getEntryScriptHash, some 1, current),
   ("Storage.GetContext", .storage .getContext, some 1, both),
   ("Storage.GetReadOnlyContext", .storage .getReadOnlyContext, some 1, both),
   ("Storage.Get", .storage .get, some 100, both),
   ("Storage.Put", .storage .put, none, both),
   ("Storage.PutEx", .storage .putEx, none, current),
   ("Storage.Delete", .storage .delete, some 100, both),
   ("Storage.Find", .storage .find, some 1, older),
   ("StorageContext.AsReadOnly", .storage .asReadOnly, some 1, both),
   ("Enumerator.Create", .iterator .createEnumerator, some 1, older),
   ("Enumerator.Next", .iterator .next, some 1, older),
   ("Enumerator.Value", .iterator .value, some 1, older),
   ("Enumerator.Concat", .iterator .concatEnumerators, some 1, older),
   ("Iterator.Create", .iterator .createIterator, some 1, older),
   ("Iterator.Key", .iterator .key, some 1, older),
   ("Iterator.Keys", .iterator .keys, some 1, older),
   ("Iterator.Values", .iterator .values, some 1, older),
   ("Iterator.Concat", .iterator .concatIterators, some 1, older),
   ("Iterator.Next", .iterator .next, some 1, older),
   ("Iterator.Value", .iterator .value, some 1, older)]

/-- The registry of all system calls. -/
def registry : Registry Syscall :=
  Registry.filledBy <| methods.forM fun (method, call, price, spaces) =>
    Registry.register method call price spaces

end Syscall

/-! ## The host of a run -/

/-- A host that resolves contracts and system calls in a setting and prices instructions by the
registry. -/
def Setting.host (setting : Setting) (gasLimit : GasLimit) : Host World :=
  { contract := Exec.findCallee setting
    price := some (Price.amount Syscall.registry)
    syscall := fun id => (Syscall.registry.find? id).map fun entry => entry.handler.run setting
    gasLimit
    message := none }

end DryRun
