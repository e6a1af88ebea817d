import DryRun.Proofs.Machine.Commutes
import DryRun.Proofs.Syscall.Control

/-!
# System calls do not look at what was asked before

A run adds to a conversation with the node, and the number of a request is all in which what was
asked before shows.  If the node does not look at the numbers (`Node.IgnoresNumbers`) nobody does:
every system call commutes with putting other requests in front of the conversation
(`World.after`), and so does the host of a run (`Setting.host_commutes`).

Everything that a system call reads of the world besides the conversation is the same with other
requests in front, by definition; so only the questions need an argument (`continues_query`).
-/

set_option autoImplicit false

namespace DryRun

/-! ## Conversations after conversations -/

/-- A request before which `k` others were sent. -/
def Request.later (k : Nat) (request : Request) : Request := { request with id := request.id + k }

namespace Link

/-- A conversation that begins where another one has come to. -/
def after (base link : Link) : Link := ⟨link.sent.map (·.later base.count) ++ base.sent⟩

variable (base link : Link)

theorem count_after : (base.after link).count = link.count + base.count := by
  rw [count, after, List.length_append, List.length_map]
  rfl

theorem asked_after (query : Query) :
    (base.after link).asked query = base.after (link.asked query) := by
  rw [asked, count_after, Nat.add_right_comm]
  rfl

end Link

/-- A world whose conversation began where another one had come to. -/
def World.after (base : Link) (w : World) : World := { w with link := base.after w.link }

/-- The node's answer depends on the method and the parameters of a request only. -/
def Node.IgnoresNumbers (node : Node) : Prop :=
  ∀ request request' : Request, request.query.method = request'.query.method →
    request.query.params = request'.query.params → node request = node request'

/-- What is asked and answered does not depend on what was asked before. -/
def Continues {α : Type} (base : Link) (question : Asking α) : Prop :=
  ∀ link, question (base.after link) =
    match question link with
    | .ok a link' => .ok a (base.after link')
    | .error cause link' => .error cause (base.after link')

variable {α : Type} {base : Link} {setting : Setting}

theorem continues_pure (a : α) : Continues base (pure a : Asking α) := fun _ => rfl

theorem Node.outcome_congr {node : Node} (h : node.IgnoresNumbers) (id id' : Nat) (query : Query)
    (read : String → Json → Except NodeError α) :
    node.outcome ⟨id, query⟩ read = node.outcome ⟨id', query⟩ read := by
  rw [outcome, outcome, h ⟨id, query⟩ ⟨id', query⟩ rfl rfl]

/-- **A question to a node that ignores numbers** does not depend on what was asked before. -/
theorem continues_query {node : Node} (h : node.IgnoresNumbers) (query : Query)
    (read : String → Json → Except NodeError α) : Continues base (node.query query read) := by
  intro link
  rw [Node.query_eq, Node.query_eq, Node.outcome_congr h _ (link.count + 1), Link.asked_after]
  cases node.outcome ⟨link.count + 1, query⟩ read with
  | ok a => rfl
  | error cause => rfl

namespace Exec

/-! ## Asking, announcing and finding objects -/

theorem commutes_refuse (cause : SyscallFault) :
    Commutes (World.after base) (refuse cause : Exec World α) := fun _ => rfl

theorem commutes_asking {question : Asking α} (h : Continues base question) :
    Commutes (World.after base) (asking question) := by
  intro m
  rw [asking_eq, asking_eq]
  show (match question (base.after m.world.link) with
    | .ok a link => _
    | .error cause link => _ : EStateM.Result Fault (Machine World) α) = _
  rw [h m.world.link]
  cases question m.world.link with
  | ok a link => rfl
  | error cause link => rfl

theorem commutes_announce (event : Event) : Commutes (World.after base) (announce event) :=
  fun _ => rfl

theorem commutes_executing : Commutes (World.after base) executing := fun _ => rfl

theorem commutes_popHandle (expected : String) (select : Object → Option α) :
    Commutes (World.after base) (popHandle expected select) := by
  rw [popHandle]
  refine commutes_pop.bind fun item => .look (fun _ => rfl) fun m => ?_
  dsimp only
  split
  · exact commutes_pure _
  · exact commutes_refuse _

theorem commutes_popObject (expected : String) (select : Object → Option α) :
    Commutes (World.after base) (popObject expected select) :=
  (commutes_popHandle expected select).map _

theorem commutes_popHash (size : Nat) : Commutes (World.after base) (popHash size) :=
  commutes_popBytes.bind fun _ => (commutes_refuse _).guarded fun _ => commutes_pure _

theorem commutes_pushOptional (object : Option Object) :
    Commutes (World.after base) (pushOptional object) := by
  cases object with
  | some object => exact commutes_pushObject object
  | none => exact commutes_pushBytes _

theorem commutes_pushParts (handle : Handle) (part : Nat → Part) (count : Nat) :
    Commutes (World.after base) (pushParts handle part count) :=
  (commutes_refuse _).guarded fun _ => commutes_pushSequence _ _

theorem commutes_pushContract (found : FoundContract) :
    Commutes (World.after base) (pushContract found) := by
  cases found with
  | deployed d => exact commutes_push _
  | remote c => exact commutes_pushObject _

/-! ## Objects and their fields -/

theorem commutes_header (call : HeaderCall) : Commutes (World.after base) (header call) := by
  refine (commutes_popObject _ _).bind fun h => ?_
  cases call with
  | getHash | getPrevHash | getMerkleRoot | getNextConsensus => exact commutes_pushBytes _
  | getIndex | getTimestamp | getVersion | getConsensusData => exact commutes_pushInt _

theorem commutes_block (call : BlockCall) : Commutes (World.after base) (block call) := by
  refine (commutes_popHandle _ _).bind fun found => ?_
  cases call with
  | getTransactionCount => exact commutes_pushInt _
  | getTransactions => exact commutes_pushParts _ _ _
  | getTransaction =>
    exact commutes_popInt.bind fun _ => (commutes_refuse _).guarded fun _ => commutes_push _

theorem commutes_part (call : PartCall) : Commutes (World.after base) (part call) := by
  cases call with
  | attributeUsage | inputIndex | outputValue =>
    exact (commutes_popObject _ _).bind fun _ => commutes_pushInt _
  | attributeData | inputHash | outputAssetId | outputScriptHash | witnessScript =>
    exact (commutes_popObject _ _).bind fun _ => commutes_pushBytes _

theorem commutes_renewAsset : Commutes (World.after base) (renewAsset setting) :=
  (commutes_popHandle _ _).bind fun _ => commutes_popInt.bind fun _ =>
    (commutes_refuse _).guarded fun _ => (commutes_modifyHeap _).bind fun _ => commutes_pushInt _

theorem commutes_asset (call : AssetCall) : Commutes (World.after base) (asset setting call) := by
  cases call with
  | create => exact commutes_refuse _
  | renew => exact commutes_renewAsset
  | getAssetId | getOwner | getAdmin | getIssuer =>
    exact (commutes_popHandle _ _).bind fun _ => commutes_pushBytes _
  | getAssetType | getAmount | getAvailable | getPrecision =>
    exact (commutes_popHandle _ _).bind fun _ => commutes_pushInt _

/-! ## The run, its frames and iterators -/

theorem commutes_engine (call : EngineCall) : Commutes (World.after base) (engine call) := by
  cases call with
  | getScriptContainer => exact commutes_refuse _
  | getExecutingScriptHash => exact commutes_executing.bind fun _ => commutes_pushBytes _
  | getCallingScriptHash | getEntryScriptHash =>
    exact .look (fun _ => rfl) fun _ => commutes_pushBytes _

theorem commutes_popIterator (keyed : Bool) : Commutes (World.after base) (popIterator keyed) :=
  (commutes_popHandle _ _).bind fun _ => commutes_pure _

theorem commutes_concatIterators (keyed : Bool) :
    Commutes (World.after base) (concatIterators keyed) :=
  (commutes_popIterator _).bind fun _ => (commutes_popIterator _).bind fun _ =>
    commutes_pushObject _

theorem commutes_iterator (call : IteratorCall) : Commutes (World.after base) (iterator call) := by
  cases call with
  | createEnumerator | createIterator =>
    exact commutes_pop.bind fun _ => .look (fun _ => rfl) fun _ =>
      (commutes_liftItem _).bind fun _ => commutes_pushObject _
  | next =>
    exact (commutes_popIterator _).bind fun _ => (commutes_onHeap _).bind fun _ =>
      commutes_pushBool _
  | value | key =>
    exact (commutes_popIterator _).bind fun _ => .look (fun _ => rfl) fun _ =>
      (commutes_liftItem _).bind commutes_push
  | concatEnumerators | concatIterators => exact commutes_concatIterators _
  | keys | values => exact (commutes_popIterator _).bind fun _ => commutes_pushObject _

/-! ## Calls that ask the node -/

section

variable (ignores : setting.node.IgnoresNumbers)

include ignores

theorem commutes_asked (query : Query) (read : String → Json → Except NodeError α) :
    Commutes (World.after base) (asking (setting.node.query query read)) :=
  commutes_asking (continues_query ignores query read)

theorem commutes_findContract (scriptHash : Bytes) :
    Commutes (World.after base) (findContract setting scriptHash) := by
  refine .look (fun _ => rfl) fun m => ?_
  split
  · exact commutes_pure _
  · exact (commutes_asked ignores _ _).bind fun _ => commutes_pure _

theorem commutes_findCallee (scriptHash : Bytes) :
    Commutes (World.after base) (findCallee setting scriptHash) :=
  (commutes_findContract ignores scriptHash).bind fun _ => commutes_pure _

theorem commutes_popBlockHash : Commutes (World.after base) (popBlockHash setting) := by
  refine commutes_popBytes.bind fun data => .ite ?_ ((commutes_pure _).ite (commutes_refuse _))
  refine (commutes_liftItem _).bind fun index => (commutes_refuse _).guarded fun _ => ?_
  exact (commutes_pure _).ite (commutes_asked ignores _ _)

theorem commutes_blockchain (call : BlockchainCall) :
    Commutes (World.after base) (blockchain setting call) := by
  have fetched {β : Type} (query : Query) (read : String → Json → Except NodeError (Option β))
      (wrap : β → Object) : Commutes (World.after base)
        (do pushOptional ((← asking (setting.node.query query read)).map wrap)) :=
    (commutes_asked ignores _ _).bind fun _ => commutes_pushOptional _
  cases call with
  | getHeight => exact commutes_pushInt _
  | getBlock | getHeader =>
    refine (commutes_popBlockHash ignores).bind fun hash => ?_
    cases hash with
    | some hash => exact fetched _ _ _
    | none => exact commutes_pushBytes _
  | getContract =>
    refine (commutes_popHash _).bind fun hash =>
      (commutes_findContract ignores hash).bind fun found => ?_
    cases found with
    | some found => exact commutes_pushContract found
    | none => exact commutes_pushBytes _
  | getTransaction | getAsset => exact (commutes_popHash _).bind fun _ => fetched _ _ _
  | getTransactionHeight =>
    refine (commutes_popHash _).bind fun hash => (commutes_asked ignores _ _).bind fun height => ?_
    cases height with
    | some height => exact commutes_pushInt _
    | none => exact commutes_pushInt _
  | getAccount =>
    exact (commutes_popHash _).bind fun _ => (commutes_asked ignores _ _).bind fun _ =>
      commutes_pushObject _
  | getValidators => exact commutes_refuse _

theorem commutes_fetchReference (input : Input) :
    Commutes (World.after base) (fetchReference setting input) := by
  refine (commutes_asked ignores _ _).bind fun previous => ?_
  cases previous with
  | none => exact commutes_refuse _
  | some previous =>
    exact (commutes_refuse _).guarded fun _ => (commutes_onHeap _).bind fun _ => commutes_pure _

theorem commutes_transaction (call : TransactionCall) :
    Commutes (World.after base) (transaction setting call) := by
  cases call with
  | getHash => exact (commutes_popHandle _ _).bind fun _ => commutes_pushBytes _
  | getType => exact (commutes_popHandle _ _).bind fun _ => commutes_pushInt _
  | getAttributes | getInputs | getOutputs | getWitnesses =>
    exact (commutes_popHandle _ _).bind fun _ => commutes_pushParts _ _ _
  | getReferences =>
    refine (commutes_popHandle _ _).bind fun found => .bind ?_ fun _ => commutes_pushSequence _ _
    exact (commutes_refuse _).guarded fun _ => .mapM (commutes_fetchReference ignores) _
  | getUnspentCoins => exact commutes_refuse _
  | getScript =>
    refine (commutes_popHandle _ _).bind fun found => .bind ?_ fun _ => commutes_pushBytes _
    rw [invocationScript]
    split
    · exact commutes_pure _
    · exact commutes_refuse _

theorem commutes_account (call : AccountCall) :
    Commutes (World.after base) (account setting call) := by
  cases call with
  | getScriptHash => exact (commutes_popObject _ _).bind fun _ => commutes_pushBytes _
  | getVotes => exact (commutes_popObject _ _).bind fun _ => commutes_pushSequence _ _
  | getBalance =>
    exact (commutes_popObject _ _).bind fun _ => (commutes_popHash _).bind fun _ =>
      commutes_pushInt _
  | isStandard =>
    refine (commutes_popHash _).bind fun hash =>
      (commutes_findContract ignores hash).bind fun found => ?_
    cases found with
    | some found => exact commutes_pushBool _
    | none => exact commutes_pushBool _

theorem commutes_runtime (call : RuntimeCall) :
    Commutes (World.after base) (runtime setting call) := by
  cases call with
  | checkWitness =>
    refine commutes_popBytes.bind fun operand => .bind ?_ fun _ => commutes_pushBool _
    rw [checkWitness]
    split
    · exact commutes_pure _
    · exact commutes_refuse _
  | getTime =>
    refine .bind ((commutes_asked ignores _ _).bind fun found => ?_) fun _ => commutes_pushInt _
    cases found with
    | some header => exact commutes_pure _
    | none => exact commutes_refuse _
  | getTrigger => exact commutes_pushInt _
  | log =>
    exact commutes_popBytes.bind fun _ => commutes_executing.bind fun _ => commutes_announce _
  | notify =>
    exact commutes_pop.bind fun _ => commutes_executing.bind fun _ =>
      .look (fun _ => rfl) fun _ => commutes_announce _
  | serialize =>
    exact commutes_pop.bind fun _ => .look (fun _ => rfl) fun _ =>
      (commutes_liftItem _).bind commutes_pushBytes
  | deserialize =>
    exact commutes_popBytes.bind fun _ => (commutes_liftItem _).bind fun tree =>
      (commutes_onHeap _).bind commutes_push
  | platform => exact commutes_pushBytes _

/-! ## Storage and contracts -/

omit ignores in
theorem commutes_write (context : StorageContext) (key value : Bytes) :
    Commutes (World.after base) (do
      match (← get).world.storage.write context key value with
      | .ok storage => modifyWorld ({ · with storage })
      | .error cause => refuse cause) := by
  refine .look (fun _ => rfl) fun m => ?_
  split
  · exact fun _ => rfl
  · exact commutes_refuse _

omit ignores in
theorem commutes_put (withFlags : Bool) : Commutes (World.after base) (put withFlags) := by
  refine (commutes_popObject _ _).bind fun context => commutes_popBytes.bind fun key => ?_
  refine (commutes_refuse _).guarded fun _ => commutes_popBytes.bind fun value => ?_
  refine (commutes_refuse _).guarded fun _ => .ite ?_ (commutes_write _ _ _)
  exact commutes_popInt.bind fun _ => commutes_write _ _ _

theorem commutes_readStorage (overlay : StorageOverlay) (context : StorageContext) (key : Bytes) :
    Commutes (World.after base)
      (asking (overlay.read setting.node setting.height context key)) := by
  rw [StorageOverlay.read]
  split
  · exact commutes_asking (continues_pure _)
  · exact commutes_asked ignores _ _

theorem commutes_storage (call : StorageCall) :
    Commutes (World.after base) (storage setting call) := by
  cases call with
  | getContext | getReadOnlyContext =>
    exact commutes_executing.bind fun _ => commutes_pushObject _
  | get =>
    exact (commutes_popObject _ _).bind fun _ => commutes_popBytes.bind fun _ =>
      .look (fun _ => rfl) fun _ => (commutes_readStorage ignores _ _ _).bind commutes_pushBytes
  | put | putEx => exact commutes_put _
  | delete =>
    exact (commutes_popObject _ _).bind fun _ => commutes_popBytes.bind fun _ =>
      commutes_write _ _ _
  | find => exact commutes_refuse _
  | asReadOnly => exact (commutes_popObject _ _).bind fun _ => commutes_pushObject _

omit ignores in
theorem commutes_popNewContract : Commutes (World.after base) popNewContract := by
  have field (limit : Nat) (what : String) :
      Commutes (World.after base) (popField limit what) :=
    commutes_popBytes.bind fun _ => (commutes_refuse _).guarded fun _ => commutes_pure _
  have byte (cause : Int → SyscallFault) : Commutes (World.after base) (popByte cause) :=
    commutes_popInt.bind fun _ => (commutes_refuse _).guarded fun _ => commutes_pure _
  have text (limit : Nat) (what : String) : Commutes (World.after base) (popText limit what) :=
    (field limit what).bind fun _ => commutes_pure _
  exact (field _ _).bind fun _ => (field _ _).bind fun _ => (byte _).bind fun _ =>
    (byte _).bind fun _ => (text _ _).bind fun _ => (text _ _).bind fun _ =>
    (text _ _).bind fun _ => (text _ _).bind fun _ => (text _ _).bind fun _ => commutes_pure _

theorem commutes_deploy (contract : Contract) :
    Commutes (World.after base) (deploy setting contract) := by
  refine (commutes_findContract ignores _).bind fun found => ?_
  cases found with
  | some found => exact commutes_pure _
  | none =>
    refine (commutes_onHeap _).bind fun handle => commutes_executing.bind fun creator => ?_
    exact Commutes.bind (fun _ => rfl) fun _ => commutes_pure _

theorem commutes_destroyContract (scriptHash : Bytes) :
    Commutes (World.after base) (destroyContract setting scriptHash) :=
  (commutes_findContract ignores scriptHash).bind fun _ => .ite (fun _ => rfl) (commutes_pure _)

theorem commutes_migrate : Commutes (World.after base) (migrate setting) := by
  refine commutes_popNewContract.bind fun contract => (commutes_deploy ignores contract).bind
    fun found => commutes_executing.bind fun source => Commutes.guarded (fun _ => rfl) fun _ => ?_
  exact (commutes_pushContract found).bind fun _ => commutes_destroyContract ignores source

theorem commutes_contract (call : ContractCall) :
    Commutes (World.after base) (contract setting call) := by
  cases call with
  | create =>
    exact commutes_popNewContract.bind fun contract =>
      (commutes_deploy ignores contract).bind commutes_pushContract
  | migrate => exact commutes_migrate ignores
  | destroy => exact commutes_executing.bind (commutes_destroyContract ignores)
  | getScript => exact (commutes_popObject _ _).bind fun _ => commutes_pushBytes _
  | isPayable => exact (commutes_popObject _ _).bind fun _ => commutes_pushBool _
  | getStorageContext =>
    refine (commutes_popObject _ _).bind fun contract => .look (fun _ => rfl) fun m =>
      commutes_executing.bind fun running => (commutes_refuse _).guarded fun _ => ?_
    exact commutes_pushObject _

end

end Exec

/-! ## All system calls -/

open Exec in
/-- **No system call looks at what was asked before.** -/
theorem Syscall.commutes_run (ignores : setting.node.IgnoresNumbers) (call : Syscall) :
    Commutes (World.after base) (call.run setting) := by
  cases call with
  | blockchain call => exact commutes_blockchain ignores call
  | header call => exact commutes_header call
  | block call => exact commutes_block call
  | transaction call => exact commutes_transaction ignores call
  | part call => exact commutes_part call
  | account call => exact commutes_account ignores call
  | asset call => exact commutes_asset call
  | contract call => exact commutes_contract ignores call
  | runtime call => exact commutes_runtime ignores call
  | engine call => exact commutes_engine call
  | storage call => exact commutes_storage ignores call
  | iterator call => exact commutes_iterator call

/-- A price depends on the stack and the heap only. -/
theorem Price.amount_mapWorld {σ η : Type} (registry : Registry η) (g : σ → σ) (i : Instruction)
    (m : Machine σ) : amount registry i (m.mapWorld g) = amount registry i m := rfl

/-- **The host of a run does not look at what was asked before.** -/
theorem Setting.host_commutes (ignores : setting.node.IgnoresNumbers) (base : Link)
    (limit : GasLimit) : (setting.host limit).Commutes (World.after base) where
  contract name := by
    rw [contract_host]
    exact Exec.commutes_findCallee ignores name
  syscall id call found := by
    rw [host_eq_hostWith] at found
    obtain ⟨c, rfl⟩ := setting.exists_of_syscall_hostWith limit found
    exact c.commutes_run ignores
  price price priced i m := by
    rw [host_eq_hostWith, price_hostWith, Option.some.injEq] at priced
    rw [← priced]
    exact Price.amount_mapWorld _ _ i m

end DryRun
