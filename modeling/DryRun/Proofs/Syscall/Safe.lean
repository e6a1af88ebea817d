import DryRun.Proofs.Heap.Iterator
import DryRun.Proofs.Item.Codec
import DryRun.Proofs.Run.Sound
import DryRun.Proofs.Syscall.Control
import DryRun.Proofs.World.Sound

/-!
# System calls on sound machines

The system calls bring items into a run from elsewhere: fields of chain objects, values of the
storage, serialized items, heights.  Objects of the chain are read with limits on their fields, so
whatever they hold may be pushed.  What else comes from the node has to be supposed:
`Setting.Supplies` says that the scripts of contracts, the values in storage and the heights are
among the plain values that the run works on.

Given that, every system call takes sound machines to sound ones (`Syscall.safe_run`), so the host
of a run is safe (`Setting.host_safe`) and every state of the run is sound (`Setting.sound_run`).
-/

set_option autoImplicit false

namespace DryRun

open Machine (Standard)
open World (standard)

/-- What a node answers, and the height of the run, are among the plain values. -/
structure Setting.Supplies (value : Primitive → Prop) (setting : Setting) : Prop where
  /-- The height of the run. -/
  height : value (.int setting.height)
  /-- The scripts of the node's contracts. -/
  contract : ∀ scriptHash, Returns (fun found => ∀ c, found = some c → value (.bytes c.script))
    (setting.node.contract scriptHash setting.height)
  /-- The values in the node's storage. -/
  storage : ∀ scriptHash key, Returns (fun b => value (.bytes b))
    (setting.node.storage scriptHash key setting.height)
  /-- The heights of transactions. -/
  transactionHeight : ∀ hash, Returns (fun found => ∀ n : Nat, found = some n → value (.int n))
    (setting.node.transactionHeight hash setting.height)

/-- A contract that was found may be pushed, and so may its script. -/
def Exec.FoundContract.Sound (heap : Heap) (value : Primitive → Prop) :
    Exec.FoundContract → Prop
  | .deployed d => d.Sound heap value
  | .remote c => value (.bytes c.script)

variable {α : Type} {value : Primitive → Prop} {setting : Setting} {old : Heap}

theorem Exec.FoundContract.Sound.mono {heap heap' : Heap} {found : Exec.FoundContract}
    (h : found.Sound heap value) (le : heap.Le heap') : found.Sound heap' value := by
  cases found with
  | deployed d => exact Deployed.Sound.mono h le
  | remote c => exact h

variable [Primitive.Standard value]

namespace Exec

/-! ## Reaching the world -/

theorem yields_refuse {Q : α → Heap → Prop} (cause : SyscallFault) :
    Yields (standard value) old Q (refuse cause : Exec World α) :=
  yields_throw _

/-- A number that is no larger than a machine word may be pushed. -/
theorem safe_pushWord {v : Int} (low : -0x8000000000000000 ≤ v) (high : v < 0x10000000000000000) :
    Safe (standard value) old (pushInt v) := by
  have bound : (0x10000000000000000 : Int) < integerBound := Int.ofNat_lt.2 (by decide)
  have limited : (Primitive.int v).Limited := by
    show InIntegerRange v
    rw [InIntegerRange]
    omega
  exact safe_pushInt (Primitive.Standard.of_limited limited)

theorem safe_pushByte (v : UInt8) : Safe (standard value) old (pushInt v.toNat) := by
  have := v.toNat_lt
  exact safe_pushWord (by omega) (by omega)

theorem safe_pushUInt16 (v : UInt16) : Safe (standard value) old (pushInt v.toNat) := by
  have := v.toNat_lt
  exact safe_pushWord (by omega) (by omega)

theorem safe_pushUInt32 (v : UInt32) : Safe (standard value) old (pushInt v.toNat) := by
  have := v.toNat_lt
  exact safe_pushWord (by omega) (by omega)

theorem safe_pushUInt64 (v : UInt64) : Safe (standard value) old (pushInt v.toNat) := by
  have := v.toNat_lt
  exact safe_pushWord (by omega) (by omega)

theorem safe_pushAmount (v : Int64) : Safe (standard value) old (pushInt v.toInt) := by
  have low := v.le_toInt
  have high := v.toInt_lt
  exact safe_pushWord (by omega) (by omega)

theorem safe_modifyWorld {f : World → World}
    (h : ∀ heap w, old.Le heap → w.Sound heap value → (f w).Sound heap value) :
    Safe (standard value) old (modifyWorld f) :=
  fun m le sound => ⟨⟨sound.heap, sound.stack, sound.alt, h m.heap m.world le sound.world⟩,
    .refl m.heap, trivial⟩

/-- Asking touches only the conversation. -/
theorem yields_asking {P : α → Prop} {question : Asking α} (h : Returns P question) :
    Yields (standard value) old (fun a _ => P a) (asking question) := by
  intro m _ sound
  have next (link : Link) : Machine.Sound (standard value)
      { m with world := { m.world with link } } :=
    ⟨sound.heap, sound.stack, sound.alt, sound.world.storage, sound.world.contracts⟩
  rw [wp, asking_eq]
  cases answer : question m.world.link with
  | ok a link => exact ⟨next link, .refl m.heap, h _ _ _ answer⟩
  | error cause link => exact next link

theorem safe_asking (question : Asking α) : Safe (standard value) old (asking question) :=
  (yields_asking (Returns.of_forall (fun _ => trivial) question)).safe

theorem safe_announce (event : Event) : Safe (standard value) old (announce event) :=
  safe_modifyWorld fun _ _ _ h => ⟨h.storage, h.contracts⟩

theorem short_hashOf (frame : Option Frame) : (hashOf frame).length ≤ maxItemSize := by
  cases frame with
  | none => exact Nat.zero_le _
  | some frame =>
    show frame.script.hash.length ≤ maxItemSize
    rw [frame.script.hash_eq, length_hash160]
    decide

theorem yields_executing :
    Yields (standard value) old (fun hash _ => hash.length ≤ maxItemSize) executing :=
  yields_get_bind fun m _ _ => yields_pure fun _ _ => short_hashOf m.current?

/-! ## Objects -/

/-- The object that is popped is a sound one of the class asked for, and handles to its parts may
be pushed. -/
theorem yields_popHandle (expected : String) (select : Object → Option α) :
    Yields (standard value) old
      (fun found heap => (∀ path, heap.Has (.handle { found.1 with path })) ∧
        ∃ object, object.Sound heap value ∧ select object = some found.2)
      (popHandle expected select) := by
  rw [popHandle]
  refine yields_pop.bind fun item heap _ fit => yields_get_bind fun m le sound => ?_
  dsimp only
  split
  · next found same =>
    refine yields_pure fun heap' le' => ?_
    split at same
    · next handle =>
      obtain ⟨x, hx, rfl⟩ := Option.map_eq_some_iff.1 same
      obtain ⟨object, there, selected⟩ := Option.bind_eq_some_iff.1 hx
      refine ⟨fun path => le' _ (le _ fit), object, ?_, selected⟩
      exact (sound.heap.object? there).mono le'
    · cases same
  · exact yields_refuse _

theorem yields_popObject (expected : String) {select : Object → Option α} {P : α → Prop}
    (h : ∀ heap object x, Object.Sound heap value object → select object = some x → P x) :
    Yields (standard value) old (fun x _ => P x) (popObject expected select) :=
  ((yields_popHandle expected select).mono fun _ heap _ found =>
    let ⟨_, object, sound, selected⟩ := found
    h heap object _ sound selected).map Prod.snd

/-- The handle keeps company with its object. -/
theorem yields_popHandle_of (expected : String) {select : Object → Option α} {P : α → Prop}
    (h : ∀ heap object x, Object.Sound heap value object → select object = some x → P x) :
    Yields (standard value) old
      (fun found heap => (∀ path, heap.Has (.handle { found.1 with path })) ∧ P found.2)
      (popHandle expected select) :=
  (yields_popHandle expected select).mono fun _ heap _ found =>
    let ⟨has, object, sound, selected⟩ := found
    ⟨has, h heap object _ sound selected⟩

theorem safe_pushOptional {wrap : α → Object} {found : Option α}
    (fit : ∀ a, found = some a → (wrap a).Sound old value) :
    Safe (standard value) old (pushOptional (found.map wrap)) := by
  cases found with
  | some a => exact safe_pushObject (fit a rfl)
  | none => exact safe_pushShort (Nat.zero_le _)

theorem safe_pushParts {handle : Handle} (has : ∀ path, old.Has (.handle { handle with path }))
    (part : Nat → Part) (count : Nat) :
    Safe (standard value) old (pushParts handle part count) := by
  rw [pushParts]
  refine .guarded fun few => ?_
  refine safe_pushSequence .array ⟨?_, fun item mem => ?_⟩
  · rw [List.length_map, List.length_range]
    exact Nat.le_of_not_lt few
  · obtain ⟨i, -, rfl⟩ := List.mem_map.1 mem
    exact has _

theorem yields_popHash (size : Nat) :
    Yields (standard value) old (fun data _ => data.length = size) (popHash size) :=
  yields_popBytes.bind fun _ _ _ _ => .guarded fun h => yields_pure fun _ _ => Decidable.not_not.1 h

theorem yields_findContract (supplies : setting.Supplies value) (scriptHash : Bytes) :
    Yields (standard value) old (fun found heap => ∀ f, found = some f → f.Sound heap value)
      (findContract setting scriptHash) := by
  rw [findContract]
  refine yields_get_bind fun m _ sound => ?_
  split
  · next fate standing =>
    refine yields_pure fun heap le f hf => ?_
    obtain ⟨d, rfl, rfl⟩ := Option.map_eq_some_iff.1 hf
    exact (sound.world.contracts scriptHash d standing).mono le
  · refine (yields_asking (supplies.contract scriptHash)).bind fun found _ _ hfound => ?_
    refine yields_pure fun _ _ f hf => ?_
    obtain ⟨c, hc, rfl⟩ := Option.map_eq_some_iff.1 hf
    exact hfound c hc

theorem safe_findCallee (supplies : setting.Supplies value) (scriptHash : Bytes) :
    Safe (standard value) old (findCallee setting scriptHash) :=
  (yields_findContract supplies scriptHash).bind fun _ _ _ _ => safe_pure _

theorem safe_pushContract {found : FoundContract} (fit : found.Sound old value) :
    Safe (standard value) old (pushContract found) := by
  cases found with
  | deployed d => exact safe_push fit.1
  | remote c =>
    have sound : (Object.contract c).Sound old value := fit
    exact safe_pushObject sound

/-! ## Chain data -/

theorem safe_popBlockHash : Safe (standard value) old (popBlockHash setting) := by
  refine yields_popBytes.bind fun data _ _ _ => .ite (fun _ => ?_) fun _ =>
    .ite (fun _ => safe_pure _) fun _ => yields_refuse _
  refine (yields_liftItem _).bind fun index _ _ _ => .guarded fun _ => ?_
  exact .ite (fun _ => safe_pure _) fun _ => safe_asking _

theorem safe_blockchain (supplies : setting.Supplies value) (call : BlockchainCall) :
    Safe (standard value) old (blockchain setting call) := by
  cases call with
  | getHeight => exact safe_pushInt supplies.height
  | getBlock =>
    refine safe_popBlockHash.bind fun hash _ _ _ => ?_
    cases hash with
    | some hash =>
      exact (yields_asking (setting.node.limited_block hash _)).bind fun _ _ _ limited =>
        safe_pushOptional limited
    | none => exact safe_pushShort (Nat.zero_le _)
  | getHeader =>
    refine safe_popBlockHash.bind fun hash _ _ _ => ?_
    cases hash with
    | some hash =>
      exact (yields_asking (setting.node.limited_header hash _)).bind fun _ _ _ limited =>
        safe_pushOptional limited
    | none => exact safe_pushShort (Nat.zero_le _)
  | getContract =>
    refine (yields_popHash _).bind fun hash _ _ _ => ?_
    refine (yields_findContract supplies hash).bind fun found _ _ sound => ?_
    cases found with
    | some found => exact safe_pushContract (sound found rfl)
    | none => exact safe_pushShort (Nat.zero_le _)
  | getTransaction =>
    refine (yields_popHash _).bind fun hash _ _ _ => ?_
    exact (yields_asking (setting.node.limited_transaction hash _)).bind fun _ _ _ limited =>
      safe_pushOptional limited
  | getTransactionHeight =>
    refine (yields_popHash _).bind fun hash _ _ _ => ?_
    refine (yields_asking (supplies.transactionHeight hash)).bind fun height _ _ fit => ?_
    cases height with
    | some height => exact safe_pushInt (fit height rfl)
    | none => exact safe_pushWord (by decide) (by decide)
  | getAccount =>
    refine (yields_popHash _).bind fun hash _ _ length => ?_
    refine (yields_asking (setting.node.limited_account hash _)).bind fun found heap _ limited => ?_
    have sound : (Object.account (found.getD (.fresh hash))).Sound heap value := by
      cases found with
      | some account => exact limited account rfl
      | none => exact Account.limited_fresh (Bytes.Short.of_le (Nat.le_of_eq length) (by decide))
    exact safe_pushObject sound
  | getAsset =>
    refine (yields_popHash _).bind fun hash _ _ _ => ?_
    exact (yields_asking (setting.node.limited_asset hash _)).bind fun _ _ _ limited =>
      safe_pushOptional limited
  | getValidators => exact yields_refuse _

theorem yields_popHeader : Yields (standard value) old (fun h _ => h.Limited) popHeader := by
  refine yields_popObject _ fun heap object h sound found => ?_
  split at found
  · cases found
    exact sound
  · cases found
    exact Block.Limited.header sound
  · cases found

theorem safe_header (call : HeaderCall) : Safe (standard value) old (header call) := by
  refine yields_popHeader.bind fun h _ _ limited => ?_
  cases call with
  | getHash => exact safe_pushShort (by rw [Header.hash, length_hash256]; decide)
  | getPrevHash => exact safe_pushShort limited.prevHash
  | getMerkleRoot => exact safe_pushShort limited.merkleRoot
  | getNextConsensus => exact safe_pushShort limited.nextConsensus
  | getIndex | getTimestamp | getVersion => exact safe_pushUInt32 _
  | getConsensusData => exact safe_pushUInt64 _

theorem safe_block (call : BlockCall) : Safe (standard value) old (block call) := by
  have popped : Yields (standard value) old
      (fun found heap => (∀ path, heap.Has (.handle { found.1 with path })) ∧ found.2.Limited)
      popBlock := by
    refine yields_popHandle_of _ fun heap object b sound found => ?_
    split at found
    · cases found
      exact sound
    · cases found
  refine popped.bind fun found _ _ fit => ?_
  cases call with
  | getTransactionCount => exact safe_pushCount (Nat.le_trans fit.2.count (by decide))
  | getTransactions => exact safe_pushParts fit.1 _ _
  | getTransaction =>
    refine safe_popInt.bind fun index _ le _ => .guarded fun _ => ?_
    exact safe_push (le _ (fit.1 _))

theorem yields_popTransaction : Yields (standard value) old
    (fun found heap => (∀ path, heap.Has (.handle { found.1 with path })) ∧ found.2.Limited)
    popTransaction := by
  refine yields_popHandle_of _ fun heap object t sound found => ?_
  split at found
  · cases found
    exact sound
  · cases found

theorem yields_fetchReference (input : Input) : Yields (standard value) old
    (fun item heap => heap.Admits value item) (fetchReference setting input) := by
  rw [fetchReference]
  refine (yields_asking (setting.node.limited_transaction input.prevHash _)).bind
    fun previous heap _ limited => ?_
  cases previous with
  | none => exact yields_refuse _
  | some previous =>
    have sound : (Object.transaction previous).Sound heap value := limited previous rfl
    refine .guarded fun _ => (yields_makeObject sound).bind fun handle _ _ has => ?_
    exact yields_pure fun _ le => le _ (has _)

theorem safe_transaction (call : TransactionCall) :
    Safe (standard value) old (transaction setting call) := by
  cases call with
  | getHash =>
    refine yields_popTransaction.bind fun found _ _ _ => safe_pushShort ?_
    rw [Transaction.hash, length_hash256]
    decide
  | getType => exact yields_popTransaction.bind fun _ _ _ _ => safe_pushByte _
  | getAttributes | getInputs | getOutputs | getWitnesses =>
    exact yields_popTransaction.bind fun _ _ _ fit => safe_pushParts fit.1 _ _
  | getReferences =>
    refine yields_popTransaction.bind fun found heap _ _ => ?_
    have fetched : Yields (standard value) heap
        (fun items heap => items.length ≤ maxCollectionSize ∧
          ∀ item ∈ items, heap.Admits value item) (fetchReferences setting found.2) := by
      rw [fetchReferences]
      refine .guarded fun few => ?_
      have each : Yields (standard value) heap
          (fun items heap => items.length = found.2.inputs.length ∧
            ∀ item ∈ items, heap.Admits value item)
          (found.2.inputs.mapM (fetchReference setting)) :=
        Yields.mapM (fun _ _ _ le fit => fit.mono le) fun input _ _ _ =>
          yields_fetchReference input
      exact each.mono fun items _ _ fit => ⟨fit.1 ▸ Nat.le_of_not_lt few, fit.2⟩
    exact fetched.bind fun _ _ _ fit => safe_pushSequence .array fit
  | getUnspentCoins => exact yields_refuse _
  | getScript =>
    refine yields_popTransaction.bind fun found heap _ fit => ?_
    have shown : Yields (standard value) heap (fun script _ => script.Short)
        (invocationScript found.2) := by
      rw [invocationScript]
      split
      · next script same => exact yields_pure fun _ _ => fit.2.script script same
      · exact yields_refuse _
    exact shown.bind fun _ _ _ short => safe_pushShort short

theorem yields_popAttribute : Yields (standard value) old (fun a _ => a.Limited) popAttribute := by
  refine yields_popObject _ fun heap object a sound found => ?_
  split at found
  · cases found
    exact sound
  · cases found

theorem yields_popInput : Yields (standard value) old (fun i _ => i.Limited) popInput := by
  refine yields_popObject _ fun heap object i sound found => ?_
  split at found
  · cases found
    exact sound
  · cases found

theorem yields_popOutput : Yields (standard value) old (fun o _ => o.Limited) popOutput := by
  refine yields_popObject _ fun heap object o sound found => ?_
  split at found
  · cases found
    exact sound
  · cases found

theorem yields_popWitness : Yields (standard value) old (fun w _ => w.Limited) popWitness := by
  refine yields_popObject _ fun heap object w sound found => ?_
  split at found
  · cases found
    exact sound
  · cases found

theorem safe_part (call : PartCall) : Safe (standard value) old (part call) := by
  cases call with
  | attributeUsage => exact yields_popAttribute.bind fun _ _ _ _ => safe_pushByte _
  | attributeData => exact yields_popAttribute.bind fun _ _ _ short => safe_pushShort short
  | inputHash => exact yields_popInput.bind fun _ _ _ short => safe_pushShort short
  | inputIndex => exact yields_popInput.bind fun _ _ _ _ => safe_pushUInt16 _
  | outputAssetId =>
    exact yields_popOutput.bind fun _ _ _ limited => safe_pushShort limited.assetId
  | outputValue => exact yields_popOutput.bind fun _ _ _ _ => safe_pushAmount _
  | outputScriptHash =>
    exact yields_popOutput.bind fun _ _ _ limited => safe_pushShort limited.scriptHash
  | witnessScript => exact yields_popWitness.bind fun _ _ _ short => safe_pushShort short

theorem yields_popAccount : Yields (standard value) old (fun a _ => a.Limited) popAccount := by
  refine yields_popObject _ fun heap object a sound found => ?_
  split at found
  · cases found
    exact sound
  · cases found

theorem safe_account (supplies : setting.Supplies value) (call : AccountCall) :
    Safe (standard value) old (account setting call) := by
  cases call with
  | getScriptHash =>
    exact yields_popAccount.bind fun _ _ _ limited => safe_pushShort limited.scriptHash
  | getVotes =>
    refine yields_popAccount.bind fun a _ _ limited => safe_pushSequence .array ⟨?_, ?_⟩
    · rw [List.length_map]
      exact limited.count
    · intro item mem
      obtain ⟨vote, hvote, rfl⟩ := List.mem_map.1 mem
      have short : (Primitive.bytes vote).Limited := limited.votes vote hvote
      exact Primitive.Standard.of_limited short
  | getBalance =>
    exact yields_popAccount.bind fun _ _ _ _ => (yields_popHash _).bind fun _ _ _ _ =>
      safe_pushAmount _
  | isStandard =>
    refine (yields_popHash _).bind fun hash _ _ _ => ?_
    refine (yields_findContract supplies hash).bind fun found _ _ _ => ?_
    cases found with
    | some found => exact safe_pushBool _
    | none => exact safe_pushBool _

theorem yields_popAsset : Yields (standard value) old
    (fun found heap => (∀ path, heap.Has (.handle { found.1 with path })) ∧ found.2.Limited)
    popAsset := by
  refine yields_popHandle_of _ fun heap object a sound found => ?_
  split at found
  · cases found
    exact sound
  · cases found

theorem safe_renewAsset : Safe (standard value) old (renewAsset setting) := by
  refine yields_popAsset.bind fun found _ _ fit => safe_popInt.bind fun years _ _ _ => ?_
  refine .guarded fun _ => ?_
  have renewed (heap : Heap) :
      (Object.asset (found.2.renew setting.height years.toNat)).Sound heap value :=
    fit.2.renew _ _
  refine (safe_modifyHeap fun heap _ sound => ?_).bind fun _ _ _ _ => safe_pushUInt32 _
  exact ⟨sound.setObject found.1.root (renewed heap), Heap.le_setObject _ _ _⟩

theorem safe_asset (call : AssetCall) : Safe (standard value) old (asset setting call) := by
  cases call with
  | create => exact yields_refuse _
  | renew => exact safe_renewAsset
  | getAssetId => exact yields_popAsset.bind fun _ _ _ fit => safe_pushShort fit.2.id
  | getAssetType => exact yields_popAsset.bind fun _ _ _ _ => safe_pushByte _
  | getAmount => exact yields_popAsset.bind fun _ _ _ _ => safe_pushAmount _
  | getAvailable => exact yields_popAsset.bind fun _ _ _ _ => safe_pushAmount _
  | getPrecision => exact yields_popAsset.bind fun _ _ _ _ => safe_pushByte _
  | getOwner => exact yields_popAsset.bind fun _ _ _ fit => safe_pushShort fit.2.owner
  | getAdmin => exact yields_popAsset.bind fun _ _ _ fit => safe_pushShort fit.2.admin
  | getIssuer => exact yields_popAsset.bind fun _ _ _ fit => safe_pushShort fit.2.issuer

/-! ## Contracts -/

theorem yields_popContract :
    Yields (standard value) old (fun c _ => value (.bytes c.script)) popContract := by
  refine yields_popObject _ fun heap object c sound found => ?_
  split at found
  · cases found
    exact sound
  · cases found

theorem yields_popField (limit : Nat) (what : String) :
    Yields (standard value) old (fun data _ => data.length ≤ limit) (popField limit what) :=
  yields_popBytes.bind fun _ _ _ _ => .guarded fun h =>
    yields_pure fun _ _ => Nat.le_of_not_lt h

theorem safe_popText (limit : Nat) (what : String) :
    Safe (standard value) old (popText limit what) :=
  (yields_popField limit what).bind fun _ _ _ _ => safe_pure _

theorem safe_popByte (cause : Int → SyscallFault) : Safe (standard value) old (popByte cause) :=
  safe_popInt.bind fun _ _ _ _ => .guarded fun _ => safe_pure _

/-- The script of a new contract is no longer than an item may be. -/
theorem yields_popNewContract :
    Yields (standard value) old (fun c _ => value (.bytes c.script)) popNewContract := by
  refine (yields_popField _ _).bind fun script _ _ short => ?_
  have limited : (Primitive.bytes script).Limited := short
  refine (yields_popField _ _).bind fun _ _ _ _ => ?_
  refine (safe_popByte _).bind fun _ _ _ _ => (safe_popByte _).bind fun _ _ _ _ => ?_
  refine (safe_popText _ _).bind fun _ _ _ _ => (safe_popText _ _).bind fun _ _ _ _ => ?_
  refine (safe_popText _ _).bind fun _ _ _ _ => (safe_popText _ _).bind fun _ _ _ _ => ?_
  refine (safe_popText _ _).bind fun _ _ _ _ => yields_pure fun _ _ => ?_
  exact Primitive.Standard.of_limited limited

theorem yields_deploy (supplies : setting.Supplies value) {c : Contract}
    (fit : value (.bytes c.script)) :
    Yields (standard value) old (fun found heap => found.Sound heap value) (deploy setting c) := by
  refine (yields_findContract supplies c.scriptHash).bind fun found heap _ sound => ?_
  cases found with
  | some found => exact yields_pure fun _ le => (sound found rfl).mono le
  | none =>
    have object : (Object.contract c).Sound heap value := fit
    refine (yields_makeObject object).bind fun handle heap₁ _ has => ?_
    refine yields_executing.bind fun creator heap₂ le₂ _ => ?_
    -- the object was made before the deployment is noted, and stays
    have deployed : (⟨c, handle.root⟩ : Deployed).Sound heap₂ value := ⟨le₂ _ (has []), fit⟩
    refine (safe_modifyWorld fun heap₃ w le₃ h => ?_).bind fun _ _ le₃ _ => ?_
    · exact ⟨h.storage, h.contracts.deploy (deployed.mono le₃) (some creator)⟩
    · exact yields_pure fun _ le₄ => deployed.mono (le₃.trans le₄)

theorem safe_destroyContract (supplies : setting.Supplies value) (scriptHash : Bytes) :
    Safe (standard value) old (destroyContract setting scriptHash) := by
  refine (yields_findContract supplies scriptHash).bind fun _ _ _ _ => ?_
  refine .ite (fun _ => safe_modifyWorld fun _ _ _ h => ?_) fun _ => safe_pure ()
  exact ⟨h.storage.wipe scriptHash, h.contracts.destroy scriptHash⟩

theorem safe_migrate (supplies : setting.Supplies value) :
    Safe (standard value) old (migrate setting) := by
  refine yields_popNewContract.bind fun c _ _ fit => ?_
  refine (yields_deploy supplies fit).bind fun found heap _ sound => ?_
  refine yields_executing.bind fun source heap₁ le₁ _ => ?_
  -- whether storage is carried over or not, what follows is the same
  have rest (heap₂ : Heap) (le₂ : heap₁.Le heap₂) : Safe (standard value) heap₂ (do
      pushContract found
      destroyContract setting source) :=
    (safe_pushContract (sound.mono (le₁.trans le₂))).bind fun _ _ _ _ =>
      safe_destroyContract supplies source
  refine .ite (fun _ => (safe_modifyWorld fun _ _ _ h => ?_).bind fun _ heap₂ le₂ _ =>
    rest heap₂ le₂) fun _ => rest heap₁ (.refl heap₁)
  exact ⟨h.storage.copy source _, h.contracts⟩

theorem safe_pushContext (context : StorageContext) :
    Safe (standard value) old (pushObject (.storageContext context)) :=
  have sound : (Object.storageContext context).Sound old value := trivial
  safe_pushObject sound

theorem safe_contract (supplies : setting.Supplies value) (call : ContractCall) :
    Safe (standard value) old (contract setting call) := by
  cases call with
  | create =>
    exact yields_popNewContract.bind fun _ _ _ fit => (yields_deploy supplies fit).bind
      fun _ _ _ sound => safe_pushContract sound
  | migrate => exact safe_migrate supplies
  | destroy => exact yields_executing.bind fun _ _ _ _ => safe_destroyContract supplies _
  | getScript => exact yields_popContract.bind fun _ _ _ fit => safe_pushBytes fit
  | isPayable => exact yields_popContract.bind fun _ _ _ _ => safe_pushBool _
  | getStorageContext =>
    exact yields_popContract.bind fun _ _ _ _ => yields_get_bind fun _ _ _ =>
      yields_executing.bind fun _ _ _ _ => .guarded fun _ => safe_pushContext _

/-! ## The run and its frames -/

theorem safe_deserialize (data : Bytes) : Safe (standard value) old (do
    let tree ← (Tree.deserialize data : Except ItemFault Tree)
    push (← onHeap (·.build tree)) : Exec World Unit) := by
  refine (yields_liftItem _).bind fun tree heap _ read => ?_
  have plain : tree.Every (Tree.Plain value) :=
    (Tree.given_of_deserialize read).1.mono fun _ settled =>
      settled.1.mono fun _ limited => Primitive.Standard.of_limited limited
  have built : Yields (standard value) heap (fun item heap => heap.Admits value item)
      (onHeap (·.build tree) : Exec World Item) :=
    yields_onHeap fun _ _ sound => sound.build plain
  exact built.bind fun _ _ _ fit => safe_push fit

theorem safe_runtime (call : RuntimeCall) : Safe (standard value) old (runtime setting call) := by
  cases call with
  | checkWitness =>
    refine yields_popBytes.bind fun operand heap _ _ => ?_
    have checked : Safe (standard value) heap (checkWitness setting operand) := by
      rw [checkWitness]
      split
      · exact safe_pure _
      · exact yields_refuse _
    exact checked.bind fun _ _ _ _ => safe_pushBool _
  | getTime =>
    have found : Yields (standard value) old (fun time _ => time < 0x100000000)
        (blockTime setting) := by
      refine (safe_asking _).bind fun header _ _ _ => ?_
      cases header with
      | some header => exact yields_pure fun _ _ => header.timestamp.toNat_lt
      | none => exact yields_refuse _
    exact found.bind fun time _ _ small => safe_pushWord (by omega) (by omega)
  | getTrigger => exact safe_pushWord (by decide) (by decide)
  | log =>
    exact yields_popBytes.bind fun _ _ _ _ => yields_executing.bind fun _ _ _ _ => safe_announce _
  | notify =>
    exact yields_pop.bind fun _ _ _ _ => yields_executing.bind fun _ _ _ _ =>
      yields_get_bind fun _ _ _ => safe_announce _
  | serialize =>
    refine yields_pop.bind fun item _ _ _ => yields_get_bind fun m _ _ => ?_
    refine (yields_liftItem _).bind fun bytes _ _ written => safe_pushShort ?_
    exact (Tree.serialize_eq_ok.1 written).2
  | deserialize => exact yields_popBytes.bind fun data _ _ _ => safe_deserialize data
  | platform => exact safe_pushShort (by decide)

theorem safe_engine (call : EngineCall) : Safe (standard value) old (engine call) := by
  cases call with
  | getScriptContainer => exact yields_refuse _
  | getExecutingScriptHash =>
    exact yields_executing.bind fun _ _ _ short => safe_pushShort short
  | getCallingScriptHash => exact yields_get_bind fun _ _ _ => safe_pushShort (short_hashOf _)
  | getEntryScriptHash => exact yields_get_bind fun _ _ _ => safe_pushShort (short_hashOf _)

/-! ## Storage -/

theorem safe_popContext : Safe (standard value) old popContext :=
  (yields_popObject (P := fun _ => True) _ fun _ _ _ _ _ => trivial).safe

/-- A write through a context, which may be refused. -/
theorem safe_write {context : StorageContext} {key b : Bytes} (fit : value (.bytes b)) :
    Safe (standard value) old (do
      match (← get).world.storage.write context key b with
      | .ok storage => modifyWorld ({ · with storage })
      | .error cause => refuse cause) := by
  refine yields_get_bind fun m _ sound => ?_
  split
  · next storage done =>
    exact safe_modifyWorld fun _ _ _ h => ⟨sound.world.storage.write fit done, h.contracts⟩
  · exact yields_refuse _

theorem safe_put (withFlags : Bool) : Safe (standard value) old (put withFlags) := by
  refine safe_popContext.bind fun context _ _ _ => yields_popBytes.bind fun key _ _ _ => ?_
  refine .guarded fun _ => yields_popBytes.bind fun b _ _ fit => .guarded fun _ => ?_
  exact .ite (fun _ => safe_popInt.bind fun _ _ _ _ => safe_write fit) fun _ => safe_write fit

theorem safe_storage (supplies : setting.Supplies value) (call : StorageCall) :
    Safe (standard value) old (storage setting call) := by
  cases call with
  | getContext => exact yields_executing.bind fun _ _ _ _ => safe_pushContext _
  | getReadOnlyContext => exact yields_executing.bind fun _ _ _ _ => safe_pushContext _
  | get =>
    refine safe_popContext.bind fun context _ _ _ => yields_popBytes.bind fun key _ _ _ => ?_
    refine yields_get_bind fun m _ sound => ?_
    -- a value that the run has written itself, or else the node's
    have stored : Returns (fun b => value (.bytes b))
        (m.world.storage.read setting.node setting.height context key) := by
      rw [StorageOverlay.read_eq]
      split
      · next b written => exact .pure (sound.world.storage _ _ b written)
      · exact supplies.storage _ _
    exact (yields_asking stored).bind fun _ _ _ fit => safe_pushBytes fit
  | put => exact safe_put false
  | putEx => exact safe_put true
  | delete =>
    have empty : (Primitive.bytes []).Limited := Nat.zero_le _
    exact safe_popContext.bind fun _ _ _ _ => yields_popBytes.bind fun _ _ _ _ =>
      safe_write (Primitive.Standard.of_limited empty)
  | find => exact yields_refuse _
  | asReadOnly => exact safe_popContext.bind fun _ _ _ _ => safe_pushContext _

/-! ## Iterators -/

theorem safe_popIterator (keyed : Bool) : Safe (standard value) old (popIterator keyed) :=
  (yields_popHandle _ _).bind fun _ _ _ _ => safe_pure _

theorem safe_pushIterator {it : Iterator} (fit : it.Sound old value) :
    Safe (standard value) old (pushObject (.iterator it)) :=
  have sound : (Object.iterator it).Sound old value := fit
  safe_pushObject sound

theorem safe_concatIterators (keyed : Bool) :
    Safe (standard value) old (concatIterators keyed) :=
  (safe_popIterator keyed).bind fun _ _ _ _ => (safe_popIterator keyed).bind fun _ _ _ _ =>
    safe_pushIterator (Heap.sound_iterator_of_held rfl)

theorem safe_iterator (call : IteratorCall) : Safe (standard value) old (iterator call) := by
  cases call with
  | createEnumerator =>
    refine yields_pop.bind fun item _ _ _ => yields_get_bind fun m _ sound => ?_
    exact (yields_liftItem _).bind fun _ _ le made =>
      safe_pushIterator ((sound.heap.enumerate made).mono le)
  | createIterator =>
    refine yields_pop.bind fun item _ _ _ => yields_get_bind fun m _ sound => ?_
    exact (yields_liftItem _).bind fun _ _ le made =>
      safe_pushIterator ((sound.heap.iterate made).mono le)
  | next =>
    refine (safe_popIterator _).bind fun id heap _ _ => ?_
    have moved : Safe (standard value) heap (onHeap (·.advance id) : Exec World Bool) :=
      yields_onHeap fun _ _ sound => ⟨(sound.advance id).1, (sound.advance id).2, trivial⟩
    exact moved.bind fun _ _ _ _ => safe_pushBool _
  | value =>
    refine (safe_popIterator _).bind fun id _ _ _ => yields_get_bind fun m _ sound => ?_
    exact (yields_liftItem _).bind fun _ _ le found =>
      safe_push ((sound.heap.iteratorValue found).mono le)
  | key =>
    refine (safe_popIterator _).bind fun id _ _ _ => yields_get_bind fun m _ sound => ?_
    exact (yields_liftItem _).bind fun _ _ le found =>
      safe_push ((sound.heap.iteratorKey found).mono le)
  | concatEnumerators => exact safe_concatIterators false
  | concatIterators => exact safe_concatIterators true
  | keys =>
    exact (safe_popIterator _).bind fun _ _ _ _ =>
      safe_pushIterator (Heap.sound_iterator_of_held rfl)
  | values =>
    exact (safe_popIterator _).bind fun _ _ _ _ =>
      safe_pushIterator (Heap.sound_iterator_of_held rfl)

end Exec

/-! ## All of them -/

open Exec in
/-- **Every system call** takes sound machines to sound ones. -/
theorem Syscall.safe_run (supplies : setting.Supplies value) (call : Syscall) :
    Safe (standard value) old (call.run setting) := by
  cases call with
  | blockchain call => exact safe_blockchain supplies call
  | header call => exact safe_header call
  | block call => exact safe_block call
  | transaction call => exact safe_transaction call
  | part call => exact safe_part call
  | account call => exact safe_account supplies call
  | asset call => exact safe_asset call
  | contract call => exact safe_contract supplies call
  | runtime call => exact safe_runtime call
  | engine call => exact safe_engine call
  | storage call => exact safe_storage supplies call
  | iterator call => exact safe_iterator call

/-- **The host of a run is safe.** -/
theorem Setting.host_safe (supplies : setting.Supplies value) (limit : GasLimit) :
    (setting.host limit).Safe (standard value) where
  contract name old := by
    rw [contract_host]
    exact Exec.safe_findCallee supplies name
  syscall id call found old := by
    rw [host_eq_hostWith] at found
    obtain ⟨c, rfl⟩ := setting.exists_of_syscall_hostWith limit found
    exact Syscall.safe_run supplies c

/-- **Every state of a run is sound.** -/
theorem Setting.sound_run (supplies : setting.Supplies value) (limit : GasLimit) (script : Bytes)
    (dynamicInvoke : Bool) (link : Link) (n : Nat) :
    ((Machine.load script dynamicInvoke (.fresh link)).runFor (setting.host limit) n).Sound
      (standard value) :=
  (Machine.steady_runFor (setting.host_safe supplies limit)
    (Machine.steady_load (World.sound_fresh link) script dynamicInvoke) n).sound

end DryRun
