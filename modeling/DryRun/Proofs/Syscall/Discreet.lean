import DryRun.Proofs.Heap.Objects
import DryRun.Proofs.Machine.Flow
import DryRun.Proofs.Node.Query
import DryRun.Syscall

/-!
# System calls that leave storage and contracts alone

Of all system calls only eight reach into the storage and the contracts of a run, or hand out the
right to.  This file is about the others.  What they may do is to move items, to ask the node, to
announce events, and to make and change objects without handing out the right to write into a
storage (`Heap.Evolves`).  The calls are gone through once, group by group, for all relations that
do not look at this, and `Syscall.keeps_run` puts the groups together.

* `Machine.ObjectBlind` — the relation looks neither at items nor at events nor at objects.
* `Machine.EventBlind` — it may look at the collections that are there, which none of the calls
  changes.
* `Machine.CreationBlind` — it may look at the objects that are there and at iterators that are
  made, which few of the calls change (`Syscall.changesObject`).
* `Machine.QueryBlind height` — nor at questions about the chain as it was at a height, which are
  the only ones that are asked.
* `Machine.Discreet` — nor at any question at all.

What the calls of this file leave alone is `Machine.SameStores`, and together with the order of
execution (`Machine.SameControl`) this is most of what later files need of them.
-/

set_option autoImplicit false

namespace DryRun

/-! ## Discreet relations -/

namespace Machine

/-- A relation that looks neither at items, nor at events, nor at objects as long as no right to
write is handed out. -/
class ObjectBlind (R : Machine World → Machine World → Prop) : Prop extends ItemBlind R where
  /-- Announcing an event is no change. -/
  announced : ∀ event, Exec.Keeps R (Exec.announce event)
  /-- What becomes of objects is no change. -/
  evolved : ∀ m heap, m.heap.Evolves heap → R m { m with heap }

/-- A relation that looks neither at the stacks, nor at collections that are made, nor at events,
nor at objects as long as no right to write is handed out. -/
class EventBlind (R : Machine World → Machine World → Prop) : Prop extends GrowthBlind R where
  /-- Announcing an event is no change. -/
  announced : ∀ event, Exec.Keeps R (Exec.announce event)
  /-- What becomes of objects is no change. -/
  evolved : ∀ m heap, m.heap.Evolves heap → m.heap.SameCollections heap → R m { m with heap }

instance {R : Machine World → Machine World → Prop} [ObjectBlind R] : EventBlind R where
  announced := ObjectBlind.announced
  evolved m heap h _ := ObjectBlind.evolved m heap h

/-- A relation that looks neither at the stacks, nor at collections that are made and objects other
than iterators as long as no right to write is handed out, nor at events. -/
class CreationBlind (R : Machine World → Machine World → Prop) : Prop extends GrowthBlind R where
  /-- Announcing an event is no change. -/
  announced : ∀ event, Exec.Keeps R (Exec.announce event)
  /-- Making an object is no change. -/
  made : ∀ {object : Object}, object.Plain → Exec.Keeps R (Exec.onHeap (·.makeObject object))

/-- Making an object that is no right to write. -/
theorem EventBlind.made {R : Machine World → Machine World → Prop} [EventBlind R] {object : Object}
    (h : object.Harmless) : Exec.Keeps R (Exec.onHeap (·.makeObject object)) := fun m =>
  EventBlind.evolved m _ (.makeObject h m.heap) (.makeObject m.heap _)

instance {R : Machine World → Machine World → Prop} [EventBlind R] : CreationBlind R where
  announced := EventBlind.announced
  made h := EventBlind.made h.harmless

/-- A relation that does not look at questions about the chain as it was at a height. -/
class QueryBlind (height : Nat) (R : Machine World → Machine World → Prop) : Prop where
  /-- Asking the node about that height is no change. -/
  asked : ∀ {α : Type} (node : Node) {query : Query} (read : String → Json → Except NodeError α),
    query.Within height → Exec.Keeps R (Exec.asking (node.query query read))

/-- A relation that looks neither at items, nor at the conversation with the node, nor at events,
nor at objects as long as no right to write is handed out. -/
class Discreet (R : Machine World → Machine World → Prop) : Prop extends ObjectBlind R where
  /-- Asking the node is no change. -/
  asked : ∀ {α : Type} (node : Node) (query : Query) (read : String → Json → Except NodeError α),
    Exec.Keeps R (Exec.asking (node.query query read))

instance {R : Machine World → Machine World → Prop} [Discreet R] (height : Nat) :
    QueryBlind height R :=
  ⟨fun node query read _ => Discreet.asked node query read⟩

/-- Storage and contracts are the same, and there are no more rights to write than before. -/
structure SameStores (m m' : Machine World) : Prop where
  /-- The storage is the same. -/
  storage : m'.world.storage = m.world.storage
  /-- The contracts are the same. -/
  contracts : m'.world.contracts = m.world.contracts
  /-- Every right to write was there before. -/
  grants : ∀ scriptHash, m'.heap.Grants scriptHash → m.heap.Grants scriptHash

theorem SameStores.of_objects {m m' : Machine World} (world : m'.world = m.world)
    (objects : m'.heap.objects = m.heap.objects) : SameStores m m' :=
  ⟨by rw [world], by rw [world], fun _ => Heap.grants_of_objects objects⟩

instance : Outward SameStores where
  trans h k := ⟨k.storage.trans h.storage, k.contracts.trans h.contracts,
    fun scriptHash granted => h.grants scriptHash (k.grants scriptHash granted)⟩
  of_same := .of_objects

end Machine

open Machine (CreationBlind GrowthBlind EventBlind ObjectBlind QueryBlind Discreet OnlyGrowth
  SameStores SameControl)

variable {R : Machine World → Machine World → Prop}

namespace Exec

variable {α : Type}

section

variable [GrowthBlind R]

theorem keeps_refuse (cause : SyscallFault) : Keeps R (refuse cause : Exec World α) :=
  keeps_throw _

/-- Behind a check that refuses where `p` holds, `p` does not hold. -/
theorem Keeps.guarded_refuse {p : Prop} [Decidable p] {cause : SyscallFault}
    {f : Unit → Exec World α} (hf : ¬p → Keeps R (f ())) :
    Keeps R (if p then refuse cause >>= f else f ()) := by
  split
  · exact keeps_refuse (α := α) cause
  · next h => exact hf h

theorem keeps_executing : Keeps R executing := keeps_get.bind fun _ => keeps_pure _

theorem keeps_popHandle (expected : String) (select : Object → Option α) :
    Keeps R (popHandle expected select) := by
  rw [popHandle]
  refine keeps_pop.bind fun item => keeps_get.bind fun m => ?_
  dsimp only
  split
  · exact keeps_pure _
  · exact keeps_refuse _

theorem keeps_popObject (expected : String) (select : Object → Option α) :
    Keeps R (popObject expected select) :=
  (keeps_popHandle expected select).map _

theorem keeps_popHash (size : Nat) : Keeps R (popHash size) :=
  keeps_popBytes.bind fun _ => (keeps_refuse _).guarded fun _ => keeps_pure _

theorem keeps_popField (limit : Nat) (what : String) : Keeps R (popField limit what) :=
  keeps_popBytes.bind fun _ => (keeps_refuse _).guarded fun _ => keeps_pure _

theorem keeps_popText (limit : Nat) (what : String) : Keeps R (popText limit what) :=
  (keeps_popField limit what).bind fun _ => keeps_pure _

theorem keeps_popByte (cause : Int → SyscallFault) : Keeps R (popByte cause) :=
  keeps_popInt.bind fun _ => (keeps_refuse _).guarded fun _ => keeps_pure _

theorem keeps_popNewContract : Keeps R popNewContract := by
  refine (keeps_popField _ _).bind fun _ => (keeps_popField _ _).bind fun _ => ?_
  refine (keeps_popByte _).bind fun _ => (keeps_popByte _).bind fun _ => ?_
  refine (keeps_popText _ _).bind fun _ => (keeps_popText _ _).bind fun _ => ?_
  refine (keeps_popText _ _).bind fun _ => (keeps_popText _ _).bind fun _ => ?_
  exact (keeps_popText _ _).bind fun _ => keeps_pure _

theorem keeps_pushParts (handle : Handle) (part : Nat → Part) (count : Nat) :
    Keeps R (pushParts handle part count) :=
  (keeps_refuse _).guarded fun _ => keeps_pushSequence _ _

end

/-- What is popped as an object is behind its handle. -/
theorem wp_popHandle {m : Machine World} (expected : String) (select : Object → Option α) :
    wp (popHandle expected select) (fun found _ =>
      ∃ object, m.heap.object? found.1 = some object ∧ select object = some found.2)
      (fun _ => True) m := by
  rw [popHandle]
  refine wp_bind.2 ((keeps_pop (R := OnlyGrowth) m).mono ?_ fun _ _ => trivial)
  intro item m₁ items
  rw [wp_get_bind]
  dsimp only
  cases item with
  | handle h =>
    dsimp only
    cases selected : (m₁.heap.object? h).bind select with
    | none => exact trivial
    | some value =>
      obtain ⟨object, behind, selected⟩ := Option.bind_eq_some_iff.1 selected
      show ∃ object, m.heap.object? h = some object ∧ select object = some value
      rw [Heap.object?, items.heap.objects] at behind
      exact ⟨object, behind, selected⟩
  | _ => exact trivial

/-- Asking changes nothing but the conversation, whether or not there is an answer. -/
theorem asking_eq (question : Asking α) (m : Machine World) :
    asking question m =
      match question m.world.link with
      | .ok a link => .ok a { m with world := { m.world with link := link } }
      | .error cause link =>
        .error (.node cause) { m with world := { m.world with link := link } } := by
  rw [asking]
  show (match question m.world.link with
    | .ok a link => _
    | .error cause link => _ : Exec World α) m = _
  cases question m.world.link with
  | ok a link => rfl
  | error cause link => rfl

theorem keeps_asking (question : Asking α)
    (h : ∀ m link, R m { m with world := { m.world with link := link } }) :
    Keeps R (asking question) := by
  intro m
  rw [wp, asking_eq]
  cases question m.world.link with
  | ok a link => exact h m link
  | error cause link => exact h m link

theorem returns_asking {P : α → Prop} {question : Asking α} (h : Returns P question) :
    Returns P (asking question) := by
  intro m a m' he
  rw [asking_eq] at he
  cases answer : question m.world.link with
  | ok b link =>
    rw [answer] at he
    cases he
    exact h _ _ _ answer
  | error cause link => rw [answer] at he; cases he

/-- Where a contract is looked for: first among those the run has touched, then at the node. -/
theorem findContract_eq (setting : Setting) (scriptHash : Bytes) (m : Machine World) :
    findContract setting scriptHash m =
      match m.world.contracts.lookup scriptHash with
      | some fate => .ok (fate.map .deployed) m
      | none =>
        (do
          let found ← asking (setting.node.contract scriptHash setting.height)
          return found.map FoundContract.remote : Exec World (Option FoundContract)) m := by
  rw [findContract]
  show (match m.world.contracts.lookup scriptHash with
    | some fate => _
    | none => _ : Exec World (Option FoundContract)) m = _
  cases m.world.contracts.lookup scriptHash with
  | some fate => rfl
  | none => rfl

section

variable [CreationBlind R] {setting : Setting} [QueryBlind setting.height R]

/-! ## Objects and contracts -/

theorem keeps_pushObject {object : Object} (h : object.Plain) : Keeps R (pushObject object) :=
  (CreationBlind.made h).bind fun _ => keeps_push _

theorem keeps_pushOptional {wrap : α → Object} (h : ∀ a, (wrap a).Plain) (found : Option α) :
    Keeps R (pushOptional (found.map wrap)) := by
  cases found with
  | some a => exact keeps_pushObject (h a)
  | none => exact keeps_pushBytes _

theorem keeps_findContract (scriptHash : Bytes) : Keeps R (findContract setting scriptHash) := by
  rw [findContract]
  refine keeps_get.bind fun m => ?_
  split
  · exact keeps_pure _
  · exact (QueryBlind.asked _ _ (.inl rfl)).bind fun _ => keeps_pure _

theorem keeps_pushContract (found : FoundContract) : Keeps R (pushContract found) := by
  cases found with
  | deployed d => exact keeps_push _
  | remote c => exact keeps_pushObject trivial

theorem keeps_findCallee (scriptHash : Bytes) : Keeps R (findCallee setting scriptHash) :=
  (keeps_findContract scriptHash).bind fun _ => keeps_pure _

/-! ## Chain data -/

theorem keeps_popBlockHash : Keeps R (popBlockHash setting) := by
  refine keeps_popBytes.bind fun data => Keeps.ite ?_ (Keeps.ite (keeps_pure _) (keeps_refuse _))
  refine (keeps_liftItem _).bind fun index => .guarded_refuse fun inside => ?_
  dsimp only
  split
  · exact keeps_pure _
  · next below =>
    have within : index.toNat ≤ setting.height := by omega
    exact QueryBlind.asked _ _ (.inr ⟨_, within, rfl⟩)

theorem keeps_blockchain (call : BlockchainCall) : Keeps R (blockchain setting call) := by
  cases call with
  | getHeight => exact keeps_pushInt _
  | getBlock =>
    refine keeps_popBlockHash.bind fun hash => ?_
    cases hash with
    | some hash =>
      exact (QueryBlind.asked _ _ (.inl rfl)).bind (keeps_pushOptional fun _ => trivial)
    | none => exact keeps_pushBytes _
  | getHeader =>
    refine keeps_popBlockHash.bind fun hash => ?_
    cases hash with
    | some hash =>
      exact (QueryBlind.asked _ _ (.inl rfl)).bind (keeps_pushOptional fun _ => trivial)
    | none => exact keeps_pushBytes _
  | getContract =>
    refine (keeps_popHash _).bind fun hash => (keeps_findContract hash).bind fun found => ?_
    cases found with
    | some found => exact keeps_pushContract found
    | none => exact keeps_pushBytes _
  | getTransaction =>
    exact (keeps_popHash _).bind fun hash => (QueryBlind.asked _ _ (.inl rfl)).bind
      (keeps_pushOptional fun _ => trivial)
  | getTransactionHeight =>
    refine (keeps_popHash _).bind fun hash =>
      (QueryBlind.asked _ _ (.inl rfl)).bind fun height => ?_
    cases height with
    | some height => exact keeps_pushInt _
    | none => exact keeps_pushInt _
  | getAccount =>
    exact (keeps_popHash _).bind fun hash => (QueryBlind.asked _ _ (.inl rfl)).bind fun found =>
      keeps_pushObject trivial
  | getAsset =>
    exact (keeps_popHash _).bind fun hash => (QueryBlind.asked _ _ (.inl rfl)).bind
      (keeps_pushOptional fun _ => trivial)
  | getValidators => exact keeps_refuse _

end

section

variable [GrowthBlind R]

theorem keeps_header (call : HeaderCall) : Keeps R (header call) := by
  refine (keeps_popObject _ _).bind fun h => ?_
  cases call with
  | getHash | getPrevHash | getMerkleRoot | getNextConsensus => exact keeps_pushBytes _
  | getIndex | getTimestamp | getVersion | getConsensusData => exact keeps_pushInt _

theorem keeps_block (call : BlockCall) : Keeps R (block call) := by
  refine (keeps_popHandle _ _).bind fun found => ?_
  cases call with
  | getTransactionCount => exact keeps_pushInt _
  | getTransactions => exact keeps_pushParts _ _ _
  | getTransaction =>
    exact keeps_popInt.bind fun _ => (keeps_refuse _).guarded fun _ => keeps_push _

theorem keeps_part (call : PartCall) : Keeps R (part call) := by
  cases call with
  | attributeUsage => exact (keeps_popObject _ _).bind fun _ => keeps_pushInt _
  | attributeData => exact (keeps_popObject _ _).bind fun _ => keeps_pushBytes _
  | inputHash => exact (keeps_popObject _ _).bind fun _ => keeps_pushBytes _
  | inputIndex => exact (keeps_popObject _ _).bind fun _ => keeps_pushInt _
  | outputAssetId => exact (keeps_popObject _ _).bind fun _ => keeps_pushBytes _
  | outputValue => exact (keeps_popObject _ _).bind fun _ => keeps_pushInt _
  | outputScriptHash => exact (keeps_popObject _ _).bind fun _ => keeps_pushBytes _
  | witnessScript => exact (keeps_popObject _ _).bind fun _ => keeps_pushBytes _

end

section

variable [CreationBlind R] {setting : Setting} [QueryBlind setting.height R]

theorem keeps_fetchReference (input : Input) : Keeps R (fetchReference setting input) := by
  rw [fetchReference]
  refine (QueryBlind.asked _ _ (.inl rfl)).bind fun previous => ?_
  cases previous with
  | none => exact keeps_refuse _
  | some previous =>
    refine (keeps_refuse _).guarded fun _ => ?_
    have plain : (Object.transaction previous).Plain := trivial
    exact (CreationBlind.made plain).bind fun _ => keeps_pure _

theorem keeps_transaction (call : TransactionCall) : Keeps R (transaction setting call) := by
  cases call with
  | getHash => exact (keeps_popHandle _ _).bind fun _ => keeps_pushBytes _
  | getType => exact (keeps_popHandle _ _).bind fun _ => keeps_pushInt _
  | getAttributes => exact (keeps_popHandle _ _).bind fun _ => keeps_pushParts _ _ _
  | getInputs => exact (keeps_popHandle _ _).bind fun _ => keeps_pushParts _ _ _
  | getOutputs => exact (keeps_popHandle _ _).bind fun _ => keeps_pushParts _ _ _
  | getWitnesses => exact (keeps_popHandle _ _).bind fun _ => keeps_pushParts _ _ _
  | getReferences =>
    refine (keeps_popHandle _ _).bind fun found => Keeps.bind ?_ fun _ => keeps_pushSequence _ _
    exact (keeps_refuse _).guarded fun _ => Keeps.mapM keeps_fetchReference _
  | getUnspentCoins => exact keeps_refuse _
  | getScript =>
    refine (keeps_popHandle _ _).bind fun found => Keeps.bind ?_ fun _ => keeps_pushBytes _
    rw [invocationScript]
    split
    · exact keeps_pure _
    · exact keeps_refuse _

theorem keeps_account (call : AccountCall) : Keeps R (account setting call) := by
  cases call with
  | getScriptHash => exact (keeps_popObject _ _).bind fun _ => keeps_pushBytes _
  | getVotes => exact (keeps_popObject _ _).bind fun _ => keeps_pushSequence _ _
  | getBalance =>
    exact (keeps_popObject _ _).bind fun _ => (keeps_popHash _).bind fun _ => keeps_pushInt _
  | isStandard =>
    refine (keeps_popHash _).bind fun hash => (keeps_findContract hash).bind fun found => ?_
    cases found with
    | some found => exact keeps_pushBool _
    | none => exact keeps_pushBool _

end

section

variable {setting : Setting}

theorem keeps_renewAsset [EventBlind R] : Keeps R (renewAsset setting) := by
  intro m
  -- what is renewed is the object that the handle stands for, and that has to be an asset
  refine wp_bind.2 (((wp_popHandle _ _).and (keeps_popHandle (R := OnlyGrowth) _ _ m)).mono ?_
    fun _ h => GrowthBlind.of_onlyGrowth h.2)
  rintro ⟨handle, asset⟩ m₁ ⟨⟨object, behind, selected⟩, popped⟩
  refine wp_bind.2 ((keeps_popInt (R := OnlyGrowth) m₁).mono ?_
    fun _ h => GrowthBlind.of_onlyGrowth (popped.trans h))
  intro years m₂ popped'
  have items := popped.trans popped'
  have renews (renewed : Asset) :
      R m₂ { m₂ with heap := m₂.heap.setObject handle.root (.asset renewed) } := by
    have found : m₂.heap.object? handle = some (.asset asset) := by
      split at selected
      · cases selected
        rwa [Heap.object?, items.heap.objects]
      · cases selected
    exact EventBlind.evolved m₂ _ (.renew found renewed) (.setObject _ _ _)
  have rest : wp (do
      if years < 0 ∨ years > 0xFF then refuse (.renewalYears years)
      let renewed := asset.renew setting.height years.toNat
      modifyHeap (·.setObject handle.root (.asset renewed))
      pushInt renewed.expiration.toNat) (fun _ => R m₂) (R m₂) m₂ := by
    split
    · exact GrowthBlind.refl R m₂
    · refine wp_bind.2 ((keeps_pushInt _ _).mono (fun _ _ => GrowthBlind.trans (renews _))
        fun _ => GrowthBlind.trans (renews _))
  exact rest.mono (fun _ _ => GrowthBlind.trans (GrowthBlind.of_onlyGrowth items))
    fun _ => GrowthBlind.trans (GrowthBlind.of_onlyGrowth items)

theorem keeps_asset_of_ne_renew [GrowthBlind R] {call : AssetCall} (other : call ≠ .renew) :
    Keeps R (asset setting call) := by
  cases call with
  | create => exact keeps_refuse _
  | renew => exact absurd rfl other
  | getAssetId | getOwner | getAdmin | getIssuer =>
    exact (keeps_popHandle _ _).bind fun _ => keeps_pushBytes _
  | getAssetType | getAmount | getAvailable | getPrecision =>
    exact (keeps_popHandle _ _).bind fun _ => keeps_pushInt _

end

/-! ## The run and its frames -/

section

variable [CreationBlind R] {setting : Setting} [QueryBlind setting.height R]

theorem keeps_runtime (call : RuntimeCall) : Keeps R (runtime setting call) := by
  cases call with
  | checkWitness =>
    refine keeps_popBytes.bind fun operand => Keeps.bind ?_ fun _ => keeps_pushBool _
    rw [checkWitness]
    split
    · exact keeps_pure _
    · exact keeps_refuse _
  | getTime =>
    refine Keeps.bind ((QueryBlind.asked _ _ (.inl rfl)).bind fun found => ?_) fun _ =>
      keeps_pushInt _
    cases found with
    | some header => exact keeps_pure _
    | none => exact keeps_refuse _
  | getTrigger => exact keeps_pushInt _
  | log =>
    exact keeps_popBytes.bind fun _ => keeps_executing.bind fun _ => CreationBlind.announced _
  | notify =>
    exact keeps_pop.bind fun _ => keeps_executing.bind fun _ => keeps_get.bind fun _ =>
      CreationBlind.announced _
  | serialize =>
    exact keeps_pop.bind fun _ => keeps_get.bind fun _ => (keeps_liftItem _).bind fun _ =>
      keeps_pushBytes _
  | deserialize =>
    refine keeps_popBytes.bind fun _ => (keeps_liftItem _).bind fun tree => ?_
    exact (keeps_onHeap_of_grows fun heap => heap.grows_build tree).bind fun _ => keeps_push _
  | platform => exact keeps_pushBytes _

/-- Reading through a context, whether the run or the node has the value. -/
theorem keeps_readStorage (overlay : StorageOverlay) (context : StorageContext) (key : Bytes) :
    Keeps R (asking (overlay.read setting.node setting.height context key)) := by
  rw [StorageOverlay.read]
  split
  · exact GrowthBlind.refl R
  · exact QueryBlind.asked _ _ (.inl rfl)

end

section

variable [GrowthBlind R]

theorem keeps_engine (call : EngineCall) : Keeps R (engine call) := by
  cases call with
  | getScriptContainer => exact keeps_refuse _
  | getExecutingScriptHash => exact keeps_executing.bind fun _ => keeps_pushBytes _
  | getCallingScriptHash => exact keeps_get.bind fun _ => keeps_pushBytes _
  | getEntryScriptHash => exact keeps_get.bind fun _ => keeps_pushBytes _

theorem keeps_popIterator (keyed : Bool) : Keeps R (popIterator keyed) :=
  (keeps_popHandle _ _).bind fun _ => keeps_pure _

/-- Reading from an iterator. -/
theorem keeps_readIterator (keyed : Bool) (read : Heap → Nat → Except ItemFault Item) :
    Keeps R (do
      let id ← popIterator keyed
      push (← read (← get).heap id) : Exec World Unit) :=
  (keeps_popIterator _).bind fun _ => keeps_get.bind fun _ => (keeps_liftItem _).bind fun _ =>
    keeps_push _

end

theorem keeps_iterator [EventBlind R] (call : IteratorCall) : Keeps R (iterator call) := by
  have made (it : Iterator) : Keeps R (pushObject (.iterator it)) := by
    have harmless : (Object.iterator it).Harmless := trivial
    exact (EventBlind.made harmless).bind fun _ => keeps_push _
  have concat (keyed : Bool) : Keeps R (concatIterators keyed) :=
    (keeps_popIterator _).bind fun _ => (keeps_popIterator _).bind fun _ => made _
  cases call with
  | createEnumerator =>
    exact keeps_pop.bind fun _ => keeps_get.bind fun _ => (keeps_liftItem _).bind fun _ => made _
  | createIterator =>
    exact keeps_pop.bind fun _ => keeps_get.bind fun _ => (keeps_liftItem _).bind fun _ => made _
  | next =>
    exact (keeps_popIterator _).bind fun id => Keeps.bind
      (fun m => EventBlind.evolved m _ (.advance m.heap id) (.advance m.heap id))
      fun _ => keeps_pushBool _
  | value => exact keeps_readIterator false Heap.iteratorValue
  | key => exact keeps_readIterator true Heap.iteratorKey
  | concatEnumerators => exact concat false
  | concatIterators => exact concat true
  | keys => exact (keeps_popIterator _).bind fun _ => made _
  | values => exact (keeps_popIterator _).bind fun _ => made _

end Exec

/-! ## All of them -/

/-- Does a system call reach into storage or contracts, or hand out the right to? -/
def Syscall.reaches : Syscall → Bool
  | .contract .create | .contract .migrate | .contract .destroy => true
  | .contract .getStorageContext => true
  | .storage .getContext | .storage .put | .storage .putEx | .storage .delete => true
  | _ => false

/-- Does a system call change an object that was there before, or make an iterator? -/
def Syscall.changesObject : Syscall → Bool
  | .asset .renew => true
  | .iterator .value | .iterator .key => false
  | .iterator _ => true
  | _ => false

open Exec in
/-- **A system call that changes no object** and reaches neither into storage nor into contracts
keeps every relation that looks neither at what is made nor at questions about the height of the
run. -/
theorem Syscall.keeps_run_of_not_changesObject [CreationBlind R] (setting : Setting)
    [QueryBlind setting.height R] {call : Syscall} (reaches : call.reaches = false)
    (h : call.changesObject = false) : Keeps R (call.run setting) := by
  cases call with
  | blockchain call => exact keeps_blockchain call
  | header call => exact keeps_header call
  | block call => exact keeps_block call
  | transaction call => exact keeps_transaction call
  | part call => exact keeps_part call
  | account call => exact keeps_account call
  | asset call => exact keeps_asset_of_ne_renew fun same => by subst same; cases h
  | runtime call => exact keeps_runtime call
  | engine call => exact keeps_engine call
  | iterator call =>
    cases call with
    | value => exact keeps_readIterator false Heap.iteratorValue
    | key => exact keeps_readIterator true Heap.iteratorKey
    | createEnumerator | createIterator | next | concatEnumerators | concatIterators | keys
    | values => cases h
  | contract call =>
    cases call with
    | getScript => exact (keeps_popObject _ _).bind fun _ => keeps_pushBytes _
    | isPayable => exact (keeps_popObject _ _).bind fun _ => keeps_pushBool _
    | create | migrate | destroy | getStorageContext => cases reaches
  | storage call =>
    cases call with
    | getReadOnlyContext => exact keeps_executing.bind fun _ => keeps_pushObject rfl
    | get =>
      exact (keeps_popObject _ _).bind fun _ => keeps_popBytes.bind fun _ => keeps_get.bind fun _ =>
        (keeps_readStorage _ _ _).bind fun _ => keeps_pushBytes _
    | find => exact keeps_refuse _
    | asReadOnly => exact (keeps_popObject _ _).bind fun _ => keeps_pushObject rfl
    | getContext | put | putEx | delete => cases reaches

/-- **A system call that reaches neither into storage nor into contracts** keeps every
relation that looks neither at objects nor at questions about the height of the run. -/
theorem Syscall.keeps_run [EventBlind R] (setting : Setting) [QueryBlind setting.height R]
    {call : Syscall} (h : call.reaches = false) : Exec.Keeps R (call.run setting) := by
  cases changes : call.changesObject with
  | false => exact keeps_run_of_not_changesObject setting h changes
  | true =>
    cases call with
    | asset call =>
      cases call with
      | renew => exact Exec.keeps_renewAsset
      | _ => cases changes
    | iterator call => exact Exec.keeps_iterator call
    | _ => cases changes

namespace Machine

instance : Discreet SameStores where
  asked _ _ _ := Exec.keeps_asking _ fun _ _ => ⟨rfl, rfl, fun _ h => h⟩
  announced _ := Exec.keeps_modify fun _ => ⟨rfl, rfl, fun _ h => h⟩
  evolved _ _ h := ⟨rfl, rfl, fun _ => h.grants⟩

instance : Discreet SameControl where
  asked _ _ _ := Exec.keeps_asking _ fun _ _ => ⟨rfl, rfl, rfl⟩
  announced _ := Exec.keeps_modify fun _ => ⟨rfl, rfl, rfl⟩
  evolved _ _ _ := ⟨rfl, rfl, rfl⟩

end Machine

end DryRun
