import DryRun.Proofs.Syscall.Calls
import DryRun.Proofs.Syscall.History

/-!
# Finding contracts by their history

A contract is found by what happened to it last in the run, and only if nothing did the node is
asked.  `Exec.resolve` says this in terms of a history, and `Machine.Knows m history` says that the
contracts of `m` are what this history has made of nothing.

* `Machine.Resolves` — whoever looks for a contract finds what the history tells: calls of
  contracts, and the system calls that fetch a contract or ask whether it is standard.
* `Machine.Knows.resolves` — a machine that knows its history resolves contracts by it.
* `Exec.wp_callContract` — a call enters the contract that is found, or fails.
* `Exec.wp_deploys` — a contract is deployed only if there is none of this name.  `Exec.wp_create`
  and `Exec.wp_migrate` say so for the two system calls that deploy.
-/

set_option autoImplicit false

namespace DryRun

open Machine (Makes OnlyItems SameControl SameStores)

variable {setting : Setting} {limit : GasLimit} {history : List Change} {m m' : Machine World}

namespace Exec

/-! ## What a history tells -/

/-- The contract of a name, as a history tells: the deployment that stands, or nothing if the last
thing that happened to it was its destruction, and only otherwise what the node has. -/
def resolve (setting : Setting) (history : List Change) (scriptHash : Bytes) :
    Exec World (Option FoundContract) :=
  match fate history scriptHash with
  | some (some (d, _)) => pure (some (.deployed d))
  | some none => pure none
  | none => do return (← asking (setting.node.contract scriptHash setting.height)).map .remote

/-- Nothing has gone on but the conversation with the node. -/
def OnlyLink (m m' : Machine World) : Prop :=
  ∃ link, m' = { m with world := { m.world with link } }

theorem onlyLink_asking {α β : Type} (question : Asking α) (f : α → β) :
    Keeps OnlyLink (do return f (← asking question)) := by
  intro m
  refine wp_bind.2 ?_
  rw [wp, asking_eq]
  cases question m.world.link with
  | ok a link => exact ⟨link, rfl⟩
  | error cause link => exact ⟨link, rfl⟩

theorem onlyLink_findContract (scriptHash : Bytes) :
    Keeps OnlyLink (findContract setting scriptHash) := by
  intro m
  rw [wp, findContract_eq]
  cases m.world.contracts.lookup scriptHash with
  | some fate => exact ⟨m.world.link, rfl⟩
  | none => exact onlyLink_asking _ _ m

theorem onlyLink_resolve (scriptHash : Bytes) :
    Keeps OnlyLink (resolve setting history scriptHash) := by
  rw [resolve]
  cases fate history scriptHash with
  | some last => cases last <;> exact fun m => ⟨m.world.link, rfl⟩
  | none => exact onlyLink_asking _ _

/-- A deployment that is found is the one that stands. -/
theorem fate_of_resolve {scriptHash : Bytes} {d : Deployed}
    (h : resolve setting history scriptHash m = .ok (some (.deployed d)) m') :
    ∃ creator, fate history scriptHash = some (some (d, creator)) := by
  rw [resolve] at h
  cases happened : fate history scriptHash with
  | some last =>
    rw [happened] at h
    cases last with
    | some standing =>
      cases h
      exact ⟨standing.2, rfl⟩
    | none => cases h
  | none =>
    rw [happened] at h
    obtain ⟨found, m₁, -, h⟩ := bind_eq_ok h
    cases found <;> cases h

/-- What a contract that was found is run as. -/
def FoundContract.callee (found : FoundContract) : Callee :=
  ⟨found.contract.script, found.contract.hasDynamicInvoke⟩

/-- A call of a contract from `m` enters the one that a history tells, at the start of its script
and with the right of its own to call contracts chosen at run time, before or in place of the rest
of the running frame.  Nothing else is done to the frames. -/
inductive Enters (setting : Setting) (history : List Change) (frame : Frame) (tail : Bool)
    (operand : Bytes) (m m' : Machine World) : Prop where
  /-- There is a contract of the name that is called. -/
  | found {name : Bytes} {found : FoundContract} {m₁ m₂ : Machine World}
    (named : callTarget frame operand m = .ok name m₁)
    (resolved : resolve setting history name m₁ = .ok (some found) m₂)
    (frames : m'.frames =
      ⟨.ofBytes found.contract.script, 0, found.contract.hasDynamicInvoke⟩ ::
        if tail then m.frames.tail else m.frames)
    (rest : m' = { m₂ with frames := m'.frames })

/-- No contract is entered by a call. -/
inductive Unentered (setting : Setting) (history : List Change) (frame : Frame) (tail : Bool)
    (operand : Bytes) (m m' : Machine World) : Prop where
  /-- No contract may be called, or none is named. -/
  | unnamed {fault : Fault} (failed : callTarget frame operand m = .error fault m')
  /-- The node fails. -/
  | unresolved {name : Bytes} {m₁ : Machine World} {fault : Fault}
    (named : callTarget frame operand m = .ok name m₁)
    (failed : resolve setting history name m₁ = .error fault m')
  /-- There is no contract of the name that is called. -/
  | unknown {name : Bytes} {m₁ : Machine World}
    (named : callTarget frame operand m = .ok name m₁)
    (resolved : resolve setting history name m₁ = .ok none m')
  /-- There is one, but no room for another frame. -/
  | crowded {name : Bytes} {found : FoundContract} {m₁ m₂ : Machine World}
    (named : callTarget frame operand m = .ok name m₁)
    (resolved : resolve setting history name m₁ = .ok (some found) m₂)
    (full : Machine.maxFrames ≤ (if tail then m.frames.tail else m.frames).length)

/-- The script of a contract that is called, as a history tells. -/
def resolveCallee (setting : Setting) (history : List Change) (scriptHash : Bytes) :
    Exec World (Option Callee) := do
  return (← resolve setting history scriptHash).map FoundContract.callee

end Exec

open Exec

/-! ## Knowing the history -/

namespace Machine

/-- Contracts are what a history has made of nothing, and those that were deployed have objects. -/
structure Knows (m : Machine World) (history : List Change) : Prop where
  /-- The contracts. -/
  contracts : m.world.contracts = (Stores.empty.after history).contracts
  /-- The objects. -/
  objects : ∀ d creator, .deployed d creator ∈ history →
    m.heap.objects[d.object]? = some (.contract d.contract)

/-- On the way from `m` to `m'` nothing has happened to contracts. -/
structure Amid (m m' : Machine World) : Prop where
  /-- The contracts are the same. -/
  contracts : m'.world.contracts = m.world.contracts
  /-- The objects are still there. -/
  retains : m.heap.Retains m'.heap

theorem Knows.amid (h : m.Knows history) (k : m.Amid m') : m'.Knows history :=
  ⟨k.contracts.trans h.contracts, fun d creator mem => k.retains.contract (h.objects d creator mem)⟩

theorem Knows.makes {changes : List Change} (h : m.Knows history) (k : Makes changes m m') :
    m'.Knows (changes ++ history) where
  contracts := by
    rw [Stores.after_append, ← Stores.contracts_after (s := m.world.stores) h.contracts]
    exact congrArg Stores.contracts k.stores
  objects d creator mem := by
    rcases List.mem_append.1 mem with mem | mem
    · exact k.objects d creator mem
    · exact k.retains.contract (h.objects d creator mem)

/-! ## Resolving -/

/-- Whoever looks for a contract finds what a history tells. -/
structure Resolves (setting : Setting) (limit : GasLimit) (history : List Change)
    (m : Machine World) : Prop where
  /-- Looking for a contract. -/
  find : ∀ scriptHash, findContract setting scriptHash m = resolve setting history scriptHash m
  /-- Calls of contracts, before or in place of the rest of the running frame. -/
  call : ∀ frame tail operand,
    callContract (setting.host limit) frame tail operand m =
      callContract (setting.hostWith limit (resolveCallee setting history)) frame tail operand m
  /-- What is entered by a call, and what a call fails for. -/
  enters : ∀ frame tail operand,
    wp (callContract (setting.host limit) frame tail operand)
      (fun _ => Enters setting history frame tail operand m)
      (Unentered setting history frame tail operand m) m
  /-- Fetching a contract. -/
  getContract : blockchain setting .getContract m = (do
    match ← resolve setting history (← popHash Reader.hash160Size) with
    | some found => pushContract found
    | none => pushBytes [] : Exec World Unit) m
  /-- Asking whether a contract only checks signatures. -/
  isStandard : account setting .isStandard m = (do
    match ← resolve setting history (← popHash Reader.hash160Size) with
    | some found => pushBool (Standard.isStandard found.contract.script)
    | none => pushBool true : Exec World Unit) m

end Machine

namespace Exec

section

variable (contracts : m.world.contracts = (Stores.empty.after history).contracts)

include contracts

theorem findContract_eq_resolve (scriptHash : Bytes) :
    findContract setting scriptHash m = resolve setting history scriptHash m := by
  rw [findContract_eq, contracts, lookup_after, resolve]
  cases fate history scriptHash with
  | none => rfl
  | some last => cases last <;> rfl

theorem findCallee_eq_resolveCallee (scriptHash : Bytes) :
    findCallee setting scriptHash m = resolveCallee setting history scriptHash m := by
  rw [findCallee, resolveCallee, bind_eq, bind_eq, findContract_eq_resolve contracts]
  rfl

/-- **A call enters the contract that the history tells**, and fails only if there is none to be
entered. -/
theorem wp_callContract (frame : Frame) (tail : Bool) (operand : Bytes) :
    wp (callContract (setting.host limit) frame tail operand)
      (fun _ => Enters setting history frame tail operand m)
      (Unentered setting history frame tail operand m) m := by
  rw [callContract]
  refine wp_bind.2 ?_
  rw [wp]
  cases named : callTarget frame operand m with
  | error fault m₁ => exact .unnamed named
  | ok name m₁ =>
    have items : OnlyItems m m₁ := (keeps_callTarget operand).ok named
    have same : m₁.world.contracts = m.world.contracts := by rw [items.world]
    have frames : m₁.frames = m.frames := by rw [items.frames]
    refine wp_bind.2 ?_
    rw [wp, Setting.contract_host, findCallee_eq_resolveCallee (same.trans contracts),
      resolveCallee, bind_eq]
    cases resolved : resolve setting history name m₁ with
    | error fault m₂ => exact .unresolved named resolved
    | ok found m₂ =>
      obtain ⟨link, rfl⟩ := (onlyLink_resolve _).ok resolved
      cases found with
      | none => exact .unknown named resolved
      | some found =>
        cases tail with
        | false =>
          refine wp_enter _ (fun _ => .found named resolved ?_ rfl) fun full => ?_
          · exact congrArg (_ :: ·) frames
          · exact .crowded named resolved (by rwa [← frames])
        | true =>
          refine wp_bind.2 (wp_enter _ (fun _ => .found named resolved ?_ rfl) fun full => ?_)
          · exact congrArg (_ :: ·.tail) frames
          · exact .crowded named resolved (by rwa [← frames])

end

/-- What takes a name off the stack and then looks under it, which may be done in two ways that
agree as long as nothing happens to contracts. -/
theorem look_congr {α β : Type} {c : Exec World Bytes} {look look' : Bytes → Exec World α}
    {f : Bytes → α → Exec World β} (hc : Keeps SameStores c)
    (h : ∀ m', m'.world.contracts = m.world.contracts → ∀ name, look name m' = look' name m') :
    (c >>= fun name => look name >>= f name) m = (c >>= fun name => look' name >>= f name) m := by
  rw [bind_eq, bind_eq]
  cases taken : c m with
  | ok name m' =>
    dsimp only
    rw [bind_eq, bind_eq, h m' (hc.ok taken).contracts]
  | error fault m' => rfl

end Exec

theorem Machine.Knows.resolves (h : m.Knows history) : m.Resolves setting limit history where
  find := findContract_eq_resolve h.contracts
  call frame tail operand := by
    rw [callContract, callContract]
    refine look_congr (keeps_callTarget operand) fun m' same name => ?_
    rw [Setting.contract_host, Setting.contract_hostWith]
    exact findCallee_eq_resolveCallee (same.trans h.contracts) name
  enters := wp_callContract h.contracts
  getContract := look_congr (keeps_popHash _) fun m' same =>
    findContract_eq_resolve (same.trans h.contracts)
  isStandard := look_congr (keeps_popHash _) fun m' same =>
    findContract_eq_resolve (same.trans h.contracts)

/-! ## Deploying -/

namespace Exec

/-- Deploying the contract that is described on the stack comes to `found`. -/
inductive Deploys (setting : Setting) (history : List Change) (m : Machine World)
    (found : FoundContract) (m' : Machine World) : Prop where
  /-- There is a contract of this name, and nothing happens to contracts. -/
  | stands {contract : Contract} {m₁ : Machine World}
    (described : popNewContract m = .ok contract m₁)
    (resolved : resolve setting history contract.scriptHash m₁ = .ok (some found) m')
    (contracts : m'.world.contracts = m.world.contracts)
  /-- There is none, and the one that is described is deployed in the name of the running script. -/
  | deployed {contract : Contract} {m₁ m₂ : Machine World}
    (described : popNewContract m = .ok contract m₁)
    (resolved : resolve setting history contract.scriptHash m₁ = .ok none m₂)
    (new : found = .deployed ⟨contract, m.heap.objects.size⟩)
    (contracts : m'.world.contracts =
      m.world.contracts.deploy ⟨contract, m.heap.objects.size⟩ (some m.executing))

/-- No contract is deployed: there is no description of one on the stack, or the node does not tell
whether there is one of its name. -/
inductive Undeployed (setting : Setting) (history : List Change) (m m' : Machine World) : Prop where
  /-- No contract is described. -/
  | undescribed {fault : Fault} (failed : popNewContract m = .error fault m')
    (contracts : m'.world.contracts = m.world.contracts)
  /-- The node fails. -/
  | unresolved {contract : Contract} {m₁ : Machine World} {fault : Fault}
    (described : popNewContract m = .ok contract m₁)
    (failed : resolve setting history contract.scriptHash m₁ = .error fault m')
    (contracts : m'.world.contracts = m.world.contracts)

/-- From `m` to `m'` a handle to a contract was pushed. -/
def Pushes (found : FoundContract) (m m' : Machine World) : Prop :=
  ∃ handle, m'.stack.items = .handle handle :: m.stack.items ∧
    m'.heap.object? handle = some (.contract found.contract)

/-- **A contract is deployed only if there is none of this name.** -/
theorem wp_deploys (contracts : m.world.contracts = (Stores.empty.after history).contracts) :
    wp (deployNew setting) (Deploys setting history m) (Undeployed setting history m) m := by
  rw [deployNew]
  refine wp_bind.2 ?_
  rw [wp]
  cases described : popNewContract m with
  | error fault m₁ =>
    have items : OnlyItems m m₁ := keeps_popNewContract.error described
    exact .undescribed described (by rw [items.world])
  | ok contract m₁ =>
    have items : OnlyItems m m₁ := keeps_popNewContract.ok described
    have same : m₁.world.contracts = m.world.contracts := by rw [items.world]
    have executing : m₁.executing = m.executing :=
      (keeps_popNewContract (R := SameControl)).ok described |>.executing
    refine wp_bind.2 ?_
    rw [wp, findContract_eq_resolve (same.trans contracts)]
    have asks : Keeps OnlyLink (resolve setting history contract.scriptHash) := onlyLink_resolve _
    cases resolved : resolve setting history contract.scriptHash m₁ with
    | error fault m₂ =>
      obtain ⟨link, rfl⟩ := asks.error resolved
      exact .unresolved described resolved same
    | ok found m₂ =>
      obtain ⟨link, rfl⟩ := asks.ok resolved
      cases found with
      | some found => exact .stands described resolved same
      | none =>
        refine .deployed described resolved ?_ ?_
        · show FoundContract.deployed ⟨contract, m₁.heap.objects.size⟩ = _
          rw [items.objects]
        · show m₁.world.contracts.deploy ⟨contract, m₁.heap.objects.size⟩ (some m₁.executing) = _
          rw [items.objects, same, executing]

theorem wp_pushContract {found : FoundContract} (objects : ∀ d, found = .deployed d →
      m.heap.objects[d.object]? = some (.contract d.contract)) :
    wp (pushContract found) (fun _ m' => Pushes found m m' ∧ m'.world = m.world)
      (fun _ => False) m := by
  cases found with
  | deployed d => exact ⟨⟨⟨d.object, []⟩, rfl, objects d rfl⟩, rfl⟩
  | remote c =>
    exact ⟨⟨⟨m.heap.objects.size, []⟩, rfl, Array.getElem?_push_size⟩, rfl⟩

end Exec

namespace Machine

variable {scriptHash : Bytes} {d : Deployed}

theorem Knows.fate_of_lookup (h : m.Knows history)
    (found : m.world.contracts.lookup scriptHash = some (some d)) :
    ∃ creator, fate history scriptHash = some (some (d, creator)) := by
  rw [h.contracts, lookup_after] at found
  obtain ⟨last, happened, same⟩ := Option.map_eq_some_iff.1 found
  obtain ⟨⟨d', creator⟩, stands, rfl⟩ := Option.map_eq_some_iff.1 same
  exact ⟨creator, by rw [happened, stands]⟩

theorem Knows.fate_of_creatorOf (h : m.Knows history) {creator : Bytes}
    (recorded : m.world.contracts.creatorOf scriptHash = some creator) :
    ∃ d, fate history scriptHash = some (some (d, creator)) := by
  rw [h.contracts, creatorOf_after] at recorded
  obtain ⟨last, happened, same⟩ := Option.bind_eq_some_iff.1 recorded
  obtain ⟨⟨d, creator'⟩, stands, rfl⟩ := Option.map_eq_some_iff.1 same
  exact ⟨d, by rw [happened, stands]⟩

/-- A deployment that stands has an object. -/
theorem Knows.object_of_fate (h : m.Knows history) {creator : Bytes}
    (stands : fate history scriptHash = some (some (d, creator))) :
    m.heap.objects[d.object]? = some (.contract d.contract) :=
  h.objects d creator (mem_of_fate stands).1

end Machine

namespace Exec

/-- What deploying comes to has an object if it is a deployment. -/
theorem Deploys.object (knows : m.Knows history) {d : Deployed} {m₁ : Machine World}
    (deploys : Deploys setting history m (.deployed d) m₁)
    (makes : Makes (newChanges setting m) m m₁) :
    m₁.heap.objects[d.object]? = some (.contract d.contract) := by
  cases deploys with
  | stands described resolved contracts =>
    obtain ⟨creator, stands⟩ := fate_of_resolve resolved
    exact makes.retains.contract (knows.object_of_fate stands)
  | deployed described resolved new contracts =>
    cases new
    have knows₁ := knows.makes makes
    obtain ⟨creator, stands⟩ := knows₁.fate_of_lookup (by
      rw [contracts, ContractOverlay.lookup_deploy, if_pos rfl])
    exact knows₁.object_of_fate stands

/-- **Creating a contract** deploys it if there is none of its name, and pushes the one that there
is then.  If it fails it has not deployed anything. -/
theorem wp_create (knows : m.Knows history) :
    wp (contract setting .create)
      (fun _ m' => ∃ found m₁, Deploys setting history m found m₁ ∧ Pushes found m₁ m' ∧
        m'.world = m₁.world)
      (Undeployed setting history m) m := by
  rw [create_eq]
  refine wp_bind.2 (((wp_deploys knows.contracts).and (records_deployNew m)).mono ?_ fun _ h => h.1)
  rintro found m₁ ⟨deploys, makes⟩
  refine (wp_pushContract fun d same => ?_).mono (fun _ _ pushes => ⟨found, m₁, deploys, pushes⟩)
    fun _ => False.elim
  subst same
  exact deploys.object knows makes

/-- Pushing a contract and destroying another one fails only if the node does not tell whether there
is one to be destroyed. -/
theorem wp_push_destroy {found : FoundContract} (scriptHash : Bytes)
    (objects : ∀ d, found = .deployed d →
      m.heap.objects[d.object]? = some (.contract d.contract)) :
    wp (do pushContract found; destroyContract setting scriptHash) (fun _ => Pushes found m)
      (fun m' => ∃ m₁ fault, m.Amid m₁ ∧ findContract setting scriptHash m₁ = .error fault m')
      m := by
  have pushed : Keeps (Makes []) (pushContract found) := keeps_pushContract found
  refine wp_bind.2 (((wp_pushContract objects).and (pushed m)).mono ?_ fun _ h => h.1.elim)
  rintro - m₁ ⟨⟨pushes, world⟩, quiet⟩
  refine wp_bind.2 ?_
  rw [wp]
  cases outcome : findContract setting scriptHash m₁ with
  | error fault m₂ => exact ⟨m₁, fault, ⟨by rw [world], quiet.retains⟩, outcome⟩
  | ok old m₂ =>
    obtain ⟨link, rfl⟩ := (onlyLink_findContract _).ok outcome
    dsimp only
    split <;> exact pushes

/-- **Migrating** deploys a contract if there is none of its name, and pushes the one that there is
then.  If it fails after that it is because the node does not tell whether there is a contract to be
destroyed. -/
theorem wp_migrate (knows : m.Knows history) :
    wp (migrate setting)
      (fun _ m' => ∃ found m₁, Deploys setting history m found m₁ ∧ Pushes found m₁ m')
      (fun m' => Undeployed setting history m m' ∨ ∃ found m₁, Deploys setting history m found m₁ ∧
        ∃ m₂ fault, m₁.Amid m₂ ∧ findContract setting m₁.executing m₂ = .error fault m') m := by
  rw [migrate_eq]
  refine wp_bind.2 (((wp_deploys knows.contracts).and (records_deployNew m)).mono ?_
    fun _ h => .inl h.1)
  rintro found m₁ ⟨deploys, makes⟩
  have objects : ∀ d, found = .deployed d →
      m₁.heap.objects[d.object]? = some (.contract d.contract) := by
    rintro d rfl
    exact deploys.object knows makes
  rw [wp_executing]
  refine wp.mono (Q := fun _ => Pushes found m₁) ?_
    (fun _ _ pushes => ⟨found, m₁, deploys, pushes⟩) fun _ fails => .inr ⟨found, m₁, deploys, fails⟩
  dsimp only
  split
  · -- what is carried over is nothing that the rest depends on
    let copied : Machine World := { m₁ with world := { m₁.world with
      storage := m₁.world.storage.copy m₁.executing found.contract.scriptHash } }
    have rest : wp (do pushContract found; destroyContract setting m₁.executing)
        (fun _ => Pushes found copied)
        (fun m' => ∃ m₂ fault, copied.Amid m₂ ∧
          findContract setting m₁.executing m₂ = .error fault m') copied :=
      wp_push_destroy m₁.executing objects
    exact wp_bind.2 (rest.mono (fun _ _ pushes => pushes)
      fun _ ⟨m₂, fault, amid, failed⟩ => ⟨m₂, fault, ⟨amid.contracts, amid.retains⟩, failed⟩)
  · exact wp_push_destroy m₁.executing objects

end Exec

end DryRun
