import DryRun.Proofs.Machine.Matching
import DryRun.Proofs.Syscall.Control
import DryRun.Proofs.Syscall.Registry

/-!
# What is charged for is what is used

Some instructions have a price that depends on their operands.  The price looks at the operands
where they lie on the stack, before the instruction takes them, and so two pieces of code have to
agree on where they lie.  `Host.ChargesOperands` says that they do: what is charged for a step that
does not fail is the price of the operands that the step has taken off the stack and used.

Both sides are read off the same items.  `Exec.Takes` says which items an instruction takes and what
they stand for, and the price is computed from the items at their positions on the stack.  That a
name stands for the same thing in both is `Syscall.isListed_of_find?`.
-/

set_option autoImplicit false

namespace DryRun

open Machine (ItemBlind Pays Reads SameControl SameGas Step)

variable {σ η : Type}

/-- The instruction is a system call of a method. -/
def Instruction.Calls (i : Instruction) (method : String) : Prop :=
  i.opcode = .flow .sysCall ∧ ∃ entry,
    Syscall.registry.find? (SyscallId.ofOperand i.operand) = some entry ∧ entry.method = method

namespace Machine

/-- The machine reads `i` and does it in its next step, which does not fail. -/
structure Does (host : Host σ) (m : Machine σ) (i : Instruction) (m' : Machine σ) : Prop where
  /-- It reads the instruction. -/
  reads : ∃ frame next, Reads m frame i next
  /-- The step. -/
  step : m.step host = m'
  /-- It does not fail. -/
  fine : ∀ fault, m'.status ≠ .faulted fault

variable {host : Host σ} {m m' : Machine σ} {i : Instruction}

/-- A step that does not fail pays for its instruction and does it. -/
theorem Does.exists_pays (does : Does host m i m') :
    ∃ frame next due, Pays host m frame i next due ∧
      Exec.execute host frame i (m.ready next due) = .ok () m' := by
  obtain ⟨frame, next, reads⟩ := does.reads
  have step := step_spec host m
  rw [does.step] at step
  cases step with
  | still stopped => rw [reads.running] at stopped; cases stopped
  | done pays executed =>
    obtain ⟨rfl, rfl, rfl⟩ := reads.unique pays.toReads
    exact ⟨_, _, _, pays, executed⟩
  | empty | unread | unpriced | overdrawn | failed | overfull => exact absurd rfl (does.fine _)

end Machine

/-! ## Prices of operands -/

namespace Price

variable {registry : Registry η} {m : Machine σ} {i : Instruction} {u : Int}

/-- A price looks at the evaluation stack and the heap only. -/
theorem units_congr {m' : Machine σ} (stack : m'.stack = m.stack) (heap : m'.heap = m.heap) :
    units registry i m' = units registry i m := by
  simp only [units, syscallUnits, dynamicUnits, multisigUnits, operandInt, operandBytes, operand,
    stack, heap]

/-- A service has no code that is free. -/
theorem not_free_of_isService (service : i.opcode.isService = true) : ¬i.code ≤ 0x61 := by
  intro free
  have none : i.opcode.isService = false := Opcode.isService_of_le free
  rw [service] at none
  cases none

theorem units_sysCall (op : i.opcode = .flow .sysCall) :
    units registry i m = syscallUnits registry (SyscallId.ofOperand i.operand) m := by
  rw [units, if_neg (not_free_of_isService (by rw [op]; rfl)), op]

theorem units_checkMultisig (op : i.opcode = .crypto .checkMultisig) :
    units registry i m = multisigUnits m := by
  rw [units, if_neg (not_free_of_isService (by rw [op]; rfl)), op]

theorem syscallUnits_of_find? {id : Nat} {entry : SyscallEntry η}
    (found : registry.find? id = some entry) (free : entry.price = none) :
    syscallUnits registry id m = dynamicUnits entry.method m := by
  rw [syscallUnits, found]
  dsimp only
  rw [free]

/-- An operand is the item that lies at its position. -/
theorem operand_eq {n : Nat} {item : Item} (h : m.stack.items[n]? = some item) :
    operand m n = .ok item := by
  obtain ⟨inside, rfl⟩ := List.getElem?_eq_some_iff.1 h
  rw [operand, Stack.peek, dif_pos ⟨Int.natCast_nonneg n, by simpa using inside⟩]
  rfl

theorem operandInt_eq {n : Nat} {item : Item} {v : Int} (h : m.stack.items[n]? = some item)
    (read : item.toInt = .ok v) : operandInt m n = .ok v := by
  rw [operandInt, operand_eq h]
  show item.toInt.mapError _ = _
  rw [read]
  rfl

theorem operandBytes_eq {n : Nat} {item : Item} {b : Bytes} (h : m.stack.items[n]? = some item)
    (read : item.toBytes = .ok b) : operandBytes m n = .ok b := by
  rw [operandBytes, operand_eq h]
  show item.toBytes.mapError _ = _
  rw [read]
  rfl

/-- The price of storing counts kibibytes that are begun. -/
theorem storageUnits_eq (keySize valueSize : Nat) :
    storageUnits keySize valueSize =
      (max 1 ((keySize + valueSize + 1023) / 1024) : Nat) := by
  rw [storageUnits]
  omega

theorem dynamicUnits_put {withFlags : Bool} {key value : Bytes} {first keyItem valueItem : Item}
    {rest : List Item} (items : m.stack.items = first :: keyItem :: valueItem :: rest)
    (hkey : keyItem.toBytes = .ok key) (hvalue : valueItem.toBytes = .ok value) :
    dynamicUnits (if withFlags then "Storage.PutEx" else "Storage.Put") m =
      .ok ((max 1 ((key.length + value.length + 1023) / 1024) : Nat) : Int) := by
  have units : (do
      let key ← operandBytes m 1
      let value ← operandBytes m 2
      return storageUnits key.length value.length : Except Fault Int) =
        .ok ((max 1 ((key.length + value.length + 1023) / 1024) : Nat) : Int) := by
    rw [operandBytes_eq (by rw [items]; rfl) hkey, operandBytes_eq (by rw [items]; rfl) hvalue,
      ← storageUnits_eq]
    rfl
  cases withFlags <;> exact units

theorem dynamicUnits_renew {first yearsItem : Item} {years : Nat} {rest : List Item}
    (items : m.stack.items = first :: yearsItem :: rest)
    (hyears : yearsItem.toInt = .ok (years : Int)) :
    dynamicUnits "Asset.Renew" m = .ok (years * assetYear) := by
  show (do
    let years ← operandInt m 1
    if years < 0 then throw (.machine (.negativeYears years))
    return years * assetYear : Except Fault Int) = _
  rw [operandInt_eq (by rw [items]; rfl) hyears]
  simp only [bind, Except.bind, if_neg (Int.not_lt.2 (Int.natCast_nonneg years))]
  rfl

/-- The rights are the bits of a byte. -/
theorem deploymentUnits_eq (contract : Contract) :
    deploymentUnits contract.properties.toNat =
      ((100 + (if contract.hasStorage then 400 else 0) +
        (if contract.hasDynamicInvoke then 500 else 0)) * 1000 : Nat) := by
  have all : ∀ n : Fin 256, deploymentUnits n.1 =
      ((100 + (if UInt8.ofNat n.1 &&& 1 != 0 then 400 else 0) +
        (if UInt8.ofNat n.1 &&& 2 != 0 then 500 else 0)) * 1000 : Nat) := by
    decide +kernel
  have byte := all ⟨contract.properties.toNat, contract.properties.toNat_lt⟩
  rwa [UInt8.ofNat_toNat] at byte

theorem dynamicUnits_deploy {contract : Contract} {operands rest : List Item}
    (items : m.stack.items = operands ++ rest) (describes : contract.Describes operands)
    {method : String} (name : method = "Contract.Create" ∨ method = "Contract.Migrate") :
    dynamicUnits method m = .ok (((100 + (if contract.hasStorage then 400 else 0) +
      (if contract.hasDynamicInvoke then 500 else 0)) * 1000 : Nat) : Int) := by
  have units : (do return deploymentUnits (← operandInt m 3) : Except Fault Int) =
      .ok (deploymentUnits contract.properties.toNat) := by
    obtain ⟨item, found, read⟩ := describes.properties
    have inside : 3 < operands.length := (List.getElem?_eq_some_iff.1 found).1
    rw [operandInt_eq (by rw [items, List.getElem?_append_left inside, found]) read]
    rfl
  rw [← deploymentUnits_eq]
  rcases name with rfl | rfl <;> exact units

theorem multisigUnits_eq {keys : List Bytes} {operands rest : List Item}
    (items : m.stack.items = operands ++ rest) (groups : m.heap.Groups keys operands)
    (some : keys ≠ []) : multisigUnits m = .ok (perKey * keys.length) := by
  have count : 0 < keys.length := List.length_pos_iff.2 some
  have charged : (if (keys.length : Int) < 1 then 1 else perKey * keys.length) =
      perKey * keys.length := if_neg (by omega)
  rw [multisigUnits, items]
  cases groups with
  | @sequence s elements =>
    dsimp only [List.cons_append]
    rw [← Attempts.length_of_mapM elements]
    exact congrArg Except.ok charged
  | @counted item rest' plain number reads =>
    cases item with
    | seq s => exact absurd rfl (plain s)
    | prim p =>
      dsimp only [List.cons_append]
      rw [number]
      exact congrArg Except.ok charged
    | map id => cases number
    | handle h => cases number

end Price

namespace Machine

variable {host : Host σ} {m m' : Machine σ} {i : Instruction}

/-- What a step has done and what it was charged, in units, when it reads an instruction that is no
transfer. -/
theorem Does.charged {registry : Registry η} (does : Does host m i m')
    (priced : host.price = some (Price.amount registry)) (transfer : i.opcode.isTransfer = false)
    (calm : ∀ id call, host.syscall id = some call → Exec.Keeps SameControl call) :
    ∃ frame next due u, Price.units registry i m = .ok u ∧
      Exec.execute host frame i (m.ready next due) = .ok () m' ∧
      m'.gas = m.gas + u * Price.ratio := by
  obtain ⟨frame, next, due, pays, executed⟩ := does.exists_pays
  have inside : frame.position < frame.script.size := by
    rcases Instruction.fetch_ok pays.fetched with ⟨-, rfl, -⟩ | ⟨forth, inside, -⟩
    · cases transfer
    · exact Nat.lt_of_lt_of_le forth inside
  obtain ⟨u, price, rfl⟩ := Host.due_eq_some priced inside pays.price
  rw [Price.units_congr (m.stack_moveTo next) (m.heap_moveTo next)] at price
  refine ⟨frame, next, some (u * Price.ratio), u, price, executed, ?_⟩
  have control : SameControl _ m' :=
    (Exec.keeps_execute_of_not_transfer transfer fun _ => calm _).ok executed
  rw [control.gas, gas_ready]
  rfl

end Machine

/-! ## Operands that are used -/

namespace Exec

variable {setting : Setting} {m m' : Machine World}

theorem write_eq_ok {context : StorageContext} {key value : Bytes}
    (h : (do
      match (← get).world.storage.write context key value with
      | .ok storage => modifyWorld ({ · with storage })
      | .error cause => refuse cause : Exec World Unit) m = .ok () m') :
    m.world.storage.write context key value = .ok m'.world.storage ∧ m'.stack = m.stack := by
  obtain ⟨_, _, got, stored⟩ := bind_eq_ok h
  cases got
  cases outcome : m.world.storage.write context key value with
  | ok storage =>
    rw [outcome] at stored
    cases stored
    exact ⟨rfl, rfl⟩
  | error cause =>
    rw [outcome] at stored
    cases stored

theorem put_eq_ok {withFlags : Bool} (h : put withFlags m = .ok () m') :
    ∃ handle context keyItem key valueItem value flags,
      m.stack.items = .handle handle :: keyItem :: valueItem :: (flags ++ m'.stack.items) ∧
      flags.length = withFlags.toNat ∧
      m.heap.object? handle = some (.storageContext context) ∧
      keyItem.toBytes = .ok key ∧ valueItem.toBytes = .ok value ∧
      m.world.storage.write context key value = .ok m'.world.storage := by
  obtain ⟨context, _, r₁, items₁, ⟨handle, rfl, found⟩, h₁⟩ := takes_popContext.of_bind h
  obtain ⟨key, _, r₂, items₂, ⟨keyItem, rfl, hkey⟩, h₂⟩ := takes_popBytes.of_bind h₁
  obtain ⟨-, h₂⟩ := eq_ok_of_guarded (fun u m' => refuse_ne_ok _ u) h₂
  obtain ⟨value, _, r₃, items₃, ⟨valueItem, rfl, hvalue⟩, h₃⟩ := takes_popBytes.of_bind h₂
  obtain ⟨-, h₃⟩ := eq_ok_of_guarded (fun u m' => refuse_ne_ok _ u) h₃
  rw [Machine.items_withItems] at items₂ items₃
  subst items₂ items₃
  cases withFlags with
  | false =>
    obtain ⟨written, stack⟩ := write_eq_ok h₃
    refine ⟨handle, context, keyItem, key, valueItem, value, [], ?_, rfl, found, hkey, hvalue,
      written⟩
    rw [items₁, stack]
    rfl
  | true =>
    obtain ⟨_, _, r₄, items₄, ⟨flagsItem, rfl, -⟩, h₄⟩ := takes_popInt.of_bind h₃
    obtain ⟨written, stack⟩ := write_eq_ok h₄
    refine ⟨handle, context, keyItem, key, valueItem, value, [flagsItem], ?_, rfl, found, hkey,
      hvalue, written⟩
    rw [Machine.items_withItems] at items₄
    subst items₄
    rw [items₁, stack]
    rfl

theorem renewAsset_eq_ok (h : renewAsset setting m = .ok () m') :
    ∃ handle asset yearsItem, ∃ years : Nat, ∃ rest,
      m.stack.items = .handle handle :: yearsItem :: rest ∧
      m.heap.object? handle = some (.asset asset) ∧
      yearsItem.toInt = .ok (years : Int) ∧ years ≤ 255 ∧
      m'.heap = m.heap.setObject handle.root (.asset (asset.renew setting.height years)) ∧
      m'.stack.items = .ofInt (asset.renew setting.height years).expiration.toNat :: rest := by
  obtain ⟨⟨handle, asset⟩, _, r₁, items₁, ⟨rfl, selected⟩, h₁⟩ :=
    (takes_popHandle _ _).of_bind h
  obtain ⟨v, _, r₂, items₂, ⟨yearsItem, rfl, hyears⟩, h₂⟩ := takes_popInt.of_bind h₁
  obtain ⟨inside, h₂⟩ := eq_ok_of_guarded (fun u m' => refuse_ne_ok _ u) h₂
  rw [Machine.items_withItems] at items₂
  subst items₂
  cases h₂
  have found : m.heap.object? handle = some (.asset asset) := by
    refine object?_of_bind .asset (fun o a same => ?_) selected
    cases o <;> cases same
    rfl
  have natural : ((v.toNat : Nat) : Int) = v := Int.toNat_of_nonneg (by omega)
  exact ⟨handle, asset, yearsItem, v.toNat, r₂, items₁, found, natural.symm ▸ hyears, by omega,
    rfl, rfl⟩

/-! ### Contracts

Deploying a contract and destroying one leave the evaluation stack alone. -/

/-- The evaluation stack is the same. -/
def SameStack (m m' : Machine World) : Prop := m'.stack = m.stack

theorem sameStack_bind {α β : Type} {c : Exec World α} {f : α → Exec World β}
    (hc : Keeps SameStack c) (hf : ∀ a, Keeps SameStack (f a)) : Keeps SameStack (c >>= f) :=
  fun m => wp_bind.2 <| (hc m).mono
    (fun a m₁ h => (hf a m₁).mono (fun _ _ h' => Eq.trans h' h) fun _ h' => Eq.trans h' h)
    fun _ h => h

theorem sameStack_asking {α : Type} (question : Asking α) :
    Keeps SameStack (asking question) := keeps_asking question fun _ _ => rfl

theorem sameStack_findContract (scriptHash : Bytes) :
    Keeps SameStack (findContract setting scriptHash) := by
  refine sameStack_bind (fun m => rfl) fun m => ?_
  split
  · exact fun m => rfl
  · exact sameStack_bind (sameStack_asking _) fun _ m => rfl

theorem sameStack_deploy (contract : Contract) : Keeps SameStack (deploy setting contract) := by
  refine sameStack_bind (sameStack_findContract _) fun found => ?_
  cases found with
  | some found => exact fun m => rfl
  | none => exact fun m => rfl

theorem sameStack_destroyContract (scriptHash : Bytes) :
    Keeps SameStack (destroyContract setting scriptHash) := by
  refine sameStack_bind (sameStack_findContract _) fun found => ?_
  split
  · exact fun m => rfl
  · exact fun m => rfl

theorem pushContract_eq_ok {found : FoundContract} (h : pushContract found m = .ok () m') :
    ∃ handle, m'.stack.items = .handle handle :: m.stack.items := by
  cases found <;> cases h <;> exact ⟨_, rfl⟩

theorem create_eq_ok (h : contract setting .create m = .ok () m') :
    ∃ (contract : Contract) (operands : List Item) (handle : Handle) (rest : List Item),
      m.stack.items = operands ++ rest ∧ contract.Describes operands ∧
      m'.stack.items = .handle handle :: rest := by
  obtain ⟨contract, operands, rest, items, describes, h₁⟩ := takes_popNewContract.of_bind h
  obtain ⟨found, m₁, deployed, pushed⟩ := bind_eq_ok h₁
  have stack : m₁.stack = _ := (sameStack_deploy contract).ok deployed
  obtain ⟨handle, pushed⟩ := pushContract_eq_ok pushed
  exact ⟨contract, operands, handle, rest, items, describes, by rw [pushed, stack]; rfl⟩

theorem migrate_eq_ok (h : migrate setting m = .ok () m') :
    ∃ (contract : Contract) (operands : List Item) (handle : Handle) (rest : List Item),
      m.stack.items = operands ++ rest ∧ contract.Describes operands ∧
      m'.stack.items = .handle handle :: rest := by
  obtain ⟨contract, operands, rest, items, describes, h₁⟩ := takes_popNewContract.of_bind h
  obtain ⟨found, m₁, deployed, h₂⟩ := bind_eq_ok h₁
  have stack : m₁.stack = _ := (sameStack_deploy contract).ok deployed
  obtain ⟨source, m₂, named, h₃⟩ := bind_eq_ok h₂
  cases named
  have finish {source : Bytes} {m₂ : Machine World}
      (h : (do pushContract found; destroyContract setting source : Exec World Unit) m₂ =
        .ok () m') (same : m₂.stack = m₁.stack) :
      ∃ handle, m'.stack.items = .handle handle :: rest := by
    obtain ⟨_, m₃, pushed, destroyed⟩ := bind_eq_ok h
    have last : m'.stack = m₃.stack := (sameStack_destroyContract source).ok destroyed
    obtain ⟨handle, pushed⟩ := pushContract_eq_ok pushed
    exact ⟨handle, by rw [last, pushed, same, stack]; rfl⟩
  dsimp only at h₃
  split at h₃
  · obtain ⟨_, m₃, copied, h₄⟩ := bind_eq_ok h₃
    cases copied
    obtain ⟨handle, pushed⟩ := finish h₄ rfl
    exact ⟨contract, operands, handle, rest, items, describes, pushed⟩
  · obtain ⟨handle, pushed⟩ := finish h₃ rfl
    exact ⟨contract, operands, handle, rest, items, describes, pushed⟩

/-! ### Signatures -/

theorem checkMultisig_eq_ok {σ : Type} {message : Option Bytes} {m m' : Machine σ}
    (h : checkMultisig message m = .ok () m') :
    ∃ keys keyItems signatures signatureItems rest,
      m.stack.items = keyItems ++ (signatureItems ++ rest) ∧
      m.heap.Groups keys keyItems ∧ m.heap.Groups signatures signatureItems ∧
      signatures ≠ [] ∧ signatures.length ≤ keys.length ∧
      m'.stack.items = .ofBool (multisigCounted message signatures keys).1 :: rest := by
  rw [checkMultisig_eq] at h
  obtain ⟨keys, signatures, rest, has⟩ := has_of_checkMultisigBy h
  obtain ⟨keyItems, signatureItems, items, ofKeys, ofSignatures⟩ := has.groups
  refine ⟨keys, keyItems, signatures, signatureItems, rest, items, ofKeys, ofSignatures,
    List.length_pos_iff.1 has.one_le, has.enough, ?_⟩
  rw [checkMultisigBy_of_has has] at h
  cases message with
  | none => cases h; rfl
  | some message =>
    dsimp only at h
    rw [bind_eq, verifyInOrderM_noting_eq] at h
    cases h
    obtain ⟨tries, -, counted⟩ := verifyCounted_eq (Signature.verify message) signatures keys
    rw [multisigCounted, counted]
    rfl

end Exec

/-! ## Charges -/

/-- What a host charges for the instructions whose price depends on their operands is the price of
the operands they have taken off the stack and used. -/
structure Host.ChargesOperands (host : Host World) (setting : Setting) : Prop where
  /-- A value that is stored costs a unit for each kibibyte of key and value that is begun. -/
  put : ∀ m i m' (withFlags : Bool), Machine.Does host m i m' →
    i.Calls (if withFlags then "Storage.PutEx" else "Storage.Put") →
    ∃ handle context keyItem key valueItem value flags,
      m.stack.items = .handle handle :: keyItem :: valueItem :: (flags ++ m'.stack.items) ∧
      flags.length = withFlags.toNat ∧
      m.heap.object? handle = some (.storageContext context) ∧
      keyItem.toBytes = .ok key ∧ valueItem.toBytes = .ok value ∧
      m.world.storage.write context key value = .ok m'.world.storage ∧
      m'.gas = m.gas + 100000 * (max 1 ((key.length + value.length + 1023) / 1024) : Nat)
  /-- A renewal costs 5000 gas for each year. -/
  renew : ∀ m i m', Machine.Does host m i m' → i.Calls "Asset.Renew" →
    ∃ handle asset yearsItem, ∃ years : Nat, ∃ rest,
      m.stack.items = .handle handle :: yearsItem :: rest ∧
      m.heap.object? handle = some (.asset asset) ∧
      yearsItem.toInt = .ok (years : Int) ∧ years ≤ 255 ∧
      m'.heap = m.heap.setObject handle.root (.asset (asset.renew setting.height years)) ∧
      m'.stack.items = .ofInt (asset.renew setting.height years).expiration.toNat :: rest ∧
      m'.gas = m.gas + 100000 * (5000000 * years : Nat)
  /-- A contract costs 100 gas, and more for the rights it is given. -/
  deploy : ∀ m i m', Machine.Does host m i m' →
    i.Calls "Contract.Create" ∨ i.Calls "Contract.Migrate" →
    ∃ (contract : Contract) (operands : List Item) (handle : Handle) (rest : List Item),
      m.stack.items = operands ++ rest ∧ contract.Describes operands ∧
      m'.stack.items = .handle handle :: rest ∧
      m'.gas = m.gas + 100000 * ((100 + (if contract.hasStorage then 400 else 0) +
        (if contract.hasDynamicInvoke then 500 else 0)) * 1000 : Nat)
  /-- Signatures cost 100 units for each key, and there are no more verifications than keys. -/
  checkMultisig : ∀ m i m', Machine.Does host m i m' → i.opcode = .crypto .checkMultisig →
    ∃ keys keyItems signatures signatureItems rest,
      m.stack.items = keyItems ++ (signatureItems ++ rest) ∧
      m.heap.Groups keys keyItems ∧ m.heap.Groups signatures signatureItems ∧
      signatures ≠ [] ∧ signatures.length ≤ keys.length ∧
      m'.stack.items = .ofBool (multisigCounted host.message signatures keys).1 :: rest ∧
      (multisigCounted host.message signatures keys).2 ≤ keys.length ∧
      m'.gas = m.gas + 100000 * (100 * keys.length : Nat)

section

variable {setting : Setting} {host : Host World} {m m' : Machine World} {i : Instruction}
  (priced : host.price = some (Price.amount Syscall.registry))
  (known : ∀ id, host.syscall id =
    (Syscall.registry.find? id).map fun entry => entry.handler.run setting)

include known in
theorem keeps_of_known {id : Nat} {call : Exec World Unit} (h : host.syscall id = some call) :
    Exec.Keeps SameControl call := by
  rw [known, Option.map_eq_some_iff] at h
  obtain ⟨entry, -, rfl⟩ := h
  exact Syscall.keeps_run_all setting entry.handler

include priced known

/-- What a system call with a price that depends on its operands has done and was charged. -/
theorem Machine.Does.called (does : Does host m i m') {method : String} {call : Syscall}
    {spaces : List NameSpace} (calls : i.Calls method)
    (row : (method, call, none, spaces) ∈ Syscall.methods) :
    ∃ next due u, Price.dynamicUnits method m = .ok u ∧
      call.run setting (m.ready next due) = .ok () m' ∧ m'.gas = m.gas + u * Price.ratio := by
  obtain ⟨op, entry, found, rfl⟩ := calls
  obtain ⟨frame, next, due, u, price, executed, gas⟩ :=
    does.charged priced (by rw [op]; rfl) fun _ _ => keeps_of_known known
  obtain ⟨handler, free⟩ := (Syscall.isListed_of_find? found).eq_of_mem row
  rw [Price.units_sysCall op, Price.syscallUnits_of_find? found free] at price
  refine ⟨next, due, u, price, ?_, gas⟩
  rw [Exec.execute, op] at executed
  dsimp only at executed
  rw [Exec.flow, known, found] at executed
  rwa [← handler]

/-- `Machine.Does.called` for both ways to store a value. -/
theorem Machine.Does.called_put {withFlags : Bool} (does : Does host m i m')
    (calls : i.Calls (if withFlags then "Storage.PutEx" else "Storage.Put")) :
    ∃ next due u,
      Price.dynamicUnits (if withFlags then "Storage.PutEx" else "Storage.Put") m = .ok u ∧
      Exec.put withFlags (m.ready next due) = .ok () m' ∧ m'.gas = m.gas + u * Price.ratio := by
  cases withFlags with
  | false =>
    have row : ("Storage.Put", .storage .put, none, Syscall.both) ∈ Syscall.methods := by decide
    exact does.called priced known calls row
  | true =>
    have row : ("Storage.PutEx", .storage .putEx, none, Syscall.current) ∈ Syscall.methods := by
      decide
    exact does.called priced known calls row

/-- `Machine.Does.called` for both ways to deploy a contract. -/
theorem Machine.Does.called_deploy (does : Does host m i m')
    (calls : i.Calls "Contract.Create" ∨ i.Calls "Contract.Migrate") :
    ∃ method u, (method = "Contract.Create" ∨ method = "Contract.Migrate") ∧
      Price.dynamicUnits method m = .ok u ∧ m'.gas = m.gas + u * Price.ratio ∧
      ∃ (contract : Contract) (operands : List Item) (handle : Handle) (rest : List Item),
        m.stack.items = operands ++ rest ∧ contract.Describes operands ∧
        m'.stack.items = .handle handle :: rest := by
  rcases calls with calls | calls
  · have row : ("Contract.Create", .contract .create, none, Syscall.older) ∈
        Syscall.methods := by decide
    obtain ⟨next, due, u, price, executed, gas⟩ := does.called priced known calls row
    have used := Exec.create_eq_ok executed
    rw [Machine.stack_ready] at used
    exact ⟨_, u, .inl rfl, price, gas, used⟩
  · have row : ("Contract.Migrate", .contract .migrate, none, Syscall.older) ∈
        Syscall.methods := by decide
    obtain ⟨next, due, u, price, executed, gas⟩ := does.called priced known calls row
    have used := Exec.migrate_eq_ok executed
    rw [Machine.stack_ready] at used
    exact ⟨_, u, .inr rfl, price, gas, used⟩

/-- **What is charged for is what is used.** -/
theorem Host.chargesOperands : host.ChargesOperands setting where
  put m i m' withFlags does calls := by
    obtain ⟨next, due, u, price, executed, gas⟩ := does.called_put priced known calls
    obtain ⟨handle, context, keyItem, key, valueItem, value, flags, items, count, found, hkey,
      hvalue, written⟩ := Exec.put_eq_ok executed
    rw [Machine.stack_ready] at items
    rw [Machine.heap_ready] at found
    rw [Machine.world_ready] at written
    rw [Price.dynamicUnits_put items hkey hvalue] at price
    cases price
    exact ⟨handle, context, keyItem, key, valueItem, value, flags, items, count, found, hkey,
      hvalue, written, by rw [gas, Int.mul_comm]; rfl⟩
  renew m i m' does calls := by
    have row : ("Asset.Renew", .asset .renew, none, Syscall.older) ∈ Syscall.methods := by decide
    obtain ⟨next, due, u, price, executed, gas⟩ := does.called priced known calls row
    obtain ⟨handle, asset, yearsItem, years, rest, items, found, hyears, few, heap, pushed⟩ :=
      Exec.renewAsset_eq_ok executed
    rw [Machine.stack_ready] at items
    rw [Machine.heap_ready] at found heap
    rw [Price.dynamicUnits_renew items hyears] at price
    cases price
    refine ⟨handle, asset, yearsItem, years, rest, items, found, hyears, few, heap, pushed, ?_⟩
    rw [gas, Price.assetYear, Price.unitsPerGas, Price.ratio]
    omega
  deploy m i m' does calls := by
    obtain ⟨method, u, name, price, gas, contract, operands, handle, rest, items, describes,
      pushed⟩ := does.called_deploy priced known calls
    rw [Price.dynamicUnits_deploy items describes name] at price
    cases price
    exact ⟨contract, operands, handle, rest, items, describes, pushed, by
      rw [gas, Int.mul_comm]; rfl⟩
  checkMultisig m i m' does op := by
    obtain ⟨frame, next, due, u, price, executed, gas⟩ :=
      does.charged priced (by rw [op]; rfl) fun _ _ => keeps_of_known known
    rw [Exec.execute, op] at executed
    obtain ⟨keys, keyItems, signatures, signatureItems, rest, items, hkeys, hsignatures, some,
      enough, pushed⟩ := Exec.checkMultisig_eq_ok executed
    rw [Machine.stack_ready] at items
    rw [Machine.heap_ready] at hkeys hsignatures
    have keys_ne : keys ≠ [] := by
      rintro rfl
      exact some (List.length_eq_zero_iff.1 (Nat.le_zero.1 enough))
    rw [Price.units_checkMultisig op, Price.multisigUnits_eq items hkeys keys_ne] at price
    cases price
    refine ⟨keys, keyItems, signatures, signatureItems, rest, items, hkeys, hsignatures, some,
      enough, pushed, snd_multisigCounted_le _ _ _, ?_⟩
    rw [gas, Price.perKey, Price.ratio]
    omega

end

/-- The host with another message for signatures. -/
def Host.withMessage (host : Host σ) (message : Option Bytes) : Host σ := { host with message }

theorem Host.price_withMessage (host : Host σ) (message : Option Bytes) :
    (host.withMessage message).price = host.price := rfl

theorem Host.syscall_withMessage (host : Host σ) (message : Option Bytes) (id : Nat) :
    (host.withMessage message).syscall id = host.syscall id := rfl

/-- **What is charged for is what is used**, whatever the script, the node, the gas limit and the
message of a run are, and wherever it finds the contracts that it calls. -/
theorem charges_operands (setting : Setting) (limit : GasLimit)
    (contract : Bytes → Exec World (Option Callee)) (message : Option Bytes) :
    ((setting.hostWith limit contract).withMessage message).ChargesOperands setting := by
  refine Host.chargesOperands ?_ fun id => ?_
  · rw [Host.price_withMessage, Setting.price_hostWith]
  · rw [Host.syscall_withMessage, Setting.syscall_hostWith]

end DryRun
