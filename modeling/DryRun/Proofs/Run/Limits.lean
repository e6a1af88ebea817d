import DryRun.Proofs.Machine.Reach
import DryRun.Proofs.Node.Query
import DryRun.Proofs.Syscall.Safe

/-!
# The limits on items in a run

Every instruction and every system call that makes or enlarges an item checks the limit on it, and
nothing checks the items that are already there.  `items_within_limits` says that this is enough:
what a script gets at is within the limits, in every state of every run, provided that the node
keeps to them.  `Setting.Moderate` is what is asked of the node.  Chain objects are not mentioned
there, because the limits on their fields are checked when they are read.
-/

set_option autoImplicit false

namespace DryRun

/-- The heights, the scripts of contracts and the stored values that a run gets from its node are
within the limits on items. -/
structure Setting.Moderate (setting : Setting) : Prop where
  /-- The height of the run. -/
  height : setting.height < Nat.pow 2 255
  /-- The scripts of contracts. -/
  contract : ∀ scriptHash,
    Returns (fun found => ∀ c, found = some c → c.script.length ≤ maxItemSize)
      (setting.node.contract scriptHash setting.height)
  /-- The values in storage. -/
  storage : ∀ scriptHash key, Returns (fun value => value.length ≤ maxItemSize)
    (setting.node.storage scriptHash key setting.height)
  /-- The heights of transactions. -/
  transactionHeight : ∀ hash, Returns (fun found => ∀ n, found = some n → n < Nat.pow 2 255)
    (setting.node.transactionHeight hash setting.height)

/-- An item is within the limits: on the value and the bytes of an integer, on the bytes of a byte
string, and on the size of a collection.  The keys of a map are plain values. -/
def Heap.Within (heap : Heap) : Item → Prop
  | .prim (.int v) => InIntegerRange v ∧ (TwosComplement.encode v).length ≤ maxIntegerSize
  | .prim (.bytes b) => b.length ≤ maxItemSize
  | .prim (.bool _) => True
  | .seq s => (heap.elements s).length ≤ maxCollectionSize
  | .map id => (heap.entries id).size ≤ maxCollectionSize ∧
      ∀ key ∈ (heap.entries id).keys, ∃ p : Primitive, key = .prim p ∧ p.Limited
  | .handle _ => True

/-- On a sound heap the limits hold of everything. -/
theorem Heap.Sound.within {heap : Heap} (h : heap.Sound Primitive.Limited) {item : Item}
    (fit : heap.Admits Primitive.Limited item) : heap.Within item := by
  cases item with
  | prim p =>
    cases p with
    | int v => exact ⟨fit, (inIntegerRange_iff v).1 fit⟩
    | bytes b => exact fit
    | bool b => exact trivial
  | seq s => exact (h.elements s).1
  | map id =>
    refine ⟨(h.entries id).1, fun key mem => ?_⟩
    obtain ⟨entry, hentry, rfl⟩ := List.mem_map.1 mem
    exact ⟨entry.1, rfl, ((h.entries id).2 entry hentry).1⟩
  | handle r => exact trivial

theorem Setting.Moderate.supplies {setting : Setting} (h : setting.Moderate) :
    setting.Supplies Primitive.Limited where
  height := inIntegerRange_ofNat h.height
  contract := h.contract
  storage := h.storage
  transactionHeight hash :=
    (h.transactionHeight hash).mono fun _ below n same => inIntegerRange_ofNat (below n same)

/-- **What a script gets at is within the limits**, in every state of every run on a moderate
node. -/
theorem items_within_limits (setting : Setting) (moderate : setting.Moderate) (limit : GasLimit)
    (script : Bytes) (dynamicInvoke : Bool) (link : Link) (n : Nat) :
    let m := (Machine.load script dynamicInvoke (.fresh link)).runFor (setting.host limit) n
    ∀ item, m.Reaches item → m.heap.Within item := by
  intro m item way
  have sound := Setting.sound_run moderate.supplies limit script dynamicInvoke link n
  exact sound.heap.within (sound.admits way)

/-! ## A moderate node -/

/-- A contract that pushes the absolute value of an integer of 32 bytes. -/
def absContract : Contract :=
  ⟨0x20 :: List.replicate 31 0xFF ++ [0x7F, 0x90], [], 0, 0, "", "", "", "", ""⟩

/-- The body of an answer with a result. -/
def Reply.ofResult (result : Json) : Reply :=
  .body (Utf8.encode (Json.render Json.spaced (.ofFields [("result", result)])))

/-- A node that knows one contract, one stored value and the height of one block. -/
def constantNode : Node := fun request =>
  match request.query with
  | .contract .. => .ofResult (.ofString (Hex.encode (0 :: absContract.write)))
  | .storage .. => .ofResult (.ofString (Hex.encode absContract.script))
  | .transactionHeight .. => .ofResult (.int 7)
  | _ => .unavailable []

theorem moderate_constantNode : (⟨constantNode, 0, .empty⟩ : Setting).Moderate where
  height := by decide
  contract scriptHash := by
    have known (id : Nat) : (constantNode.outcome ⟨id, .contract scriptHash 0⟩
        (Node.readObject · (Reader.record Contract.read))).toOption = some (some absContract) := by
      simp only [Node.outcome, constantNode, Query.method]
      decide +kernel
    refine Node.returns_of_outcome known fun c same => ?_
    cases same
    decide +kernel
  storage scriptHash key := by
    have known (id : Nat) : (constantNode.outcome ⟨id, .storage scriptHash key 0⟩
        Node.readBytes).toOption = some absContract.script := by
      simp only [Node.outcome, constantNode, Query.method]
      decide +kernel
    exact Node.returns_of_outcome known (by decide +kernel)
  transactionHeight hash := by
    refine Node.returns_of_outcome (a := some 7) (fun id => ?_) fun n same => ?_
    · simp only [Node.outcome, constantNode, Query.method]
      decide +kernel
    · cases same
      decide

/-- The contract is called and leaves the greatest integer that there may be. -/
theorem items_within_limits_greatest_integer :
    let setting : Setting := ⟨constantNode, 0, .empty⟩
    let m := (Machine.load (0x67 :: List.replicate 20 1) true (.fresh .fresh)).runFor
      (setting.host .unlimited) 3
    setting.Moderate ∧ m.Reaches (.ofInt (integerBound - 1)) ∧
      m.heap.Within (.ofInt (integerBound - 1)) := by
  have stack : ((Machine.load (0x67 :: List.replicate 20 1) true (World.fresh .fresh)).runFor
      ((⟨constantNode, 0, .empty⟩ : Setting).host .unlimited) 3).stack.items =
        [.ofInt (integerBound - 1)] := by
    decide +kernel
  have reached := Machine.Reaches.stack (stack ▸ List.mem_cons_self)
  exact ⟨moderate_constantNode, reached,
    items_within_limits _ moderate_constantNode _ _ _ _ _ _ reached⟩

end DryRun
