import DryRun.Proofs.Chain.Fields
import DryRun.Proofs.Heap.Traversal
import DryRun.Proofs.Item.Parameter
import DryRun.Proofs.Item.Writer
import DryRun.Proofs.Machine.Operands
import DryRun.Proofs.Run.Nesting
import DryRun.Proofs.Run.Order
import DryRun.Proofs.Run.Termination

/-!
# How runs come out

A run that was prepared should come out in a receipt.  `Prepared.Settles` goes through what could
stand in the way of it.

* A machine that is running has no frame to read an instruction from.  This does not happen.
* A number is out of the range of the field that it is written to.  Two kinds of things are written
  in a run: the fields of headers, to be hashed, and items, to be serialized.  This does not happen.
* The items that are left cannot be shown because one of them is recursive.  Then the receipt leaves
  out the stack.
* The items that are left cannot be shown because one of them is nested too deep for the calls that
  it takes.  **Then there is no receipt.**  The items are shown after the last step, where nothing
  is prepared for this failure, although a step would make a fault of it.  A script needs no gas
  limit out of the ordinary for such an item, as `DryRun.Proofs.Run.Packing` shows.

Other chain objects are not written, but what gets into their fields is known as well: numbers from
the node fit because they were read in the same width, and the numbers that a script supplies for a
contract or an asset are checked.

Calls are nested within a step as well, and a step that they are too many for fails.  How many can
be nested is not for a run to say, so that this fault is not told apart here; what follows is said
for every depth to which the items that are left may be shown.
-/

set_option autoImplicit false

namespace DryRun

variable {σ : Type}

/-! ## The stack of a receipt -/

namespace Machine

variable {m : Machine σ}

/-- Items that are not recursive are all shown. -/
theorem parameters_of_not_recursive (h : ∀ item ∈ m.stack.items, ¬m.heap.Recursive item) :
    ∃ objects, m.parameters = .ok objects ∧
      List.Forall₂ m.heap.Renders m.stack.items.reverse objects := by
  have each : ∀ tree ∈ m.stack.items.reverse.map m.heap.unfold,
      ∃ object, tree.parameter = .ok object := by
    intro tree mem
    obtain ⟨item, left, rfl⟩ := List.mem_map.1 mem
    exact (m.heap.rendered_iff item).2 (h item (List.mem_reverse.1 left))
  obtain ⟨objects, shown⟩ := Attempts.mapM_eq_ok.2 each
  refine ⟨objects, (Traversal.parameters_eq_mapM _).trans shown, ?_⟩
  rw [List.mapM_map] at shown
  obtain ⟨size, beside⟩ := Attempts.mapM_eq_ok_iff.1 shown
  exact List.forall₂_iff_zip.2 ⟨size, fun mem => Heap.parameter_eq_ok_iff.1 (beside _ mem)⟩

/-- If one of the items is recursive, there is nothing to be shown. -/
theorem not_recursive_of_parameters {objects : List Json} (shown : m.parameters = .ok objects) :
    ∀ item ∈ m.stack.items, ¬m.heap.Recursive item := by
  intro item mem
  have shown := (Traversal.parameters_eq_mapM _).symm.trans shown
  refine (m.heap.rendered_iff item).1 (Attempts.mapM_eq_ok.1 ⟨objects, shown⟩ _ ?_)
  exact List.mem_map_of_mem (List.mem_reverse.2 mem)

theorem receipt_stack_of_recursive {item : Item} (mem : item ∈ m.stack.items)
    (recursive : m.heap.Recursive item) (script : Bytes) : (m.receipt script).stack = [] := by
  rw [receipt]
  cases shown : m.parameters with
  | ok objects => exact absurd recursive (not_recursive_of_parameters shown item mem)
  | error fault => rfl

theorem receipt_stack_of_not_recursive (h : ∀ item ∈ m.stack.items, ¬m.heap.Recursive item)
    (script : Bytes) :
    List.Forall₂ m.heap.Renders m.stack.items.reverse (m.receipt script).stack := by
  obtain ⟨objects, shown, renders⟩ := parameters_of_not_recursive h
  rw [receipt, shown]
  exact renders

/-- An array that is appended to itself is not shown, one that is appended to another one is. -/
example :
    let shown (script : Bytes) : Nat :=
      (((load script true ()).runFor .bare 8).receipt script).stack.length
    shown [0x00, 0xC5, 0x76, 0x76, 0xC8] = 0 ∧ shown [0x00, 0xC5, 0x76, 0x00, 0xC5, 0xC8] = 1 := by
  decide +kernel

/-! ## Without a receipt -/

/-- What is come across while the items on the stack are shown, from the bottom to the top. -/
def visits (m : Machine σ) : List Visit :=
  Tree.visitsOf (m.stack.items.reverse.map m.heap.unfold)

/-- The first obstacle to showing the stack is that something lies in `depth` collections. -/
def NestsTooDeep (m : Machine σ) (depth : Nat) : Prop :=
  ∃ before v after, m.visits = before ++ v :: after ∧ depth ≤ v.depth ∧
    ∀ u ∈ before, u.depth < depth ∧ u.recurs = false

theorem nestsTooDeep_iff {depth : Nat} :
    m.NestsTooDeep depth ↔ firstObstacle? depth m.visits = some .tooDeep := by
  rw [firstObstacle?, List.findSome?_eq_some_iff]
  simp only [Visit.obstacle?_eq_tooDeep_iff, Visit.obstacle?_eq_none_iff, NestsTooDeep]

/-- If a collection is met inside itself, an item is recursive. -/
theorem exists_recursive_of_firstObstacle? {depth : Nat} {cause : ItemFault}
    (h : firstObstacle? depth m.visits = some (.item cause)) :
    ∃ item ∈ m.stack.items, m.heap.Recursive item := by
  obtain ⟨v, mem, obstacle⟩ := List.exists_of_findSome?_eq_some h
  obtain ⟨tree, stored, visit⟩ := Tree.mem_visitsOf.1 mem
  obtain ⟨item, left, rfl⟩ := List.mem_map.1 stored
  refine ⟨item, List.mem_reverse.1 left, ?_⟩
  by_contra turns
  have flat := ((m.heap.unfold_notCycle_iff item).2 turns).not_recurs v visit
  rw [Visit.recurs_of_obstacle? obstacle] at flat
  cases flat

/-- Where nothing is recursive, the stack nests too deep if one gets that deep in the heap. -/
theorem nestsTooDeep_iff_deep {depth : Nat}
    (turns : ∀ item ∈ m.stack.items, ¬m.heap.Recursive item) :
    m.NestsTooDeep depth ↔ ∃ item ∈ m.stack.items, m.heap.Deep depth item := by
  have whole (item : Item) (left : item ∈ m.stack.items) :=
    (m.heap.unfold_notCycle_iff item).2 (turns item left)
  constructor
  · rintro ⟨before, v, after, visits, deep, -⟩
    have mem : v ∈ m.visits := by simp [visits]
    obtain ⟨tree, stored, visit⟩ := Tree.mem_visitsOf.1 mem
    obtain ⟨item, left, rfl⟩ := List.mem_map.1 stored
    have left := List.mem_reverse.1 left
    exact ⟨item, left, (Heap.deep_unfoldBelow_iff (whole item left)).1 ⟨v, visit, deep⟩⟩
  · rintro ⟨item, left, deep⟩
    obtain ⟨v, visit, deep⟩ := (Heap.deep_unfoldBelow_iff (whole item left)).2 deep
    have mem : v ∈ m.visits :=
      Tree.mem_visitsOf.2 ⟨_, List.mem_map_of_mem (List.mem_reverse.2 left), visit⟩
    rw [nestsTooDeep_iff]
    cases first : firstObstacle? depth m.visits with
    | none =>
      have free := Visit.obstacle?_eq_none_iff.1 (List.findSome?_eq_none_iff.1 first v mem)
      exact absurd deep (Nat.not_le.2 free.1)
    | some fault =>
      cases fault with
      | tooDeep => rfl
      | item cause =>
        obtain ⟨item, left, recursive⟩ := exists_recursive_of_firstObstacle? first
        exact absurd recursive (turns item left)

/-- **A machine leaves its receipt**, unless its items are nested too deep. -/
theorem leave_eq (m : Machine σ) (script : Bytes) (depth : Nat) :
    m.NestsTooDeep depth ∧ m.leave script depth = .error .tooDeep ∨
      ¬m.NestsTooDeep depth ∧ m.leave script depth = .ok (m.receipt script) := by
  have stops := Tree.stops_parametersWithin depth (m.stack.items.reverse.map m.heap.unfold)
  change Tree.Stops (firstObstacle? depth m.visits) _ m.parameters at stops
  rw [nestsTooDeep_iff, leave, receipt]
  cases first : firstObstacle? depth m.visits with
  | none =>
    rw [first] at stops
    obtain ⟨objects, within, shown⟩ := stops.eq_ok
    rw [within, shown]
    exact .inr ⟨nofun, rfl⟩
  | some fault =>
    rw [first] at stops
    rw [stops.eq_error]
    cases fault with
    | tooDeep => exact .inl ⟨rfl, rfl⟩
    | item cause =>
      obtain ⟨item, left, recursive⟩ := exists_recursive_of_firstObstacle? first
      cases shown : m.parameters with
      | ok objects => exact absurd recursive (not_recursive_of_parameters shown item left)
      | error fault => exact .inr ⟨nofun, rfl⟩

/-- There is no receipt just if the stack nests too deep. -/
theorem leave_eq_error_iff (m : Machine σ) (script : Bytes) (depth : Nat) :
    (∃ cause, m.leave script depth = .error cause) ↔ m.NestsTooDeep depth := by
  rcases m.leave_eq script depth with ⟨deep, lost⟩ | ⟨flat, left⟩
  · exact iff_of_true ⟨_, lost⟩ deep
  · refine iff_of_false ?_ flat
    rw [left]
    exact nofun

/-- Any receipt is that of the machine. -/
theorem eq_receipt_of_leave {script : Bytes} {depth : Nat} {receipt : Receipt}
    (left : m.leave script depth = .ok receipt) : receipt = m.receipt script := by
  rcases m.leave_eq script depth with ⟨-, lost⟩ | ⟨-, same⟩
  · rw [lost] at left
    cases left
  · rw [same] at left
    cases left
    rfl

end Machine

/-! ## What there is to say about a run -/

theorem Status.isRunning_eq_false_iff {status : Status} :
    status.isRunning = false ↔ status ≠ .running := by
  cases status <;> simp [isRunning]

theorem Status.halted_or_faulted {status : Status} (stopped : status ≠ .running) :
    status = .halted ∨ ∃ fault, status = .faulted fault := by
  cases status with
  | running => exact absurd rfl stopped
  | halted => exact .inl rfl
  | faulted fault => exact .inr ⟨fault, rfl⟩

/-- A machine that is running has a frame to go on with, since one without frames has halted. -/
theorem Machine.Orderly.exists_frame {m : Machine σ} (h : m.Orderly)
    (running : m.status = .running) :
    ∃ frame callers, m.status = .running ∧ m.frames = frame :: callers := by
  cases frames : m.frames with
  | cons frame callers => exact ⟨frame, callers, running, rfl⟩
  | nil =>
    have halted := h.halted.2 frames
    rw [running] at halted
    cases halted

/-- A receipt says of a machine how it has come out. -/
structure Receipt.Tells (receipt : Receipt) (script : Bytes) (m : Machine σ) : Prop where
  /-- It names the script. -/
  script : receipt.script = script
  /-- It has the status of the machine, with the fault if it has failed. -/
  status : receipt.status = m.status
  /-- It has the gas of the machine. -/
  gas : receipt.gas = m.gas
  /-- Its stack is empty if an item on the stack of the machine is recursive. -/
  recursive : (∃ item ∈ m.stack.items, m.heap.Recursive item) → receipt.stack = []
  /-- If no item on the stack is recursive it has the objects for all items, that for the lowest
  item first. -/
  shown : (∀ item ∈ m.stack.items, ¬m.heap.Recursive item) →
    List.Forall₂ m.heap.Renders m.stack.items.reverse receipt.stack

theorem Machine.tells_receipt (m : Machine σ) (script : Bytes) :
    (m.receipt script).Tells script m where
  script := rfl
  status := rfl
  gas := rfl
  recursive := fun ⟨_, mem, recursive⟩ => receipt_stack_of_recursive mem recursive script
  shown turns := receipt_stack_of_not_recursive turns script

/-- The state of a prepared run after some steps. -/
def Prepared.state (p : Prepared) (node : Node) (link : Link) (n : Nat) : Machine World :=
  (p.start link).runFor ((p.setting node).host p.configuration.gasLimit) n

/-- A run of what was prepared comes out in a receipt, if the items that are left are not nested
too deep. -/
structure Prepared.Settles (p : Prepared) (node : Node) (link : Link) : Prop where
  /-- A run goes on with an instruction of the running frame, or it has halted, or it has failed
  for a cause. -/
  status : ∀ n,
    (∃ frame callers, (p.state node link n).status = .running ∧
      (p.state node link n).frames = frame :: callers) ∨
    (p.state node link n).status = .halted ∨
    ∃ fault, (p.state node link n).status = .faulted fault
  /-- A run that has stopped stays as it is. -/
  final : ∀ n k, n ≤ k → (p.state node link n).status ≠ .running →
    p.state node link k = p.state node link n
  /-- Under a gas limit the run comes to its end. -/
  ends : 0 < p.configuration.gasLimit.amount →
    (p.run node link).status = .halted ∨ ∃ fault, (p.run node link).status = .faulted fault
  /-- There is no receipt just if something on the stack is nested too deep and nothing that is
  shown before it is inside itself. -/
  lost : ∀ n depth,
    (∃ cause, (p.state node link n).leave p.configuration.script depth = .error cause) ↔
      (p.state node link n).NestsTooDeep depth
  /-- If nothing on the stack is recursive, there is no receipt just if one gets from an item on it
  into as many collections, one inside the other, as calls can be nested. -/
  nested : ∀ n depth,
    (∀ item ∈ (p.state node link n).stack.items, ¬(p.state node link n).heap.Recursive item) →
    ((∃ cause, (p.state node link n).leave p.configuration.script depth = .error cause) ↔
      ∃ item ∈ (p.state node link n).stack.items, (p.state node link n).heap.Deep depth item)
  /-- Any receipt tells how the run has come out. -/
  told : ∀ n depth receipt,
    (p.state node link n).leave p.configuration.script depth = .ok receipt →
    receipt.Tells p.configuration.script (p.state node link n)
  /-- A receipt of a run that has stopped says that it has halted, without a fault, or names the
  fault for which it has failed. -/
  receipt : ∀ n depth receipt, (p.state node link n).status ≠ .running →
    (p.state node link n).leave p.configuration.script depth = .ok receipt →
    receipt.status = .halted ∧ receipt.status.name = "HALT" ∨
      ∃ fault, receipt.status = .faulted fault ∧ receipt.status.name = "FAULT"
  /-- An item is written without a number out of range, unless a plain value in it is so long that
  eight bytes cannot count its bytes, which no host could hold. -/
  items : ∀ n item, (p.state node link n).heap.Counted item →
    Tree.Follows ((p.state node link n).heap.unfold item).writer
      ((p.state node link n).heap.unfold item).write
  /-- A header is written without a number out of range. -/
  headers : ∀ h : Header, Writes h.unsignedWriter h.writeUnsigned
  /-- A number from the node is kept whole by the field that it is read into. -/
  numbers : Spans (fun v bytes => bytes = Wire.u8 v) Reader.u8 ∧
    Spans (fun v bytes => bytes = Wire.u16 v) Reader.u16 ∧
    Spans (fun v bytes => bytes = Wire.u32 v) Reader.u32 ∧
    Spans (fun v bytes => bytes = Wire.u64 v) Reader.u64 ∧
    Spans (fun v bytes => bytes = Wire.i64 v) Reader.i64
  /-- A header from the node is written as it was read. -/
  read : Spans (fun h bytes => h.writeUnsigned <+: bytes) Header.readBase
  /-- The fields of a contract that a script deploys are what the script has put on the stack. -/
  deployed : ∀ n contract m', Exec.popNewContract (p.state node link n) = .ok contract m' →
    ∃ operands rest, (p.state node link n).stack.items = operands ++ rest ∧
      contract.Describes operands
  /-- The end of a renewed registration is what it was computed to be. -/
  renewed : ∀ (asset : Asset) (years : Nat), (asset.renew p.height years).expiration.toNat =
    Asset.renewedExpiration asset.expiration.toNat p.height years

/-- **A run of what was prepared comes out in a receipt** just if the items that are left can be
shown or one that comes first is recursive, whatever the script, the node and the gas limit are. -/
theorem prepared_settles (p : Prepared) (node : Node) (link : Link) : p.Settles node link where
  status n := by
    have orderly := Machine.orderly_runFor ((p.setting node).host_calm p.configuration.gasLimit)
      (Machine.orderly_load p.configuration.script true (World.fresh link)) n
    by_cases running : (p.state node link n).status = .running
    · exact .inl (orderly.exists_frame running)
    · exact .inr (Status.halted_or_faulted running)
  final n k later stopped :=
    Machine.runFor_of_stopped _ later (Status.isRunning_eq_false_iff.2 stopped)
  ends limited :=
    Status.halted_or_faulted (Status.isRunning_eq_false_iff.1 (p.run_stopped limited node link))
  lost n depth := (p.state node link n).leave_eq_error_iff _ depth
  nested n depth turns := by
    rw [Machine.leave_eq_error_iff, Machine.nestsTooDeep_iff_deep turns]
  told n depth receipt left := by
    rw [Machine.eq_receipt_of_leave left]
    exact Machine.tells_receipt _ _
  receipt n depth receipt stopped left := by
    rw [Machine.eq_receipt_of_leave left]
    rcases Status.halted_or_faulted stopped with halted | ⟨fault, faulted⟩
    · exact .inl ⟨halted, congrArg Status.name halted⟩
    · exact .inr ⟨fault, faulted, congrArg Status.name faulted⟩
  items n item counted := by
    have sound := Setting.sound_run (p.setting node).supplies_any p.configuration.gasLimit
      p.configuration.script true link n
    exact sound.heap.follows counted
  headers := Header.writes_unsigned
  numbers := ⟨Reader.spans_u8, Reader.spans_u16, Reader.spans_u32, Reader.spans_u64,
    Reader.spans_i64⟩
  read := Header.spans_readBase
  deployed n contract m' popped := by
    obtain ⟨operands, rest, items, describes, -⟩ := Exec.takes_popNewContract _ _ _ rfl popped
    exact ⟨operands, rest, items, describes⟩
  renewed asset years := asset.toNat_expiration_renew p.height years

/-- An array in an array in an array: the script halts, and three calls are too few to show it. -/
example :
    let m := (Machine.load [0x00, 0xC5, 0x51, 0xC1, 0x51, 0xC1, 0x51, 0xC1] true ()).runFor .bare 9
    m.status.name = "HALT" ∧ (m.leave [] 3).toOption.isNone ∧ (m.leave [] 4).toOption.isSome := by
  decide +kernel

end DryRun
