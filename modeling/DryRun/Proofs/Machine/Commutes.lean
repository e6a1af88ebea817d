import DryRun.Machine.Step
import DryRun.Proofs.Exec

/-!
# The machine does not look at the world

Let the world be changed in some way `g` before a computation.  If the computation does not look at
what `g` changes, then the outcome is the same as without the change, but for the world that is
left: that is the one that would have been left, changed in the same way.  `Exec.Commutes g c` says
so of a computation `c`, whether it succeeds or fails.

* `Commutes.bind` is the rule for `do`.
* `Commutes.look` is the rule for what depends on the machine as it is: it has to depend on parts
  only that `g` does not change, which is nearly always so by definition.
* The instructions of the machine are written for worlds of every type, so they cannot look at the
  world, and commute with every `g`.  They are gone through family by family, up to
  `commutes_collection`.

What the host does is another matter.  `Host.Commutes g` collects what is needed of it, and
`Machine.step_mapWorld` and `Machine.runFor_mapWorld` then say that whole runs commute with `g`.
-/

set_option autoImplicit false

namespace DryRun

variable {σ α β : Type}

/-- A machine in a changed world. -/
def Machine.mapWorld (g : σ → σ) (m : Machine σ) : Machine σ := { m with world := g m.world }

namespace Exec

/-- An outcome in a changed world. -/
def mapOutcome (g : σ → σ) :
    EStateM.Result Fault (Machine σ) α → EStateM.Result Fault (Machine σ) α
  | .ok a m => .ok a (m.mapWorld g)
  | .error fault m => .error fault (m.mapWorld g)

/-- Whether the world is changed before or after the computation comes to the same. -/
def Commutes (g : σ → σ) (c : Exec σ α) : Prop :=
  ∀ m, c (m.mapWorld g) = mapOutcome g (c m)

variable {g : σ → σ}

/-! ## Composing -/

theorem commutes_pure (a : α) : Commutes g (pure a : Exec σ α) := fun _ => rfl

theorem commutes_throw (fault : Fault) : Commutes g (throw fault : Exec σ α) := fun _ => rfl

theorem commutes_fail (cause : MachineFault) : Commutes g (fail cause : Exec σ α) := fun _ => rfl

/-- A change of the machine that does not touch the world, or changes it independently of `g`. -/
theorem commutes_modify {f : Machine σ → Machine σ}
    (h : ∀ m, f (m.mapWorld g) = (f m).mapWorld g) :
    Commutes g (modify f : Exec σ Unit) := by
  intro m
  show EStateM.Result.ok () (f (m.mapWorld g)) = _
  rw [h]
  rfl

/-- **The rule for `do`.** -/
theorem Commutes.bind {c : Exec σ α} {f : α → Exec σ β} (hc : Commutes g c)
    (hf : ∀ a, Commutes g (f a)) : Commutes g (c >>= f) := by
  intro m
  rw [bind_eq, bind_eq, hc m]
  cases c m with
  | ok a m' => exact hf a m'
  | error fault m' => rfl

/-- **What depends on the machine** may depend on whatever is not changed. -/
theorem Commutes.look {f : Machine σ → Exec σ α} (same : ∀ m, f (m.mapWorld g) = f m)
    (hf : ∀ m, Commutes g (f m)) : Commutes g (get >>= f) := by
  intro m
  rw [get_bind, get_bind, same]
  exact hf m m

theorem Commutes.map {c : Exec σ α} (f : α → β) (hc : Commutes g c) : Commutes g (f <$> c) := by
  rw [map_eq_pure_bind]
  exact hc.bind fun _ => commutes_pure _

theorem Commutes.ite {p : Prop} [Decidable p] {c d : Exec σ α} (hc : Commutes g c)
    (hd : Commutes g d) : Commutes g (if p then c else d) := by
  split
  · exact hc
  · exact hd

/-- A computation behind a check. -/
theorem Commutes.guarded {p : Prop} [Decidable p] {c : Exec σ Unit} {f : Unit → Exec σ α}
    (hc : Commutes g c) (hf : ∀ u, Commutes g (f u)) :
    Commutes g (if p then c >>= f else f ()) := by
  split
  · exact hc.bind hf
  · exact hf ()

theorem Commutes.mapM {γ : Type} {f : γ → Exec σ α} (hf : ∀ x, Commutes g (f x)) :
    ∀ l : List γ, Commutes g (l.mapM f)
  | [] => commutes_pure _
  | x :: l => by
    rw [List.mapM_cons]
    exact (hf x).bind fun _ => (Commutes.mapM hf l).bind fun _ => commutes_pure _

theorem Commutes.forM {γ : Type} {f : γ → Exec σ Unit} (hf : ∀ x, Commutes g (f x)) :
    ∀ l : List γ, Commutes g (l.forM f)
  | [] => commutes_pure _
  | x :: l => (hf x).bind fun _ => Commutes.forM hf l

theorem commutes_liftItem (x : Except ItemFault α) : Commutes g (liftM x : Exec σ α) := by
  cases x with
  | ok a => exact commutes_pure a
  | error cause => exact commutes_throw (.item cause)

theorem commutes_liftStack (x : Except StackFault α) : Commutes g (liftM x : Exec σ α) := by
  cases x with
  | ok a => exact commutes_pure a
  | error cause => exact commutes_throw (.stack cause)

theorem commutes_liftMachine (x : Except MachineFault α) : Commutes g (liftM x : Exec σ α) := by
  cases x with
  | ok a => exact commutes_pure a
  | error cause => exact commutes_throw (.machine cause)

/-! ## The stacks and the heap -/

theorem commutes_push (item : Item) : Commutes g (push item : Exec σ Unit) := fun _ => rfl

theorem commutes_pushBytes (b : Bytes) : Commutes g (pushBytes b : Exec σ Unit) := fun _ => rfl

theorem commutes_pushInt (v : Int) : Commutes g (pushInt v : Exec σ Unit) := fun _ => rfl

theorem commutes_pushBool (b : Bool) : Commutes g (pushBool b : Exec σ Unit) := fun _ => rfl

theorem commutes_setStack (stack : Stack) :
    Commutes g (modify fun m => { m with stack } : Exec σ Unit) := fun _ => rfl

theorem commutes_setAlt (f : Machine σ → Stack) (h : ∀ m, f (m.mapWorld g) = f m) :
    Commutes g (modify fun m => { m with alt := f m } : Exec σ Unit) := by
  refine commutes_modify fun m => ?_
  rw [h]
  rfl

theorem commutes_pop : Commutes g (pop : Exec σ Item) :=
  .look (fun _ => rfl) fun _ => (commutes_liftStack _).bind fun _ =>
    (commutes_setStack _).bind fun _ => commutes_pure _

theorem commutes_popBytes : Commutes g (popBytes : Exec σ Bytes) :=
  commutes_pop.bind fun _ => commutes_liftItem _

theorem commutes_popInt : Commutes g (popInt : Exec σ Int) :=
  commutes_pop.bind fun _ => commutes_liftItem _

theorem commutes_popBool : Commutes g (popBool : Exec σ Bool) :=
  commutes_pop.bind fun _ => commutes_pure _

theorem commutes_popIndex : Commutes g (popIndex : Exec σ Nat) :=
  commutes_popInt.bind fun _ => (commutes_fail _).guarded fun _ => commutes_pure _

theorem commutes_peek (n : Nat) : Commutes g (peek n : Exec σ Item) :=
  .look (fun _ => rfl) fun _ => commutes_liftStack _

theorem commutes_remove (n : Nat) : Commutes g (remove n : Exec σ Item) :=
  .look (fun _ => rfl) fun _ => (commutes_liftStack _).bind fun _ =>
    (commutes_setStack _).bind fun _ => commutes_pure _

theorem commutes_insert (n : Nat) (item : Item) : Commutes g (insert n item : Exec σ Unit) :=
  .look (fun _ => rfl) fun _ => (commutes_liftStack _).bind fun _ => commutes_setStack _

theorem commutes_replace (n : Nat) (item : Item) : Commutes g (replace n item : Exec σ Unit) :=
  .look (fun _ => rfl) fun _ => (commutes_liftStack _).bind fun _ => commutes_setStack _

theorem commutes_onHeap (f : Heap → Heap × α) : Commutes g (onHeap f : Exec σ α) := fun _ => rfl

theorem commutes_modifyHeap (f : Heap → Heap) : Commutes g (modifyHeap f : Exec σ Unit) :=
  fun _ => rfl

theorem commutes_pushSequence (kind : SequenceKind) (items : List Item) :
    Commutes g (pushSequence kind items : Exec σ Unit) := fun _ => rfl

theorem commutes_pushMap (entries : Entries) : Commutes g (pushMap entries : Exec σ Unit) :=
  fun _ => rfl

theorem commutes_pushObject (object : Object) : Commutes g (pushObject object : Exec σ Unit) :=
  fun _ => rfl

/-! ## Stacks and byte strings -/

theorem commutes_swapWithTop (n : Nat) : Commutes g (swapWithTop n : Exec σ Unit) := by
  rw [swapWithTop]
  split
  · exact (commutes_peek 0).bind fun top => (commutes_peek n).bind fun other =>
      (commutes_replace 0 other).bind fun _ => commutes_replace n top
  · exact commutes_pure _

theorem commutes_tuckTop (n : Nat) : Commutes g (tuckTop n : Exec σ Unit) :=
  (commutes_peek 0).bind fun item => commutes_insert n item

theorem commutes_rollUp (n : Nat) : Commutes g (rollUp n : Exec σ Unit) :=
  (commutes_remove n).bind fun item => commutes_push item

theorem commutes_moveFromAlt : Commutes g (moveFromAlt : Exec σ Unit) :=
  .look (fun _ => rfl) fun _ => (commutes_liftStack _).bind fun _ =>
    (commutes_setAlt _ fun _ => rfl).bind fun _ => commutes_push _

theorem commutes_shuffle (op : StackOp) : Commutes g (shuffle op : Exec σ Unit) := by
  cases op with
  | dupFromAlt =>
    exact .look (fun _ => rfl) fun _ => (commutes_liftStack _).bind fun _ => commutes_push _
  | toAlt => exact commutes_pop.bind fun _ => commutes_setAlt _ fun _ => rfl
  | fromAlt => exact commutes_moveFromAlt
  | dropAt =>
    exact commutes_popIndex.bind fun n => (commutes_remove n).bind fun _ => commutes_pure _
  | swapAt => exact commutes_popIndex.bind commutes_swapWithTop
  | tuckAt =>
    exact commutes_popIndex.bind fun n => (commutes_fail _).guarded fun _ => commutes_tuckTop n
  | depth => exact .look (fun _ => rfl) fun _ => commutes_pushInt _
  | drop => exact commutes_pop.bind fun _ => commutes_pure _
  | dup => exact (commutes_peek 0).bind commutes_push
  | nip => exact (commutes_remove 1).bind fun _ => commutes_pure _
  | «over» => exact (commutes_peek 1).bind commutes_push
  | pick => exact commutes_popIndex.bind fun n => (commutes_peek n).bind commutes_push
  | roll => exact commutes_popIndex.bind fun n => (commutes_rollUp n).ite (commutes_pure _)
  | rot => exact commutes_rollUp 2
  | swap => exact commutes_rollUp 1
  | tuck => exact commutes_tuckTop 2

theorem commutes_splice (op : SpliceOp) : Commutes g (splice op : Exec σ Unit) := by
  cases op with
  | cat =>
    exact commutes_popBytes.bind fun _ => commutes_popBytes.bind fun _ =>
      (commutes_fail _).guarded fun _ => commutes_pushBytes _
  | substr =>
    exact commutes_popIndex.bind fun _ => commutes_popIndex.bind fun _ =>
      commutes_popBytes.bind fun _ => commutes_pushBytes _
  | left =>
    exact commutes_popIndex.bind fun _ => commutes_popBytes.bind fun _ => commutes_pushBytes _
  | right =>
    exact commutes_popIndex.bind fun _ => commutes_popBytes.bind fun _ =>
      (commutes_fail _).guarded fun _ => commutes_pushBytes _
  | size => exact commutes_popBytes.bind fun _ => commutes_pushInt _

/-! ## Arithmetic -/

theorem commutes_pushResult (v : Int) : Commutes g (pushResult v : Exec σ Unit) :=
  (commutes_liftItem _).bind commutes_pushInt

theorem commutes_popPair : Commutes g (popPair : Exec σ (Int × Int)) :=
  commutes_popInt.bind fun _ => commutes_popInt.bind fun _ => commutes_pure _

theorem commutes_unary (op : UnaryOp) : Commutes g (unary op : Exec σ Unit) :=
  commutes_popInt.bind fun _ => commutes_pushResult _

theorem commutes_binary (op : BinaryOp) : Commutes g (binary op : Exec σ Unit) :=
  commutes_popPair.bind fun _ => (commutes_liftMachine _).bind commutes_pushResult

theorem commutes_compare (op : CompareOp) : Commutes g (compare op : Exec σ Unit) :=
  commutes_popPair.bind fun _ => commutes_pushBool _

theorem commutes_shift (op : ShiftOp) : Commutes g (shift op : Exec σ Unit) :=
  commutes_popInt.bind fun _ => (commutes_fail _).guarded fun _ =>
    commutes_popInt.bind fun _ => commutes_pushResult _

theorem commutes_logic (op : LogicOp) : Commutes g (logic op : Exec σ Unit) := by
  cases op with
  | equal =>
    exact commutes_pop.bind fun _ => commutes_pop.bind fun _ =>
      .look (fun _ => rfl) fun _ => commutes_pushBool _
  | not => exact commutes_popBool.bind fun _ => commutes_pushBool _
  | nonzero => exact commutes_popInt.bind fun _ => commutes_pushBool _
  | and | or =>
    exact commutes_popBool.bind fun _ => commutes_popBool.bind fun _ => commutes_pushBool _
  | within =>
    exact commutes_popInt.bind fun _ => commutes_popInt.bind fun _ =>
      commutes_popInt.bind fun _ => commutes_pushBool _

/-! ## Digests and signatures -/

theorem commutes_popGroup (group : SignatureGroup) :
    Commutes g (popGroup group : Exec σ (List Bytes)) := by
  rw [popGroup]
  refine commutes_pop.bind fun item => ?_
  split
  · exact .look (fun _ => rfl) fun _ => .mapM (fun _ => commutes_liftItem _) _
  · exact (commutes_liftItem _).bind fun _ => .look (fun _ => rfl) fun _ =>
      (commutes_fail _).guarded fun _ => .mapM (fun _ => commutes_popBytes) _

theorem commutes_checkMultisig (message : Option Bytes) :
    Commutes g (checkMultisig message : Exec σ Unit) := by
  rw [checkMultisig]
  refine (commutes_popGroup _).bind fun keys => (commutes_fail _).guarded fun _ => ?_
  refine (commutes_popGroup _).bind fun signatures => (commutes_fail _).guarded fun _ => ?_
  cases message with
  | some message => exact commutes_pushBool _
  | none => exact commutes_pushBool _

theorem commutes_crypto (message : Option Bytes) (op : CryptoOp) :
    Commutes g (crypto message op : Exec σ Unit) := by
  cases op with
  | sha1 | sha256 | hash160 | hash256 =>
    exact commutes_popBytes.bind fun _ => commutes_pushBytes _
  | checkSig =>
    exact commutes_popBytes.bind fun _ => commutes_popBytes.bind fun _ => commutes_pushBool _
  | verify =>
    exact commutes_popBytes.bind fun _ => commutes_popBytes.bind fun _ =>
      commutes_popBytes.bind fun _ => commutes_pushBool _
  | checkMultisig => exact commutes_checkMultisig message

/-! ## Collections -/

theorem commutes_copy (item : Item) : Commutes g (copy item : Exec σ Item) := commutes_onHeap _

theorem commutes_popCopy : Commutes g (popCopy : Exec σ Item) :=
  commutes_pop.bind commutes_copy

theorem commutes_elementIndex (use : IndexUse) (size : Nat) (key : Item) :
    Commutes g (elementIndex use size key : Exec σ Nat) :=
  (commutes_liftItem _).bind fun _ => (commutes_fail _).guarded fun _ => commutes_pure _

theorem commutes_arraySize : Commutes g (arraySize : Exec σ Unit) := by
  rw [arraySize]
  refine commutes_pop.bind fun item => ?_
  split
  · exact .look (fun _ => rfl) fun _ => commutes_pushInt _
  · exact .look (fun _ => rfl) fun _ => commutes_pushInt _
  · exact (commutes_liftItem _).bind fun _ => commutes_pushInt _

theorem commutes_pack : Commutes g (pack : Exec σ Unit) :=
  commutes_popIndex.bind fun _ => .look (fun _ => rfl) fun _ => (commutes_fail _).guarded fun _ =>
    (Commutes.mapM (fun _ => commutes_pop) _).bind fun _ => commutes_pushSequence _ _

theorem commutes_unpack : Commutes g (unpack : Exec σ Unit) := by
  rw [unpack]
  refine commutes_pop.bind fun item => ?_
  split
  · exact .look (fun _ => rfl) fun _ => (Commutes.forM commutes_push _).bind fun _ =>
      commutes_pushInt _
  · exact commutes_fail _

theorem commutes_pickItem : Commutes g (pickItem : Exec σ Unit) := by
  rw [pickItem]
  refine commutes_pop.bind fun key => commutes_pop.bind fun item => ?_
  split
  · exact .look (fun _ => rfl) fun _ => (commutes_elementIndex _ _ key).bind fun _ =>
      (commutes_copy _).bind commutes_push
  · exact .look (fun _ => rfl) fun _ => (commutes_liftItem _).bind fun _ =>
      (commutes_copy _).bind commutes_push
  · exact commutes_fail _

theorem commutes_setItem : Commutes g (setItem : Exec σ Unit) := by
  rw [setItem]
  refine commutes_popCopy.bind fun value => commutes_pop.bind fun key =>
    commutes_pop.bind fun item => ?_
  split
  · exact .look (fun _ => rfl) fun _ => (commutes_elementIndex _ _ key).bind fun _ =>
      commutes_modifyHeap _
  · exact .look (fun _ => rfl) fun _ => (commutes_liftItem _).bind fun _ => commutes_modifyHeap _
  · exact commutes_fail _

theorem commutes_newSequence (kind : SequenceKind) :
    Commutes g (newSequence kind : Exec σ Unit) := by
  rw [newSequence]
  refine commutes_pop.bind fun item => ?_
  split
  · exact .look (fun _ => rfl) fun _ => commutes_pushSequence kind _
  · exact (commutes_liftItem _).bind fun _ => (commutes_fail _).guarded fun _ =>
      commutes_pushSequence kind _

theorem commutes_append : Commutes g (append : Exec σ Unit) := by
  rw [append]
  refine commutes_popCopy.bind fun value => commutes_pop.bind fun item => ?_
  split
  · exact .look (fun _ => rfl) fun _ => (commutes_fail _).guarded fun _ => commutes_modifyHeap _
  · exact commutes_fail _

theorem commutes_reverse : Commutes g (reverse : Exec σ Unit) := by
  rw [reverse]
  refine commutes_pop.bind fun item => ?_
  split
  · exact commutes_modifyHeap _
  · exact commutes_fail _

theorem commutes_removeItem : Commutes g (removeItem : Exec σ Unit) := by
  rw [removeItem]
  refine commutes_pop.bind fun key => commutes_pop.bind fun item => ?_
  split
  · exact .look (fun _ => rfl) fun _ => (commutes_elementIndex _ _ key).bind fun _ =>
      commutes_modifyHeap _
  · exact .look (fun _ => rfl) fun _ => (commutes_liftItem _).bind fun _ => commutes_modifyHeap _
  · exact commutes_fail _

theorem commutes_hasKey : Commutes g (hasKey : Exec σ Unit) := by
  rw [hasKey]
  refine commutes_pop.bind fun key => commutes_pop.bind fun item => ?_
  split
  · exact (commutes_liftItem _).bind fun _ => (commutes_fail _).guarded fun _ =>
      .look (fun _ => rfl) fun _ => commutes_pushBool _
  · exact .look (fun _ => rfl) fun _ => (commutes_liftItem _).bind commutes_pushBool
  · exact commutes_fail _

theorem commutes_keys : Commutes g (keys : Exec σ Unit) := by
  rw [keys]
  refine commutes_pop.bind fun item => ?_
  split
  · exact .look (fun _ => rfl) fun _ => commutes_pushSequence .array _
  · exact commutes_fail _

theorem commutes_values : Commutes g (values : Exec σ Unit) := by
  rw [values]
  refine commutes_pop.bind fun item => ?_
  split
  · exact .look (fun _ => rfl) fun _ => (Commutes.mapM commutes_copy _).bind fun items =>
      commutes_pushSequence .array items
  · exact .look (fun _ => rfl) fun _ => (Commutes.mapM commutes_copy _).bind fun items =>
      commutes_pushSequence .array items
  · exact commutes_fail _

theorem commutes_collection (op : CollectionOp) : Commutes g (collection op : Exec σ Unit) := by
  cases op with
  | arraySize => exact commutes_arraySize
  | pack => exact commutes_pack
  | unpack => exact commutes_unpack
  | pickItem => exact commutes_pickItem
  | setItem => exact commutes_setItem
  | newArray => exact commutes_newSequence .array
  | newStruct => exact commutes_newSequence .struct
  | newMap => exact commutes_pushMap .empty
  | append => exact commutes_append
  | reverse => exact commutes_reverse
  | remove => exact commutes_removeItem
  | hasKey => exact commutes_hasKey
  | keys => exact commutes_keys
  | values => exact commutes_values

end Exec

/-! ## Steps and runs -/

/-- Nothing that the host does depends on what `g` changes. -/
structure Host.Commutes (g : σ → σ) (host : Host σ) : Prop where
  /-- Contracts are found. -/
  contract : ∀ name, Exec.Commutes g (host.contract name)
  /-- System calls are made. -/
  syscall : ∀ id call, host.syscall id = some call → Exec.Commutes g call
  /-- Prices are found. -/
  price : ∀ price, host.price = some price → ∀ i m, price i (m.mapWorld g) = price i m

namespace Exec

variable {g : σ → σ} {host : Host σ}

theorem commutes_goTo (position : Nat) : Commutes g (goTo position : Exec σ Unit) := by
  refine commutes_modify fun m => ?_
  obtain ⟨frames, stack, alt, heap, gas, status, world⟩ := m
  cases frames with
  | nil => rfl
  | cons frame rest => rfl

theorem commutes_leave : Commutes g (leave : Exec σ Unit) := fun _ => rfl

theorem commutes_enter (frame : Frame) : Commutes g (enter frame : Exec σ Unit) :=
  .look (fun _ => rfl) fun _ => (commutes_fail _).guarded fun _ => commutes_modify fun _ => rfl

theorem commutes_ret : Commutes g (ret : Exec σ Unit) := by
  have halt : Commutes g (modify fun m => { m with status := .halted } : Exec σ Unit) :=
    fun _ => rfl
  exact commutes_leave.bind fun _ => .look (fun _ => rfl) fun _ => halt.ite (commutes_pure _)

theorem commutes_jumpTarget (frame : Frame) (operand : Bytes) :
    Commutes g (jumpTarget frame operand : Exec σ Nat) :=
  (commutes_fail _).guarded fun _ => commutes_pure _

theorem commutes_callTarget (frame : Frame) (operand : Bytes) :
    Commutes g (callTarget frame operand : Exec σ Bytes) := by
  rw [callTarget]
  refine (commutes_pure _).ite ?_
  exact (commutes_fail _).guarded fun _ => commutes_popBytes.bind fun _ =>
    (commutes_fail _).guarded fun _ => commutes_pure _

theorem commutes_callContract (hh : host.Commutes g) (frame : Frame) (tail : Bool)
    (operand : Bytes) : Commutes g (callContract host frame tail operand) := by
  rw [callContract]
  refine (commutes_callTarget frame operand).bind fun target =>
    (hh.contract target).bind fun found => ?_
  split
  · exact commutes_leave.guarded fun _ => commutes_enter _
  · exact commutes_fail _

theorem commutes_flow (hh : host.Commutes g) (frame : Frame) (operand : Bytes) (op : FlowOp) :
    Commutes g (flow host frame operand op) := by
  cases op with
  | nop => exact commutes_pure _
  | jump => exact (commutes_jumpTarget _ _).bind commutes_goTo
  | jumpIf | jumpIfNot =>
    exact (commutes_jumpTarget _ _).bind fun _ => commutes_popBool.bind fun _ =>
      (commutes_goTo _).ite (commutes_pure _)
  | call => exact (commutes_jumpTarget _ _).bind fun _ => commutes_enter _
  | ret => exact commutes_ret
  | appCall | tailCall => exact commutes_callContract hh frame _ operand
  | sysCall =>
    rw [flow]
    split
    · next call found => exact hh.syscall _ call found
    · exact commutes_fail _
  | throw => exact commutes_fail _
  | throwIfNot => exact commutes_popBool.bind fun _ => (commutes_fail _).ite (commutes_pure _)

/-- **What an instruction does** does not depend on what the host does not look at. -/
theorem commutes_execute (hh : host.Commutes g) (frame : Frame) (i : Instruction) :
    Commutes g (execute host frame i) := by
  rw [execute]
  cases i.opcode with
  | pushBytes n => exact commutes_pushBytes _
  | pushData width => exact commutes_pushBytes _
  | pushInt v => exact commutes_pushInt _
  | flow op => exact commutes_flow hh frame _ op
  | stack op => exact commutes_shuffle op
  | splice op => exact commutes_splice op
  | unary op => exact commutes_unary op
  | binary op => exact commutes_binary op
  | compare op => exact commutes_compare op
  | shift op => exact commutes_shift op
  | logic op => exact commutes_logic op
  | crypto op => exact commutes_crypto _ op
  | collection op => exact commutes_collection op
  | reserved => exact commutes_popPair.bind fun _ => commutes_fail _
  | unknown => exact commutes_fail _

theorem commutes_fetch (frame : Frame) : Commutes g (fetch frame : Exec σ Instruction) := by
  rw [fetch]
  split
  · exact (commutes_goTo _).bind fun _ => commutes_pure _
  · exact (commutes_goTo _).bind fun _ => commutes_fail _

theorem commutes_charge (hh : host.Commutes g) (frame : Frame) (i : Instruction) :
    Commutes g (charge host frame i) := by
  rw [charge]
  cases priced : host.price with
  | none => exact commutes_pure _
  | some price =>
    refine Commutes.ite (.look (fun m => ?_) fun m => ?_) (commutes_pure _)
    · rw [hh.price price priced]
    · cases price i m with
      | error fault => exact commutes_throw fault
      | ok amount =>
        have paid : Commutes g (modify fun m => { m with gas := m.gas + amount } : Exec σ Unit) :=
          fun _ => rfl
        exact paid.bind fun _ => .look (fun _ => rfl) fun _ =>
          (commutes_fail _).ite (commutes_pure _)

/-- **One instruction**: reading it, paying for it, doing it and looking at the stacks. -/
theorem commutes_instruction (hh : host.Commutes g) (frame : Frame) :
    Commutes g (instruction host frame) :=
  (commutes_fetch frame).bind fun i => (commutes_charge hh frame i).bind fun _ =>
    (commutes_execute hh frame i).bind fun _ => .look (fun _ => rfl) fun _ =>
      (commutes_fail _).ite (commutes_pure _)

end Exec

namespace Machine

variable {g : σ → σ} {host : Host σ}

/-- **A step commutes** with what the host does not look at. -/
theorem step_mapWorld (hh : host.Commutes g) (m : Machine σ) :
    (m.mapWorld g).step host = (m.step host).mapWorld g := by
  cases status : m.status with
  | running =>
    cases frames : m.frames with
    | nil => simp only [step, mapWorld, status, frames, stop]
    | cons frame rest =>
      have once := Exec.commutes_instruction hh frame m
      simp only [step, mapWorld, status, frames] at once ⊢
      rw [once]
      cases Exec.instruction host frame m with
      | ok u m' => rfl
      | error fault m' => rfl
  | halted => simp only [step, mapWorld, status]
  | faulted fault => simp only [step, mapWorld, status]

/-- **A run commutes** with what the host does not look at. -/
theorem runFor_mapWorld (hh : host.Commutes g) (n : Nat) (m : Machine σ) :
    (m.mapWorld g).runFor host n = (m.runFor host n).mapWorld g := by
  induction n generalizing m with
  | zero => rfl
  | succ n ih =>
    rw [runFor, runFor, step_mapWorld hh, ih]
    show (if m.status.isRunning then _ else _) = _
    split
    · rfl
    · rfl

end Machine

end DryRun
