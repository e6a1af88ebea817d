import DryRun.Item.Parameter
import DryRun.Number.Fixed8
import DryRun.Run.Settings
import DryRun.Syscall

/-!
# Dry runs

A run is prepared once: the settings are checked and the node is asked for its height.  After that
the script can be run any number of times, each time in a fresh world, and leaves a receipt.
-/

set_option autoImplicit false

namespace DryRun

/-! ## Preparing -/

/-- A cause for which a run cannot be prepared. -/
inductive StartFault where
  /-- The settings are wrong. -/
  | settings (cause : SettingsFault)
  /-- The node does not tell its height. -/
  | height (endpoint : RawText) (cause : NodeError)
  /-- The run was never prepared. -/
  | unprepared

/-- The wording of each cause. -/
def StartFault.message : StartFault → RawText
  | .settings cause => .ofString cause.message
  | .height endpoint cause =>
    .ofString "cannot pin chain height from " ++ endpoint ++ .ofString ": " ++ cause.message
  | .unprepared => .ofString "prepare() must be called before the engine is built"

/-- A run that is ready. -/
structure Prepared where
  /-- The configuration. -/
  configuration : Configuration
  /-- The height at which the chain is looked at. -/
  height : Nat

/-- Check the settings and ask the node at an endpoint for its height. -/
def prepare (node : Node) (endpoint : RawText) (settings : Settings) :
    EStateM StartFault Link Prepared := do
  match settings.configure with
  | .error cause => throw (.settings cause)
  | .ok configuration =>
    match node.currentHeight (← get) with
    | .ok height link =>
      set link
      return ⟨configuration, height⟩
    | .error cause link =>
      set link
      throw (.height endpoint cause)

/-! ## Running -/

/-- A number of steps that is enough for every metered run of a script with `size` bytes.  Every
instruction that does not cost a base unit at least moves forward or ends a frame, so between two
that do there are no more steps than there are bytes in all frames. -/
def stepBound (gasLimit size : Nat) : Nat :=
  let longest := max size Reader.maxFieldSize
  (gasLimit / Price.ratio.toNat + 2) * (Machine.maxFrames * (longest + 1) + 1)

/-- How long an unmetered run may go on. -/
def unmeteredSteps : Nat := 0x4000000000000000

namespace Prepared

variable (p : Prepared)

/-- What is fixed for the run. -/
def setting (node : Node) : Setting :=
  { node, height := p.height, witnesses := p.configuration.witnesses }

/-- The machine at the start of the run.  The script may call contracts chosen at run time. -/
def start (link : Link) : Machine World :=
  .load p.configuration.script true (.fresh link)

/-- How many steps the run may take. -/
def steps : Nat :=
  let limit := p.configuration.gasLimit.amount
  if limit = 0 then unmeteredSteps
  else stepBound limit.toNat p.configuration.script.length

/-- The machine at the end of the run. -/
def run (node : Node) (link : Link) : Machine World :=
  (p.start link).runFor ((p.setting node).host p.configuration.gasLimit) p.steps

end Prepared

/-! ## Receipts -/

/-- What is left of a run. -/
structure Receipt where
  /-- The script. -/
  script : Bytes
  /-- How the run ended. -/
  status : Status
  /-- The gas consumed. -/
  gas : Int
  /-- The items on the stack, bottom first, as parameters. -/
  stack : List Json

/-- The items on the evaluation stack as parameters, bottom first. -/
def Machine.parameters {σ : Type} (m : Machine σ) : Except ItemFault (List Json) :=
  Tree.parameters (m.stack.items.reverse.map m.heap.unfold)

/-- The receipt of a machine.  If an item cannot be shown the stack is left out.  It does not matter
here how deep the items are nested. -/
def Machine.receipt {σ : Type} (m : Machine σ) (script : Bytes) : Receipt :=
  { script, status := m.status, gas := m.gas
    stack := match m.parameters with
      | .ok stack => stack
      | .error _ => [] }

/-- How deep calls can be nested to show an item.  There are a thousand calls, two for each item
that is inside another one, and some of them are taken already by the program. -/
def nestingLimit : Nat := 490

/-- A cause for which a run leaves no receipt. -/
inductive RunFault where
  /-- The run did not start. -/
  | start (cause : StartFault)
  /-- An item on the stack is nested too deep to be shown. -/
  | tooDeep

/-- What a machine leaves where `depth` calls can be nested.  An item that cannot be shown empties
the stack of the receipt; but for one that is nested too deep there is no receipt, since nothing
looks after this failure. -/
def Machine.leave {σ : Type} (m : Machine σ) (script : Bytes) (depth : Nat) :
    Except RunFault Receipt :=
  match Tree.parametersWithin depth (m.stack.items.reverse.map m.heap.unfold) with
  | .ok stack => .ok { script, status := m.status, gas := m.gas, stack }
  | .error (.item _) => .ok { script, status := m.status, gas := m.gas, stack := [] }
  | .error .tooDeep => .error .tooDeep

/-- A receipt as a document. -/
def Receipt.toJson (receipt : Receipt) : Json :=
  .ofFields
    [("script", .ofString (Hex.encode receipt.script)),
     ("state", .ofString receipt.status.name),
     ("gas_consumed", .ofString (Fixed8.format receipt.gas)),
     ("stack", .array receipt.stack)]

/-- Prepare and run in one go. -/
def dryRun (node : Node) (endpoint : RawText) (settings : Settings) :
    EStateM RunFault Link Receipt := do
  let p ← (prepare node endpoint settings).adaptExcept .start
  let m := p.run node (← get)
  set m.world.link
  match m.leave p.configuration.script nestingLimit with
  | .ok receipt => return receipt
  | .error cause => throw cause

end DryRun
