import DryRun.Item.Tree
import DryRun.Json

/-!
# Items as contract parameters

How the items left on the stack appear in a receipt: an object with the type and the value.  Both
kinds of sequences appear as arrays.

An item is shown by a call for it and calls for the items in it, and a machine that runs programs
nests calls only so deep.  `Tree.parameter` takes no notice of this; `Tree.parameterWithin` stops
with a failure of its own where the calls would be nested too deep.
-/

set_option autoImplicit false

namespace DryRun.Tree

/-- The object for a type and a value. -/
def typed (type : String) (value : Json) : Json :=
  .ofFields [("type", .ofString type), ("value", value)]

/-- A plain value as a parameter. -/
def primitiveParameter : Primitive → Json
  | .bytes b => typed "ByteArray" (.ofString (Hex.encode b))
  | .int v => typed "Integer" (.ofString (toString v))
  | .bool b => typed "Boolean" (.bool b)

mutual

/-- A tree as a parameter; a collection inside itself has none. -/
def parameter : Tree → Except ItemFault Json
  | .prim p => .ok (primitiveParameter p)
  | .seq _ elements => do return typed "Array" (.array (← parameters elements))
  | .map entries => do return typed "Map" (.array (← entryParameters entries))
  | .handle _ => .ok (.ofFields [("type", .ofString "InteropInterface")])
  | .cycle => .error .recursiveRendering

/-- Trees as parameters. -/
def parameters : List Tree → Except ItemFault (List Json)
  | [] => .ok []
  | tree :: rest => do
    let first ← parameter tree
    return first :: (← parameters rest)

/-- Entries as objects of a key and a value. -/
def entryParameters : List (Primitive × Tree) → Except ItemFault (List Json)
  | [] => .ok []
  | (key, tree) :: rest => do
    let value ← parameter tree
    let entry := Json.ofFields [("key", primitiveParameter key), ("value", value)]
    return entry :: (← entryParameters rest)

end

end DryRun.Tree

namespace DryRun

/-! ## Nested calls -/

/-- A cause for which an item is not shown. -/
inductive RenderFault where
  /-- The item cannot be shown at all. -/
  | item (cause : ItemFault)
  /-- The item is nested too deep. -/
  | tooDeep
deriving DecidableEq

namespace Tree

mutual

/-- A tree as a parameter, where `depth` calls can be nested.  The first obstacle that is met on the
way through the tree is what the failure is for. -/
def parameterWithin : (depth : Nat) → Tree → Except RenderFault Json
  | 0, _ => .error .tooDeep
  | _ + 1, .prim p => .ok (primitiveParameter p)
  | depth + 1, .seq _ elements => do
    return typed "Array" (.array (← parametersWithin depth elements))
  | depth + 1, .map entries => do
    return typed "Map" (.array (← entryParametersWithin depth entries))
  | _ + 1, .handle _ => .ok (.ofFields [("type", .ofString "InteropInterface")])
  | _ + 1, .cycle => .error (.item .recursiveRendering)

/-- Trees as parameters. -/
def parametersWithin : (depth : Nat) → List Tree → Except RenderFault (List Json)
  | _, [] => .ok []
  | depth, tree :: rest => do
    let first ← parameterWithin depth tree
    return first :: (← parametersWithin depth rest)

/-- Entries as objects of a key and a value.  A key takes a call as well, but one more for it can be
nested just if one for the value can. -/
def entryParametersWithin : (depth : Nat) → List (Primitive × Tree) →
    Except RenderFault (List Json)
  | _, [] => .ok []
  | depth, (key, tree) :: rest => do
    let value ← parameterWithin depth tree
    let entry := Json.ofFields [("key", primitiveParameter key), ("value", value)]
    return entry :: (← entryParametersWithin depth rest)

end

end Tree

end DryRun
