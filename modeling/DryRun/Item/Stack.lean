import DryRun.Item

/-!
# Stacks

A stack of items with access by position; the top has position zero.  Every operation that reaches
below the bottom fails and says so in the stack's own name.
-/

set_option autoImplicit false

namespace DryRun

/-- A cause for which a stack operation fails. -/
inductive StackFault where
  /-- An item is taken from an empty stack. -/
  | underflow (stack : RawText)
  /-- There is no item at a position. -/
  | noSuchIndex (stack : RawText) (index : Int) (depth : Nat)
  /-- An item is to be inserted below the bottom. -/
  | insertOutOfRange (stack : RawText) (index : Int)
deriving DecidableEq

/-- The wording of each cause. -/
def StackFault.message : StackFault → RawText
  | .underflow stack => stack ++ .ofString " underflow"
  | .noSuchIndex stack index depth =>
    stack ++ .ofString s!" underflow: index {index}, depth {depth}"
  | .insertOutOfRange stack index => stack ++ .ofString s!" insert out of range: {index}"

/-- A stack of items. -/
structure Stack where
  /-- The name under which it appears in messages. -/
  name : RawText
  /-- The items, top first. -/
  items : List Item

namespace Stack

/-- An empty stack. -/
def empty (name : RawText) : Stack := ⟨name, []⟩

/-- How many items there are. -/
def depth (s : Stack) : Nat := s.items.length

/-- Put an item on top. -/
def push (s : Stack) (item : Item) : Stack :=
  { s with items := item :: s.items }

/-- Take the top item. -/
def pop (s : Stack) : Except StackFault (Item × Stack) :=
  match s.items with
  | item :: rest => .ok (item, { s with items := rest })
  | [] => .error (.underflow s.name)

/-- The item at a position. -/
def peek (s : Stack) (n : Int) : Except StackFault Item :=
  if h : 0 ≤ n ∧ n.toNat < s.items.length then .ok s.items[n.toNat]
  else .error (.noSuchIndex s.name n s.depth)

/-- Put an item at a position, above the item that is there. -/
def insert (s : Stack) (n : Int) (item : Item) : Except StackFault Stack :=
  if 0 ≤ n ∧ n ≤ s.depth then .ok { s with items := s.items.insertIdx n.toNat item }
  else .error (.insertOutOfRange s.name n)

/-- Take the item at a position. -/
def remove (s : Stack) (n : Int) : Except StackFault (Item × Stack) := do
  let item ← s.peek n
  return (item, { s with items := s.items.eraseIdx n.toNat })

/-- Replace the item at a position. -/
def set (s : Stack) (n : Int) (item : Item) : Except StackFault Stack :=
  if 0 ≤ n ∧ n.toNat < s.items.length then .ok { s with items := s.items.set n.toNat item }
  else .error (.noSuchIndex s.name n s.depth)

/-- Drop all items. -/
def clear (s : Stack) : Stack :=
  { s with items := [] }

end Stack

end DryRun
