import DryRun.Heap

/-!
# Structs as values

A struct is copied when it is stored, with the structs nested directly in it; everything else is
shared.  Two structs are equal if their elements are; two arrays, maps or objects only if they are
the same one.  No struct is nested in itself, so the depth of nesting is at most the number of
structs.
-/

set_option autoImplicit false

namespace DryRun.Heap

/-- A copy of an item that is nested less deeply than `fuel`. -/
def cloneWithin : (fuel : Nat) → Item → StateM Heap Item
  | fuel + 1, .seq ⟨.struct, id⟩ => do
    let items := (← get).elements ⟨.struct, id⟩
    let copies ← items.mapM (cloneWithin fuel)
    .seq <$> modifyGet fun heap => (heap.makeSequence .struct copies).swap
  | _, item => pure item

/-- An item as it is stored or handed out: a struct is copied. -/
def clone (heap : Heap) (item : Item) : Heap × Item :=
  ((cloneWithin heap.structs.size item).run heap).swap

/-- Are two items equal, comparing structs to a depth below `fuel`? -/
def equalWithin (heap : Heap) : (fuel : Nat) → Item → Item → Bool
  | _, .prim a, .prim b => a.toBytes == b.toBytes
  | fuel + 1, .seq ⟨.struct, a⟩, .seq ⟨.struct, b⟩ =>
    let left := heap.elements ⟨.struct, a⟩
    let right := heap.elements ⟨.struct, b⟩
    a == b || (left.length == right.length &&
      (left.zip right).all fun (x, y) => heap.equalWithin fuel x y)
  | _, a, b => a == b

/-- Are two items equal? -/
def equal (heap : Heap) (a b : Item) : Bool :=
  heap.equalWithin heap.structs.size a b

end DryRun.Heap
