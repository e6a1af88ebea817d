import DryRun.Node
import DryRun.Proofs.Returns
import DryRun.Syscall.Contract

/-!
# How long the scripts of contracts are

A contract comes into a run in one of two ways.  The node's answer is read with a limit on every
field, and a contract that is deployed has the limit of an item on its script.  Either way the
script is no longer than `Reader.maxFieldSize`.
-/

set_option autoImplicit false

namespace DryRun

/-! ## Contracts of the node -/

namespace Reader

theorem returns_take (n : Nat) : Returns (fun data => data.length = n) (take n) := by
  intro cursor data next h
  rw [take] at h
  dsimp only at h
  split at h
  · next enough =>
    cases h
    exact enough
  · cases h

theorem returns_varUint (limit : Int) :
    Returns (fun n : Nat => (n : Int) ≤ limit) (varUint limit) := by
  rw [varUint]
  refine Returns.bind_right fun mark => ?_
  dsimp only
  split
  · exact Returns.bind_right fun n => .guarded fun h => .pure (Int.not_lt.1 h)
  · split
    · exact Returns.bind_right fun n => .guarded fun h => .pure (Int.not_lt.1 h)
    · split
      · exact Returns.bind_right fun n => .guarded fun h => .pure (Int.not_lt.1 h)
      · exact Returns.bind_right fun n => .guarded fun h => .pure (Int.not_lt.1 h)

theorem returns_varBytes (limit : Int) :
    Returns (fun data => (data.length : Int) ≤ limit) (varBytes limit) :=
  (returns_varUint limit).bind fun n h => (returns_take n).mono fun data hdata => by rwa [hdata]

end Reader

/-- The script of a contract is no longer than a field may be. -/
def Contract.IsShort (c : Contract) : Prop := c.script.length ≤ Reader.maxFieldSize

open Contract (IsShort)

theorem Contract.returns_read : Returns IsShort Contract.read :=
  (Reader.returns_varBytes _).bind fun _ short =>
    .bind_right fun _ => .bind_right fun _ => .bind_right fun _ => .bind_right fun _ =>
      .bind_right fun _ => .bind_right fun _ => .bind_right fun _ => .bind_right fun _ =>
        .pure (Int.ofNat_le.1 short)

theorem Reader.readAll_eq_ok {α : Type} {P : α → Prop} {read : Reader α} (h : Returns P read)
    {data : Bytes} {a : α} (ha : Reader.readAll read data = .ok a) : P a := by
  have whole : Returns P (do let value ← read; Reader.expectEnd; pure value : Reader α) :=
    h.bind fun _ ha => .bind_right fun _ => .pure ha
  rw [Reader.readAll] at ha
  split at ha
  · next value cursor run =>
    cases ha
    exact whole _ _ _ run
  · cases ha

namespace Node

theorem readObject_eq_ok {α : Type} {P : α → Prop} {read : Reader α} (h : Returns P read)
    {method : String} {result : Json} {a : α}
    (ha : readObject method read result = .ok (some a)) : P a := by
  rw [readObject.eq_def] at ha
  split at ha
  · cases ha
  · split at ha
    · next value read =>
      cases ha
      cases data : readHex result with
      | error cause => rw [data] at read; cases read
      | ok bytes => rw [data] at read; exact Reader.readAll_eq_ok h read
    · cases ha

/-- Whatever can be read of a result holds of the answer. -/
theorem returns_query {α : Type} {P : α → Prop} (node : Node) (query : Query)
    {read : String → Json → Except NodeError α}
    (h : ∀ method result a, read method result = .ok a → P a) :
    Returns P (node.query query read) := by
  refine Returns.bind_right fun result => ?_
  split
  · next value found => exact .pure (h _ _ _ found)
  · exact .throw _

theorem returns_object {α : Type} {P : α → Prop} (node : Node) (query : Query) {read : Reader α}
    (h : Returns P read) :
    Returns (fun found => ∀ a, found = some a → P a) (node.query query (readObject · read)) := by
  refine node.returns_query query fun method result found hfound a ha => ?_
  subst ha
  exact readObject_eq_ok h hfound

/-- The node's contracts have short scripts. -/
theorem returns_contract (node : Node) (scriptHash : Bytes) (height : Nat) :
    Returns (fun found => ∀ c, found = some c → IsShort c) (node.contract scriptHash height) :=
  node.returns_object _ (Returns.bind_right fun _ => Contract.returns_read)

end Node

/-! ## Contracts that are deployed -/

namespace Exec

variable {σ : Type}

theorem returns_popField (limit : Nat) (what : String) :
    Returns (fun data => data.length ≤ limit) (popField limit what) :=
  .bind_right fun _ => .guarded fun h => .pure (Nat.le_of_not_lt h)

theorem returns_popNewContract : Returns IsShort popNewContract :=
  (returns_popField _ _).bind fun _ short =>
    .bind_right fun _ => .bind_right fun _ => .bind_right fun _ => .bind_right fun _ =>
      .bind_right fun _ => .bind_right fun _ => .bind_right fun _ => .bind_right fun _ =>
        .pure (Nat.le_trans short (by decide))

end Exec

end DryRun
