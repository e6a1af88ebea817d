import DryRun.Proofs.World.Contracts
import DryRun.Proofs.World.Storage
import DryRun.World

/-!
# The history of storage and contracts

What a run does to storage and contracts comes down to four kinds of changes.  A history lists the
changes that were made, the latest first, and everything that the run keeps of storage and contracts
is what its history has made of nothing (`Stores.after`).

What a run knows of a contract is then read off its history: `fate` is the last thing that happened
to the contract, and nothing else counts (`lookup_after`, `creatorOf_after`).  What is written under
a key changes only by the changes that `Change.Writes` lists and by a destruction, which leaves the
empty value to every key under which something was written (`written_apply_of_not_writes`).  So
until something is put there again, a destroyed contract has empty values where it had values of the
run (`written_after_destroyed`).
-/

set_option autoImplicit false

namespace DryRun

open StorageOverlay (written)

/-- What can happen to storage and contracts. -/
inductive Change where
  /-- A value is put under a key of a contract. -/
  | put (scriptHash key value : Bytes)
  /-- What is written under a contract is carried over to another one. -/
  | carried (source target : Bytes)
  /-- A contract is deployed in somebody's name. -/
  | deployed (deployed : Deployed) (creator : Bytes)
  /-- A contract is destroyed. -/
  | destroyed (scriptHash : Bytes)
deriving DecidableEq

/-- The storage and the contracts of a run. -/
structure Stores where
  /-- The storage. -/
  storage : StorageOverlay
  /-- The contracts. -/
  contracts : ContractOverlay

/-- The storage and the contracts of a world. -/
def World.stores (w : World) : Stores := ⟨w.storage, w.contracts⟩

namespace Stores

/-- Nothing was stored and nothing deployed. -/
def empty : Stores := ⟨.empty, .empty⟩

/-- Make a change. -/
def apply (s : Stores) : Change → Stores
  | .put scriptHash key value => { s with storage := s.storage.insert ((scriptHash, key), value) }
  | .carried source target => { s with storage := s.storage.copy source target }
  | .deployed d creator => { s with contracts := s.contracts.deploy d (some creator) }
  | .destroyed scriptHash =>
    { storage := s.storage.wipe scriptHash, contracts := s.contracts.destroy scriptHash }

/-- What a history makes of storage and contracts. -/
def after (s : Stores) (history : List Change) : Stores :=
  history.foldr (fun change s => s.apply change) s

variable (s : Stores)

@[simp] theorem after_nil : s.after [] = s := rfl

@[simp] theorem after_cons (change : Change) (earlier : List Change) :
    s.after (change :: earlier) = (s.after earlier).apply change := rfl

theorem after_append (later earlier : List Change) :
    s.after (later ++ earlier) = (s.after earlier).after later :=
  List.foldr_append

/-- What becomes of contracts does not depend on storage. -/
theorem contracts_after {s t : Stores} (h : s.contracts = t.contracts) (history : List Change) :
    (s.after history).contracts = (t.after history).contracts := by
  induction history with
  | nil => exact h
  | cons change earlier ih =>
    cases change with
    | put | carried => exact ih
    | deployed d creator => exact congrArg (·.deploy d (some creator)) ih
    | destroyed gone => exact congrArg (·.destroy gone) ih

end Stores

/-! ## What became of a contract -/

/-- What a change means for a contract: nothing, a destruction, or a deployment in the name of a
creator. -/
def Change.fate? (scriptHash : Bytes) : Change → Option (Option (Deployed × Bytes))
  | .deployed d creator =>
    if d.contract.scriptHash = scriptHash then some (some (d, creator)) else none
  | .destroyed gone => if gone = scriptHash then some none else none
  | _ => none

/-- The last thing that happened to a contract, if anything did. -/
def fate (history : List Change) (scriptHash : Bytes) : Option (Option (Deployed × Bytes)) :=
  history.findSome? (·.fate? scriptHash)

section

variable {scriptHash : Bytes} {d : Deployed} {creator : Bytes} {history : List Change}

theorem fate_cons (change : Change) (earlier : List Change) :
    fate (change :: earlier) scriptHash =
      (change.fate? scriptHash).or (fate earlier scriptHash) := by
  rw [fate, List.findSome?_cons]
  cases change.fate? scriptHash <;> rfl

/-- **A contract is what happened to it last.** -/
theorem lookup_after : (Stores.empty.after history).contracts.lookup scriptHash =
    (fate history scriptHash).map (·.map Prod.fst) := by
  induction history with
  | nil => rfl
  | cons change earlier ih =>
    rw [Stores.after_cons, fate_cons]
    cases change with
    | put | carried => exact ih
    | deployed d creator =>
      rw [Change.fate?]
      refine (ContractOverlay.lookup_deploy d (some creator)).trans ?_
      split
      · rfl
      · exact ih
    | destroyed gone =>
      rw [Change.fate?]
      refine (ContractOverlay.lookup_destroy gone).trans ?_
      split
      · rfl
      · exact ih

/-- The creator of a contract is the one in whose name it was deployed last. -/
theorem creator_after (h : fate history scriptHash = some (some (d, creator))) :
    ((Stores.empty.after history).contracts.creators.find? scriptHash).map Prod.snd =
      some creator := by
  induction history with
  | nil => cases h
  | cons change earlier ih =>
    rw [fate_cons] at h
    cases change with
    | put | carried => exact ih h
    | deployed d' creator' =>
      show ((Table.insert _ (_, creator')).find? scriptHash).map Prod.snd = _
      rw [Table.find?_insert]
      rw [Change.fate?] at h
      split at h
      · next same =>
        cases h
        rw [if_pos same]
        rfl
      · next other =>
        rw [if_neg other]
        exact ih h
    | destroyed gone =>
      rw [Change.fate?] at h
      split at h
      · cases h
      · exact ih h

/-- **A contract whose deployment stands** has the creator that is recorded with it. -/
theorem creatorOf_after : (Stores.empty.after history).contracts.creatorOf scriptHash =
    (fate history scriptHash).bind (·.map Prod.snd) := by
  rw [ContractOverlay.creatorOf, ContractOverlay.isLocal, lookup_after]
  cases h : fate history scriptHash with
  | none => rfl
  | some last =>
    cases last with
    | none => rfl
    | some standing => exact creator_after h

/-- What happened to a contract last did happen. -/
theorem mem_of_fate (h : fate history scriptHash = some (some (d, creator))) :
    Change.deployed d creator ∈ history ∧ d.contract.scriptHash = scriptHash := by
  obtain ⟨change, mem, found⟩ := List.exists_of_findSome?_eq_some h
  rw [Change.fate?.eq_def] at found
  split at found
  · split at found
    · next same =>
      cases found
      exact ⟨mem, same⟩
    · cases found
  · split at found <;> cases found
  · cases found

end

/-! ## What is written -/

/-- The change puts a value under a key of a contract, if it is made when the stores are `s`. -/
def Change.Writes (s : Stores) (scriptHash key : Bytes) : Change → Prop
  | .put target key' _ => target = scriptHash ∧ key' = key
  | .carried source target => target = scriptHash ∧ written s.storage source key ≠ none
  | _ => False

section

variable {s : Stores} {scriptHash key : Bytes} {change : Change}

/-- What is written after a change. -/
theorem written_apply : written (s.apply change).storage scriptHash key =
    match change with
    | .put target key' value =>
      if target = scriptHash ∧ key' = key then some value else written s.storage scriptHash key
    | .carried source target =>
      if target = scriptHash then
        (written s.storage source key).or (written s.storage target key)
      else written s.storage scriptHash key
    | .deployed _ _ => written s.storage scriptHash key
    | .destroyed gone =>
      if gone = scriptHash then (written s.storage gone key).map fun _ => []
      else written s.storage scriptHash key := by
  cases change with
  | put target key' value => exact StorageOverlay.written_insert target key' value
  | carried source target => exact StorageOverlay.written_copy source target
  | deployed => rfl
  | destroyed gone => exact StorageOverlay.written_wipe gone

/-- **Nothing but a write or a destruction** changes what is written under a key, and a destruction
leaves the empty value there if something was written at all. -/
theorem written_apply_of_not_writes (h : ¬ change.Writes s scriptHash key) :
    written (s.apply change).storage scriptHash key = written s.storage scriptHash key ∨
      change = .destroyed scriptHash ∧ written (s.apply change).storage scriptHash key =
        (written s.storage scriptHash key).map fun _ => [] := by
  rw [written_apply]
  cases change with
  | put target key' value => exact .inl (if_neg h)
  | carried source target =>
    dsimp only
    split
    · next same =>
      subst same
      have nothing : written s.storage source key = none :=
        Classical.byContradiction fun something => h ⟨rfl, something⟩
      exact .inl (by rw [nothing, Option.none_or])
    · exact .inl rfl
  | deployed => exact .inl rfl
  | destroyed gone =>
    dsimp only
    split
    · next same => exact .inr (by rw [same]; exact ⟨rfl, rfl⟩)
    · exact .inl rfl

/-- If something else is written under a key after some changes, one of them has put it there or was
the destruction of the contract. -/
theorem exists_change_of_written_ne {changes : List Change}
    (h : written (s.after changes).storage scriptHash key ≠ written s.storage scriptHash key) :
    ∃ change ∈ changes, change = .destroyed scriptHash ∨
      ∃ earlier, change.Writes (s.after earlier) scriptHash key := by
  induction changes with
  | nil => exact absurd rfl h
  | cons change earlier ih =>
    by_cases writes : change.Writes (s.after earlier) scriptHash key
    · exact ⟨change, List.mem_cons_self, .inr ⟨earlier, writes⟩⟩
    rcases written_apply_of_not_writes writes with same | ⟨gone, -⟩
    · rw [Stores.after_cons, same] at h
      obtain ⟨change, mem, found⟩ := ih h
      exact ⟨change, List.mem_cons_of_mem _ mem, found⟩
    · exact ⟨change, List.mem_cons_self, .inl gone⟩

/-- In a history that begins with `s` a value is put under a key. -/
def Rewrites (s : Stores) (scriptHash key : Bytes) : List Change → Prop
  | [] => False
  | change :: earlier =>
    change.Writes (s.after earlier) scriptHash key ∨ Rewrites s scriptHash key earlier

/-- **What was destroyed stays empty** until something is put there.  Under a key under which
nothing was written there is still nothing. -/
theorem written_after_destroyed {later : List Change}
    (h : ¬ Rewrites (s.apply (.destroyed scriptHash)) scriptHash key later) :
    written ((s.apply (.destroyed scriptHash)).after later).storage scriptHash key =
      (written s.storage scriptHash key).map fun _ => [] := by
  induction later with
  | nil =>
    rw [Stores.after_nil, written_apply]
    exact if_pos rfl
  | cons change earlier ih =>
    rw [Stores.after_cons]
    rcases written_apply_of_not_writes fun writes => h (.inl writes) with same | ⟨-, emptied⟩
    · rw [same, ih fun rewrites => h (.inr rewrites)]
    · rw [emptied, ih fun rewrites => h (.inr rewrites), Option.map_map]
      rfl

end

end DryRun
