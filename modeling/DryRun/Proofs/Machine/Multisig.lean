import DryRun.Machine.Crypto

/-!
# How often signatures are verified

Checking several signatures goes through the keys once, with at most one verification for each.
`verifyInOrderM` is the same loop with the verifications as effects of any kind: it stops when the
signatures that are left outnumber the keys that are left.  `verifyInOrderM_noting` says which
verifications those are, and that the answer is that of `verifyInOrder`, which does not stop early.
Counting the effects, `verifyCounted` finds no more verifications than there are keys.
-/

set_option autoImplicit false

namespace DryRun

variable {α κ : Type} {verify : α → κ → Bool}

/-- The loop of `verifyInOrder` with each verification as an effect. -/
def verifyInOrderM {m : Type → Type} [Monad m] (verify : α → κ → m Bool) :
    List α → List κ → m Bool
  | [], _ => pure true
  | _ :: _, [] => pure false
  | s :: signatures, k :: keys => do
    if ← verify s k then verifyInOrderM verify signatures keys
    else if signatures.length + 1 > keys.length then pure false
    else verifyInOrderM verify (s :: signatures) keys

/-- A verification that is counted. -/
def countedVerify (verify : α → κ → Bool) (s : α) (k : κ) : StateM Nat Bool := do
  modify (· + 1)
  return verify s k

/-- The answer of the loop and how many verifications it took. -/
def verifyCounted (verify : α → κ → Bool) (signatures : List α) (keys : List κ) : Bool × Nat :=
  (verifyInOrderM (countedVerify verify) signatures keys).run 0

/-- There must be a key for each signature. -/
theorem length_le_of_verifyInOrder {signatures : List α} {keys : List κ}
    (h : verifyInOrder verify signatures keys = true) : signatures.length ≤ keys.length := by
  induction keys generalizing signatures with
  | nil =>
    cases signatures with
    | nil => exact Nat.le_refl 0
    | cons s signatures => cases h
  | cons k keys ih =>
    cases signatures with
    | nil => exact Nat.zero_le _
    | cons s signatures =>
      rw [verifyInOrder] at h
      split at h
      · exact Nat.succ_le_succ (ih h)
      · exact Nat.le_succ_of_le (ih h)

/-- The pairs of a signature and a key that the loop verifies, in their order. -/
def tried (verify : α → κ → Bool) : List α → List κ → List (α × κ)
  | [], _ => []
  | _ :: _, [] => []
  | s :: signatures, k :: keys =>
    (s, k) ::
      if verify s k then tried verify signatures keys
      else if signatures.length + 1 > keys.length then []
      else tried verify (s :: signatures) keys

/-- Every key is tried once at most. -/
theorem length_tried_le (signatures : List α) (keys : List κ) :
    (tried verify signatures keys).length ≤ keys.length := by
  induction keys generalizing signatures with
  | nil => cases signatures <;> exact Nat.le_refl 0
  | cons k keys ih =>
    cases signatures with
    | nil => exact Nat.zero_le _
    | cons s signatures =>
      rw [tried, List.length_cons, List.length_cons, Nat.succ_le_succ_iff]
      split
      · exact ih signatures
      · split
        · exact Nat.zero_le _
        · exact ih (s :: signatures)

/-- **Early exit changes nothing**: a loop whose verifications leave a note each has left a note of
every pair it has tried and gives the answer of `verifyInOrder`. -/
theorem verifyInOrderM_noting {m : Type → Type} [Monad m] [LawfulMonad m]
    (note : α × κ → m PUnit) (signatures : List α) (keys : List κ) :
    verifyInOrderM (fun s k => do note (s, k); return verify s k) signatures keys =
      (do
        forM (tried verify signatures keys) note
        return verifyInOrder verify signatures keys) := by
  induction keys generalizing signatures with
  | nil => cases signatures <;> simp [verifyInOrderM, tried, verifyInOrder]
  | cons k keys ih =>
    cases signatures with
    | nil => simp [verifyInOrderM, tried, verifyInOrder]
    | cons s signatures =>
      rw [verifyInOrderM, tried, verifyInOrder, List.forM_cons, bind_assoc, bind_assoc]
      refine bind_congr fun _ => ?_
      rw [pure_bind]
      by_cases verifies : verify s k = true
      · rw [if_pos verifies, if_pos verifies, if_pos verifies]
        exact ih signatures
      · rw [if_neg verifies, if_neg verifies, if_neg verifies]
        by_cases left : signatures.length + 1 > keys.length
        · -- Nothing can come of the signatures that are left.
          have never : verifyInOrder verify (s :: signatures) keys = false :=
            Bool.eq_false_iff.2 fun h => Nat.not_le.2 left (length_le_of_verifyInOrder h)
          rw [if_pos left, if_pos left, never]
          simp
        · rw [if_neg left, if_neg left]
          exact ih (s :: signatures)

theorem run_forM_count {γ : Type} (l : List γ) (count : Nat) :
    (forM l fun _ => (modify (· + 1) : StateM Nat PUnit)).run count = ((), count + l.length) := by
  induction l generalizing count with
  | nil => rfl
  | cons x l ih =>
    rw [List.forM_cons, List.length_cons, Nat.add_comm l.length, ← Nat.add_assoc]
    exact ih (count + 1)

/-- **No more verifications than keys.** -/
theorem verifyCounted_eq (verify : α → κ → Bool) (signatures : List α) (keys : List κ) :
    ∃ tries ≤ keys.length,
      verifyCounted verify signatures keys = (verifyInOrder verify signatures keys, tries) := by
  refine ⟨(tried verify signatures keys).length, length_tried_le signatures keys, ?_⟩
  have counted : verifyInOrderM (countedVerify verify) signatures keys = _ :=
    verifyInOrderM_noting (fun _ => modify (· + 1)) signatures keys
  rw [verifyCounted, counted, StateT.run_bind, run_forM_count, Nat.zero_add]
  rfl

/-- The first signature is given up on when fewer keys than signatures would be left. -/
example : verifyCounted (fun s k => s == k) [1, 5] [2, 3, 4] = (false, 2) := by
  decide

/-- The answer about the message of a run and how many verifications it took.  Without a message
nothing is verified. -/
def multisigCounted (message : Option Bytes) (signatures keys : List Bytes) : Bool × Nat :=
  match message with
  | some message => verifyCounted (Signature.verify message) signatures keys
  | none => (false, 0)

theorem snd_multisigCounted_le (message : Option Bytes) (signatures keys : List Bytes) :
    (multisigCounted message signatures keys).2 ≤ keys.length := by
  cases message with
  | none => exact Nat.zero_le _
  | some message =>
    obtain ⟨tries, few, counted⟩ := verifyCounted_eq (Signature.verify message) signatures keys
    rw [multisigCounted, counted]
    exact few

end DryRun
