import DryRun.Proofs.Node.Query
import DryRun.Proofs.World.Storage

/-!
# Storage as a snapshot with local writes

What a script sees of storage is the node's snapshot at the height of the run, updated by what the
run itself has written.  This file says so of every history of operations through contexts.  A
history lists its operations with the latest one first, like the requests of a conversation;
`latest` is what the latest successful write to a key of a contract has put there, and `asked` are
the questions for which the node was needed.

* `written_after` — after a history the overlay holds exactly the latest writes.
* `sent_after` — the requests that a history has sent are exactly those of `asked`.
* `storage_refines_snapshot` — the whole of it.
-/

set_option autoImplicit false

namespace DryRun

namespace StorageOverlay

/-- An operation on storage. -/
inductive Operation where
  /-- Write a value. -/
  | put (context : StorageContext) (key value : Bytes)
  /-- Delete a key. -/
  | delete (context : StorageContext) (key : Bytes)
  /-- Read a value. -/
  | get (context : StorageContext) (key : Bytes)

/-- What an operation answers. -/
inductive Answer where
  /-- It has written. -/
  | done
  /-- It was refused. -/
  | refused (cause : SyscallFault)
  /-- It has read a value. -/
  | value (value : Bytes)
  /-- The node has not answered. -/
  | failed (cause : NodeError)

namespace Operation

/-- The context an operation goes through. -/
def context : Operation → StorageContext
  | .put context _ _ | .delete context _ | .get context _ => context

/-- The key it is about. -/
def key : Operation → Bytes
  | .put _ key _ | .delete _ key | .get _ key => key

/-- The value that it puts under its key, if it is a write. -/
def content? : Operation → Option Bytes
  | .put _ _ value => some value
  | .delete _ _ => some []
  | .get _ _ => none

/-- The value that it puts under a key of a contract: a write does, through a context that allows
it. -/
def writes? (op : Operation) (scriptHash key : Bytes) : Option Bytes :=
  if op.context.readOnly = false ∧ op.context.scriptHash = scriptHash ∧ op.key = key then
    op.content?
  else none

end Operation

/-- The value that the latest successful write of a history has put under a key of a contract. -/
def latest (history : List Operation) (scriptHash key : Bytes) : Option Bytes :=
  history.findSome? (·.writes? scriptHash key)

/-- The questions for which the node is needed in a history, the latest first: those of the reads
for which nothing had been written before. -/
def asked (height : Nat) : List Operation → List Query
  | [] => []
  | .get context key :: earlier =>
    if (latest earlier context.scriptHash key).isNone then
      .storage context.scriptHash key height :: asked height earlier
    else asked height earlier
  | _ :: earlier => asked height earlier

section

variable (node : Node) (height : Nat)

/-- Perform an operation in the middle of a conversation with the node. -/
def perform (overlay : StorageOverlay) (link : Link) : Operation → StorageOverlay × Link × Answer
  | .put context key value =>
    match overlay.write context key value with
    | .ok overlay => (overlay, link, .done)
    | .error cause => (overlay, link, .refused cause)
  | .delete context key =>
    match overlay.delete context key with
    | .ok overlay => (overlay, link, .done)
    | .error cause => (overlay, link, .refused cause)
  | .get context key =>
    match overlay.read node height context key link with
    | .ok value link => (overlay, link, .value value)
    | .error cause link => (overlay, link, .failed cause)

/-- The overlay and the conversation after a history that begins with nothing written. -/
def after (link : Link) : List Operation → StorageOverlay × Link
  | [] => (.empty, link)
  | op :: earlier =>
    let (overlay, link) := after link earlier
    let (overlay, link, _) := overlay.perform node height link op
    (overlay, link)

end

variable {node : Node} {height : Nat} {overlay : StorageOverlay} {link : Link}

/-! ## One operation -/

/-- A deletion writes the empty value. -/
theorem delete_eq_write (context : StorageContext) (key : Bytes) :
    overlay.delete context key = overlay.write context key [] := rfl

theorem written_write (context : StorageContext) (key value : Bytes) (scriptHash key' : Bytes) :
    written (match overlay.write context key value with
      | .ok overlay => overlay
      | .error _ => overlay) scriptHash key' =
      ((Operation.put context key value).writes? scriptHash key').or
        (written overlay scriptHash key') := by
  cases readOnly : context.readOnly with
  | true =>
    rw [write_of_readOnly readOnly, Operation.writes?, if_neg fun h => ?_]
    · rfl
    · exact Bool.false_ne_true (h.1.symm.trans readOnly)
  | false =>
    rw [write_of_not_readOnly readOnly, Operation.writes?]
    dsimp only
    rw [written_insert]
    by_cases same : context.scriptHash = scriptHash ∧ key = key'
    · rw [if_pos same, if_pos ⟨readOnly, same⟩]
      rfl
    · rw [if_neg same, if_neg fun h => same h.2]
      rfl

/-- A write through a context that allows none is refused, and changes nothing. -/
theorem perform_of_readOnly {op : Operation} {value : Bytes} (h : op.context.readOnly = true)
    (content : op.content? = some value) :
    overlay.perform node height link op = (overlay, link, .refused .readOnly) := by
  cases op with
  | put context k v =>
    have locked : context.readOnly = true := h
    rw [perform, write_of_readOnly locked]
  | delete context k =>
    have locked : context.readOnly = true := h
    rw [perform, delete_eq_write, write_of_readOnly locked]
  | get context k => cases content

theorem perform_of_not_readOnly {op : Operation} {value : Bytes} (h : op.context.readOnly = false)
    (content : op.content? = some value) :
    overlay.perform node height link op =
      (overlay.insert ((op.context.scriptHash, op.key), value), link, .done) := by
  cases op with
  | put context k v =>
    cases content
    have allowed : context.readOnly = false := h
    rw [perform, write_of_not_readOnly allowed]
    rfl
  | delete context k =>
    cases content
    have allowed : context.readOnly = false := h
    rw [perform, delete_eq_write, write_of_not_readOnly allowed]
    rfl
  | get context k => cases content

/-- What is written after an operation. -/
theorem written_perform (op : Operation) (scriptHash key : Bytes) :
    written (overlay.perform node height link op).1 scriptHash key =
      (op.writes? scriptHash key).or (written overlay scriptHash key) := by
  cases op with
  | put context k value =>
    rw [← written_write, perform]
    cases overlay.write context k value with
    | ok overlay => rfl
    | error cause => rfl
  | delete context k =>
    have same : (Operation.delete context k).writes? scriptHash key =
        (Operation.put context k []).writes? scriptHash key := rfl
    rw [same, ← written_write, perform, delete_eq_write]
    cases overlay.write context k [] with
    | ok overlay => rfl
    | error cause => rfl
  | get context k =>
    have nothing : (Operation.get context k).writes? scriptHash key = none := by
      rw [Operation.writes?, Operation.content?, ite_self]
    rw [nothing, perform]
    cases overlay.read node height context k link with
    | ok value link => rfl
    | error cause link => rfl

/-- The requests of a conversation after an operation. -/
theorem sent_perform (op : Operation) :
    (overlay.perform node height link op).2.1.sent =
      match op with
      | .get context key =>
        if (written overlay context.scriptHash key).isNone then
          (link.asked (.storage context.scriptHash key height)).sent
        else link.sent
      | _ => link.sent := by
  cases op with
  | put context k value =>
    rw [perform]
    cases overlay.write context k value with
    | ok overlay => rfl
    | error cause => rfl
  | delete context k =>
    rw [perform]
    cases overlay.delete context k with
    | ok overlay => rfl
    | error cause => rfl
  | get context k =>
    show (overlay.perform node height link (.get context k)).2.1.sent =
      if (written overlay context.scriptHash k).isNone then
        (link.asked (.storage context.scriptHash k height)).sent
      else link.sent
    rw [perform, read_eq]
    cases written overlay context.scriptHash k with
    | some value => rfl
    | none =>
      dsimp only
      rw [Node.storage, Node.query_eq]
      cases node.outcome _ Node.readBytes with
      | ok value => rfl
      | error cause => rfl

/-! ## Histories -/

section

variable (node height link)

/-- **After a history the overlay holds the latest writes** and nothing else. -/
theorem written_after (history : List Operation) (scriptHash key : Bytes) :
    written (after node height link history).1 scriptHash key = latest history scriptHash key := by
  induction history with
  | nil => rfl
  | cons op earlier ih =>
    show written (perform node height (after node height link earlier).1
      (after node height link earlier).2 op).1 scriptHash key = _
    rw [written_perform, ih, latest, latest, List.findSome?_cons]
    cases op.writes? scriptHash key with
    | none => rfl
    | some value => rfl

/-- **A history sends the requests of its reads** for which nothing had been written before. -/
theorem sent_after (history : List Operation) :
    (after node height link history).2.sent.map Request.query =
      asked height history ++ link.sent.map Request.query := by
  induction history with
  | nil => rfl
  | cons op earlier ih =>
    show (perform node height (after node height link earlier).1
      (after node height link earlier).2 op).2.1.sent.map Request.query = _
    rw [sent_perform]
    cases op with
    | put context key value => exact ih
    | delete context key => exact ih
    | get context key =>
      dsimp only
      rw [written_after, asked]
      cases (latest earlier context.scriptHash key).isNone with
      | false => exact ih
      | true =>
        show _ :: (after node height link earlier).2.sent.map Request.query = _
        rw [ih]
        rfl

end

/-- An operation leaves alone what it does not write. -/
theorem read_perform (op : Operation) (context : StorageContext) (key : Bytes)
    (h : op.writes? context.scriptHash key = none) :
    (overlay.perform node height link op).1.read node height context key =
      overlay.read node height context key := by
  rw [read_eq, read_eq, written_perform, h, Option.none_or]

/-- **Storage is the node's snapshot with the writes of the run in front.**  After any history of
operations that begins with nothing written,

* a read gives the value of the latest successful write to that key of that contract, the empty
  one if it was a deletion, and the node is not asked; if there is none it is the node's answer
  for the height, whatever that is;
* the requests sent are those of the reads with no write before, one for each such read;
* a write succeeds exactly if its context allows it, and one that is refused changes nothing;
* an operation on one pair of a contract and a key does not change what another pair reads.

No two pairs have the same name at the node. -/
theorem storage_refines_snapshot (node : Node) (height : Nat) (link : Link)
    (history : List Operation) :
    let overlay := (after node height link history).1
    let later := (after node height link history).2
    (∀ context key, overlay.read node height context key later =
      match latest history context.scriptHash key with
      | some value => .ok value later
      | none => node.storage context.scriptHash key height later) ∧
    later.sent.map Request.query = asked height history ++ link.sent.map Request.query ∧
    (∀ (op : Operation) value, op.content? = some value →
      overlay.perform node height later op =
        if op.context.readOnly then (overlay, later, .refused .readOnly)
        else (overlay.insert ((op.context.scriptHash, op.key), value), later, .done)) ∧
    (∀ (op : Operation) context key, (op.context.scriptHash, op.key) ≠ (context.scriptHash, key) →
      (overlay.perform node height later op).1.read node height context key =
        overlay.read node height context key) ∧
    ∀ a b : StorageKey, a.1.length = Reader.hash160Size → b.1.length = Reader.hash160Size →
      (Query.storageKey a.1 a.2 = Query.storageKey b.1 b.2 ↔ a = b) := by
  refine ⟨fun context key => ?_, sent_after node height link history, fun op value content => ?_,
    fun op context key other => read_perform op context key ?_, fun a b ha hb => ?_⟩
  · rw [read_eq, written_after]
    cases latest history context.scriptHash key with
    | none => rfl
    | some value => rfl
  · cases readOnly : op.context.readOnly with
    | true => exact perform_of_readOnly readOnly content
    | false => exact perform_of_not_readOnly readOnly content
  · exact if_neg fun h => other (Prod.ext h.2.1 h.2.2)
  · refine ⟨fun same => ?_, fun same => by rw [same]⟩
    have same := Query.storageKey_inj (ha.trans hb.symm) same
    exact Prod.ext same.1 same.2

/-- A key that was written and deleted reads as empty without a request, a read of another key has
sent the only one, and a context that allows no writes cannot bring the value back. -/
theorem storage_refines_snapshot_after_deletion :
    let node : Node := fun _ => .unavailable []
    let own : StorageContext := ⟨List.replicate 20 1, false⟩
    let foreign : StorageContext := ⟨List.replicate 20 1, true⟩
    let history : List Operation := [.get own [2], .delete own [1], .put own [1] [9]]
    let overlay := (after node 7 .fresh history).1
    let later := (after node 7 .fresh history).2
    (overlay.read node 7 foreign [1] later = .ok [] later ∧
      overlay.read node 7 own [2] later = node.storage own.scriptHash [2] 7 later) ∧
    later.sent.map Request.query = [.storage own.scriptHash [2] 7] ∧
    overlay.perform node 7 later (.put foreign [1] [9]) = (overlay, later, .refused .readOnly) ∧
    (overlay.perform node 7 later (.put own [2] [9])).1.read node 7 own [1] =
      overlay.read node 7 own [1] ∧
    Query.storageKey own.scriptHash [1] ≠ Query.storageKey own.scriptHash [2] := by
  intro node own foreign history overlay later
  obtain ⟨reads, sent, writes, others, names⟩ := storage_refines_snapshot node 7 .fresh history
  refine ⟨⟨reads foreign [1], reads own [2]⟩, sent, writes (.put foreign [1] [9]) [9] rfl,
    others (.put own [2] [9]) own [1] (by decide), fun same => ?_⟩
  have same := (names (own.scriptHash, [1]) (own.scriptHash, [2]) rfl rfl).1 same
  exact absurd same (by decide)

end StorageOverlay

end DryRun
