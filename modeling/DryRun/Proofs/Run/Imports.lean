import DryRun.Proofs.Chain.Contract
import DryRun.Proofs.Run.Destruction
import DryRun.Proofs.Run.Limits

/-!
# What comes in over the limits

On a moderate node all that a script gets at is within the limits (`items_within_limits`).  This
file is about the other nodes.  There are four things that system calls push as they come: the
height of the run, the height of a transaction, a value in storage and the script of a contract
(`Setting.Imports`).  None of them is compared with the limits on items.

* `Primitive.Yields` — what instructions make of a plain value without a check: bytes that are no
  longer than its own, and their number.
* `Setting.moderate_iff` — a node is moderate exactly if its imports are within the limits.
* `only_imports_exceed` — in every run what is over a limit was made of an import in this way, and
  whatever is imported is pushed, however large it is.
-/

set_option autoImplicit false

namespace DryRun

open StorageOverlay (written)

/-! ## Values of some size -/

/-- A number takes no more bytes than it counts. -/
theorem TwosComplement.length_encode_natCast_le (n : Nat) : (encode n).length ≤ n := by
  rw [length_encode_le_iff, Fits, span]
  have room : 2 * n < Nat.pow 256 n := by
    induction n with
    | zero => decide
    | succ n ih =>
      have power : Nat.pow 256 (n + 1) = 256 * Nat.pow 256 n := Nat.pow_succ'
      omega
  omega

/-- What instructions make of a plain value without a check on the result. -/
inductive Primitive.Yields (source : Primitive) : Primitive → Prop where
  /-- The value itself. -/
  | same : Yields source source
  /-- Bytes that are no longer than its byte form. -/
  | bytes {b : Bytes} (short : b.length ≤ source.toBytes.length) : Yields source (.bytes b)
  /-- The number of such bytes. -/
  | count {n : Nat} (small : n ≤ source.toBytes.length) : Yields source (.int n)

theorem Primitive.Yields.length_toBytes_le {source p : Primitive} (h : source.Yields p) :
    p.toBytes.length ≤ source.toBytes.length := by
  cases h with
  | same => exact Nat.le_refl _
  | bytes short => exact short
  | count small => exact Nat.le_trans (TwosComplement.length_encode_natCast_le _) small

namespace Setting

variable {setting : Setting}

/-! ## Imports -/

/-- What is pushed as it comes from the node. -/
inductive Imports (setting : Setting) : Primitive → Prop where
  /-- The height of the run. -/
  | height : Imports setting (.int setting.height)
  /-- The height of a transaction. -/
  | transactionHeight {hash : Bytes} {n : Nat} {link link' : Link}
    (answer : setting.node.transactionHeight hash setting.height link = .ok (some n) link') :
    Imports setting (.int n)
  /-- A value in storage. -/
  | storage {scriptHash key value : Bytes} {link link' : Link}
    (answer : setting.node.storage scriptHash key setting.height link = .ok value link') :
    Imports setting (.bytes value)
  /-- The script of a contract. -/
  | script {scriptHash : Bytes} {c : Contract} {link link' : Link}
    (answer : setting.node.contract scriptHash setting.height link = .ok (some c) link') :
    Imports setting (.bytes c.script)

/-- **A node is moderate exactly if its imports are within the limits.** -/
theorem moderate_iff : setting.Moderate ↔ ∀ p, setting.Imports p → p.Limited := by
  constructor
  · rintro moderate p (_ | ⟨answer⟩ | ⟨answer⟩ | ⟨answer⟩)
    · exact inIntegerRange_ofNat moderate.height
    · exact inIntegerRange_ofNat (moderate.transactionHeight _ _ _ _ answer _ rfl)
    · exact moderate.storage _ _ _ _ _ answer
    · exact moderate.contract _ _ _ _ answer _ rfl
  · intro limited
    have below {n : Nat} (imported : setting.Imports (.int n)) : n < Nat.pow 2 255 :=
      Int.ofNat_lt.1 (limited _ imported).2
    exact
      { height := below .height
        contract := fun _ _ _ _ answer c found => limited _ (.script (found ▸ answer))
        storage := fun _ _ _ _ _ answer => limited _ (.storage answer)
        transactionHeight := fun _ _ _ _ answer n found =>
          below (.transactionHeight (found ▸ answer)) }

/-- A plain value is within the limits, or made of an import. -/
def Accounts (setting : Setting) (p : Primitive) : Prop :=
  p.Limited ∨ ∃ source, setting.Imports source ∧ source.Yields p

theorem Imports.accounts {p : Primitive} (h : setting.Imports p) : setting.Accounts p :=
  .inr ⟨p, h, .same⟩

instance : Primitive.Standard setting.Accounts where
  of_limited := .inl
  toBytes h := h.imp Primitive.Limited.length_toBytes_le fun ⟨source, imported, yields⟩ =>
    ⟨source, imported, .bytes yields.length_toBytes_le⟩
  shorter h short := h.imp (Nat.le_trans short) fun ⟨source, imported, yields⟩ =>
    ⟨source, imported, .bytes (Nat.le_trans short yields.length_toBytes_le)⟩
  length h := h.imp Primitive.limited_count fun ⟨source, imported, yields⟩ =>
    ⟨source, imported, .count yields.length_toBytes_le⟩

theorem supplies_accounts (setting : Setting) : setting.Supplies setting.Accounts where
  height := Imports.height.accounts
  contract _ _ _ _ answer c found :=
    have imported : setting.Imports (.bytes c.script) := .script (found ▸ answer)
    imported.accounts
  storage _ _ _ _ _ answer := (Imports.storage answer).accounts
  transactionHeight _ _ _ _ answer n found :=
    have imported : setting.Imports (.int n) := .transactionHeight (found ▸ answer)
    imported.accounts

end Setting

/-! ## Pushing them -/

namespace Exec

variable {α : Type} {m m₁ : Machine World} {item : Item} {rest : List Item}

/-- The computation succeeds, and `Q` holds of the machine it leaves. -/
def Succeeds (c : Exec World α) (Q : Machine World → Prop) (m : Machine World) : Prop :=
  ∃ a m', c m = .ok a m' ∧ Q m'

/-- The computation succeeds and leaves an item on top of others. -/
def Leaves (c : Exec World Unit) (item : Item) (rest : List Item) : Machine World → Prop :=
  c.Succeeds fun m' => m'.stack.items = item :: rest

theorem succeeds_bind {c : Exec World α} {f : α → Exec World Unit} {Q : Machine World → Prop}
    {a : α} (first : c m = .ok a m₁) (second : (f a).Succeeds Q m₁) : (c >>= f).Succeeds Q m := by
  obtain ⟨b, m', ends, holds⟩ := second
  exact ⟨b, m', by rw [bind_eq, first]; exact ends, holds⟩

theorem leaves_push (item : Item) (m : Machine World) :
    Leaves (push item) item m.stack.items m :=
  ⟨(), _, rfl, rfl⟩

/-- Behind the handle to a new object there is this object. -/
theorem succeeds_pushObject (object : Object) (m : Machine World) :
    (pushObject object).Succeeds (fun m' => ∃ handle,
      m'.stack.items = .handle handle :: m.stack.items ∧ m'.heap.object? handle = some object) m :=
  ⟨(), _, rfl, (m.heap.makeObject object).2, rfl, Array.getElem?_push_size⟩

theorem asking_of_answer {question : Asking α} {a : α} {link : Link}
    (answer : question m.world.link = .ok a link) :
    asking question m = .ok a { m with world := { m.world with link } } := by
  rw [asking_eq, answer]

/-- A contract that the run has not touched is the node's. -/
theorem findContract_of_answer {setting : Setting} {scriptHash : Bytes} {found : Option Contract}
    {link : Link} (untouched : m.world.contracts.lookup scriptHash = none)
    (answer : setting.node.contract scriptHash setting.height m.world.link = .ok found link) :
    findContract setting scriptHash m =
      .ok (found.map .remote) { m with world := { m.world with link } } := by
  rw [findContract_eq, untouched]
  dsimp only
  rw [bind_eq, asking_of_answer answer]
  rfl

end Exec

open Exec (Leaves Succeeds)

/-- The calls push what they import, of whatever size it is. -/
structure Setting.PushesImports (setting : Setting) : Prop where
  /-- The height of the run. -/
  height : ∀ m : Machine World,
    Leaves (Exec.blockchain setting .getHeight) (.ofInt setting.height) m.stack.items m
  /-- The height of the transaction whose hash lies on top. -/
  transactionHeight : ∀ (m : Machine World) item rest hash n link,
    m.stack.items = item :: rest → item.toBytes = .ok hash → hash.length = Reader.hash256Size →
    setting.node.transactionHeight hash setting.height m.world.link = .ok (some n) link →
    Leaves (Exec.blockchain setting .getTransactionHeight) (.ofInt n) rest m
  /-- A value in storage, if the run has not written under its key. -/
  storage : ∀ (m : Machine World) scriptHash key rest value link,
    m.Offers scriptHash key rest → written m.world.storage scriptHash key = none →
    setting.node.storage scriptHash key setting.height m.world.link = .ok value link →
    Leaves (Exec.storage setting .get) (.ofBytes value) rest m
  /-- A contract that the run has not touched comes behind a handle. -/
  contract : ∀ (m : Machine World) item rest scriptHash c link,
    m.stack.items = item :: rest → item.toBytes = .ok scriptHash →
    scriptHash.length = Reader.hash160Size → m.world.contracts.lookup scriptHash = none →
    setting.node.contract scriptHash setting.height m.world.link = .ok (some c) link →
    (Exec.blockchain setting .getContract).Succeeds (fun m' => ∃ handle,
      m'.stack.items = .handle handle :: rest ∧ m'.heap.object? handle = some (.contract c)) m
  /-- The script of the contract behind a handle. -/
  script : ∀ (m : Machine World) handle rest c,
    m.stack.items = .handle handle :: rest → m.heap.object? handle = some (.contract c) →
    Leaves (Exec.contract setting .getScript) (.ofBytes c.script) rest m

open Exec in
theorem Setting.pushesImports (setting : Setting) : setting.PushesImports where
  height m := leaves_push _ m
  transactionHeight m item rest hash n link items read length answer :=
    succeeds_bind (popHash_of_items items read length) <|
      succeeds_bind (asking_of_answer answer) <| leaves_push _ _
  storage m scriptHash key rest value link offers nothing answer := by
    have asks : Exec.storage setting .get m =
        (asking (setting.node.storage scriptHash key setting.height) >>= pushBytes)
          (m.withItems rest) := by
      rw [get_of_offers offers, nothing]
    rw [Leaves, Succeeds, asks]
    exact succeeds_bind (asking_of_answer answer) (leaves_push _ _)
  contract m item rest scriptHash c link items read length untouched answer :=
    succeeds_bind (popHash_of_items items read length) <|
      succeeds_bind (findContract_of_answer untouched answer) <| succeeds_pushObject _ _
  script m handle rest c items found :=
    succeeds_bind (popContract_of_items items found) <| leaves_push _ _

/-! ## Whole runs -/

/-- What the limits on plain values come to in a run, on any node. -/
structure Setting.LimitsAllButImports (setting : Setting) (limit : GasLimit)
    (start : Machine World) : Prop where
  /-- What is over the limit on bytes is no longer than an import. -/
  bytes : ∀ n b, (start.runFor (setting.host limit) n).Reaches (.ofBytes b) →
    maxItemSize < b.length → ∃ source, setting.Imports source ∧ b.length ≤ source.toBytes.length
  /-- An integer that needs more than `maxIntegerSize` bytes is a height, or counts the bytes of an
  import. -/
  int : ∀ n v, (start.runFor (setting.host limit) n).Reaches (.ofInt v) →
    maxIntegerSize < (TwosComplement.encode v).length →
    setting.Imports (.int v) ∨
      ∃ source, setting.Imports source ∧ 0 ≤ v ∧ v ≤ source.toBytes.length
  /-- The scripts of the node's contracts have a limit of their own. -/
  script : ∀ scriptHash c link link',
    setting.node.contract scriptHash setting.height link = .ok (some c) link' →
    c.script.length ≤ Reader.maxFieldSize
  /-- The calls that import compare nothing with the limits. -/
  pushes : setting.PushesImports

/-- **Only imports are over the limits**, in every state of every run on every node, and they are
pushed whatever their size.  That is, the limits hold of all that a script gets at but for what it
makes of a height, a stored value or the script of a contract that is over the limits already at
the node. -/
theorem only_imports_exceed (setting : Setting) (limit : GasLimit) (script : Bytes)
    (dynamicInvoke : Bool) (link : Link) :
    setting.LimitsAllButImports limit (.load script dynamicInvoke (.fresh link)) := by
  have accounts (n : Nat) (p : Primitive)
      (way : ((Machine.load script dynamicInvoke (.fresh link)).runFor
        (setting.host limit) n).Reaches (.prim p)) : setting.Accounts p := by
    have sound := Setting.sound_run setting.supplies_accounts limit script dynamicInvoke link n
    exact sound.admits way
  refine
    { bytes := fun n b way long => ?_
      int := fun n v way large => ?_
      script := fun _ c _ _ answer => setting.node.returns_contract _ _ _ _ _ answer c rfl
      pushes := setting.pushesImports }
  · obtain within | ⟨source, imported, yields⟩ := accounts n _ way
    · exact absurd within (Nat.not_le_of_lt long)
    · exact ⟨source, imported, yields.length_toBytes_le⟩
  · obtain within | ⟨source, imported, yields⟩ := accounts n _ way
    · exact absurd ((inIntegerRange_iff v).1 within) (Nat.not_le_of_lt large)
    · cases yields with
      | same => exact .inl imported
      | count small => exact .inr ⟨source, imported, Int.natCast_nonneg _, Int.ofNat_le.2 small⟩

end DryRun
