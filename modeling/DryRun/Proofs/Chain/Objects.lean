import DryRun.Heap.Object
import DryRun.Node
import DryRun.Proofs.Chain.Contract
import DryRun.Proofs.Digest

/-!
# How large the parts of chain objects are

A script reads the fields of chain objects as items, so they must be within the limits on items.
For each kind of object there is a predicate `Limited` that says so of what scripts can read of it,
and since the node's answers are read with a limit on every field, whatever the node has is within
the limits (`Node.limited_block` and the like).  Contracts are not among them: their scripts may be
longer than an item.
-/

set_option autoImplicit false

namespace DryRun

/-! ## Objects within the limits -/

/-- A byte string is no longer than an item may be. -/
def Bytes.Short (b : Bytes) : Prop := b.length ≤ maxItemSize

theorem Bytes.Short.of_le {b : Bytes} {n : Nat} (h : b.length ≤ n) (hn : n ≤ maxItemSize) :
    b.Short :=
  Nat.le_trans h hn

open Bytes (Short)

/-- The script that checks a witness is short. -/
def Witness.Limited (w : Witness) : Prop := w.verification.Short

/-- The fields of a header are short. -/
structure Header.Limited (h : Header) : Prop where
  /-- The hash of the block before. -/
  prevHash : h.prevHash.Short
  /-- The root of the transaction hashes. -/
  merkleRoot : h.merkleRoot.Short
  /-- The next validators. -/
  nextConsensus : h.nextConsensus.Short

/-- The data of an attribute is short. -/
def Attribute.Limited (a : Attribute) : Prop := a.data.Short

/-- The hash in an input is short. -/
def Input.Limited (i : Input) : Prop := i.prevHash.Short

/-- The names in an output are short. -/
structure Output.Limited (o : Output) : Prop where
  /-- The asset. -/
  assetId : o.assetId.Short
  /-- The account. -/
  scriptHash : o.scriptHash.Short

/-- The script and the parts of a transaction are within the limits. -/
structure Transaction.Limited (t : Transaction) : Prop where
  /-- The script, if it runs one. -/
  script : ∀ script, t.script? = some script → script.Short
  /-- The attributes. -/
  attributes : ∀ a ∈ t.attributes, a.Limited
  /-- The inputs. -/
  inputs : ∀ i ∈ t.inputs, i.Limited
  /-- The outputs. -/
  outputs : ∀ o ∈ t.outputs, o.Limited
  /-- The witnesses. -/
  witnesses : ∀ w ∈ t.witnesses, w.Limited

/-- The header and the transactions of a block are within the limits. -/
structure Block.Limited (b : Block) : Prop where
  /-- The header. -/
  header : b.header.Limited
  /-- The number of transactions. -/
  count : b.transactions.length ≤ Block.maxTransactions
  /-- The transactions. -/
  transactions : ∀ t ∈ b.transactions, t.Limited

/-- The name and the votes of an account are within the limits. -/
structure Account.Limited (a : Account) : Prop where
  /-- The name. -/
  scriptHash : a.scriptHash.Short
  /-- The number of votes. -/
  count : a.votes.length ≤ maxCollectionSize
  /-- The votes. -/
  votes : ∀ vote ∈ a.votes, vote.Short

/-- The names in an asset are short. -/
structure Asset.Limited (a : Asset) : Prop where
  /-- The name of the asset. -/
  id : a.id.Short
  /-- The owner. -/
  owner : a.owner.Short
  /-- The administrator. -/
  admin : a.admin.Short
  /-- The issuer. -/
  issuer : a.issuer.Short

theorem Account.limited_fresh {scriptHash : Bytes} (h : scriptHash.Short) :
    (Account.fresh scriptHash).Limited :=
  ⟨h, Nat.zero_le _, fun _ mem => absurd mem List.not_mem_nil⟩

/-- Renewing an asset changes none of its names. -/
theorem Asset.Limited.renew {a : Asset} (h : a.Limited) (height years : Nat) :
    (a.renew height years).Limited := by
  rw [Asset.renew]
  exact ⟨h.id, h.owner, h.admin, h.issuer⟩

/-! ## Reading -/

namespace Reader

theorem short_take {n : Nat} (h : n ≤ maxItemSize) : Returns Short (take n) :=
  (returns_take n).mono fun _ length => Short.of_le (Nat.le_of_eq length) h

theorem short_varBytes {n : Nat} (h : n ≤ maxItemSize) : Returns Short (varBytes n) :=
  (returns_varBytes n).mono fun _ length => Short.of_le (Int.ofNat_le.1 length) h

theorem short_hash160 : Returns Short hash160 := short_take (by decide)

theorem short_hash256 : Returns Short hash256 := short_take (by decide)

theorem short_curvePoint : Returns Short curvePoint := by
  have coordinates (mark : UInt8) {n : Nat} (h : n < maxItemSize) :
      Returns Short (do return mark :: (← take n)) :=
    (returns_take n).bind fun data length => .pure (by
      rw [Short, List.length_cons, length]
      omega)
  refine Returns.bind_right fun mark => ?_
  split
  · exact .pure (show 1 ≤ maxItemSize by decide)
  · split
    · exact coordinates mark (by decide)
    · split
      · exact coordinates mark (by decide)
      · exact .throw _

theorem returns_times {α ε : Type} {P : α → Prop} {read : EStateM ε Cursor α} (h : Returns P read)
    (count : Nat) : Returns (fun xs => xs.length = count ∧ ∀ x ∈ xs, P x) (times read count) := by
  induction count with
  | zero => exact .pure ⟨rfl, fun _ mem => absurd mem List.not_mem_nil⟩
  | succ count ih =>
    refine h.bind fun x hx => ih.bind fun xs hxs => .pure ?_
    exact ⟨by rw [List.length_cons, hxs.1], List.forall_mem_cons.2 ⟨hx, hxs.2⟩⟩

theorem returns_array {α : Type} {P : α → Prop} {read : Reader α} (h : Returns P read)
    (limit : Nat) :
    Returns (fun xs => xs.length ≤ limit ∧ ∀ x ∈ xs, P x) (array read limit) :=
  (returns_varUint limit).bind fun _ hcount => (returns_times h _).mono fun _ hxs =>
    ⟨by rw [hxs.1]; exact Int.ofNat_le.1 hcount, hxs.2⟩

theorem returns_withSpan {α : Type} {P : α → Prop} {read : Reader α} (h : Returns P read) :
    Returns (fun found => P found.1) (withSpan read) :=
  Returns.bind_right fun _ => h.bind fun _ ha => Returns.bind_right fun _ => .pure ha

end Reader

open Reader

theorem Witness.limited_read : Returns Limited read :=
  Returns.bind_right fun _ => (short_varBytes (by decide)).bind fun _ short => .pure short

theorem Header.limited_readBase : Returns Limited readBase := by
  refine Returns.bind_right fun version => ?_
  refine short_hash256.bind fun prevHash hprev => short_hash256.bind fun merkleRoot hroot => ?_
  refine Returns.bind_right fun timestamp => Returns.bind_right fun index => ?_
  refine Returns.bind_right fun consensusData => short_hash160.bind fun nextConsensus hnext => ?_
  refine Returns.bind_right fun marker => .guarded fun _ => Returns.bind_right fun witness => ?_
  exact .pure ⟨hprev, hroot, hnext⟩

theorem Header.limited_read : Returns Limited read :=
  limited_readBase.bind fun _ limited => Returns.bind_right fun _ => .guarded fun _ =>
    .pure limited

/-- The longest attributes are those with a length in front. -/
theorem Attribute.limited_read : Returns Limited read := by
  have rest (usage : UInt8) {data : Reader Bytes} (h : Returns Short data) :
      Returns Limited (do return ⟨usage, ← data⟩) :=
    h.bind fun _ short => .pure short
  refine Returns.bind_right fun usage => ?_
  dsimp only
  split
  · refine (returns_take 32).bind fun data length => rest usage (.pure ?_)
    rw [Short, List.length_cons, length]
    decide
  · split
    · exact rest usage (short_take (by decide))
    · split
      · exact rest usage (short_take (by decide))
      · split
        · refine Returns.bind_right fun size => ?_
          have byte : size.toNat ≤ maxItemSize :=
            Nat.le_trans (Nat.le_of_lt size.toNat_lt) (by decide)
          exact rest usage (short_take byte)
        · split
          · exact rest usage (short_varBytes (by decide))
          · exact (Returns.throw (P := fun _ => False) _).bind fun _ no => no.elim

theorem Input.limited_read : Returns Limited read :=
  short_hash256.bind fun _ short => Returns.bind_right fun _ => .pure short

theorem Output.limited_read : Returns Limited read :=
  short_hash256.bind fun _ hasset => Returns.bind_right fun _ =>
    short_hash160.bind fun _ haccount => .pure ⟨hasset, haccount⟩

/-- Only a transaction that runs a script shows it. -/
theorem Payload.short_read (typeByte version : UInt8) :
    Returns (fun payload => ∀ script gas, payload = .invocation script gas → script.Short)
      (read typeByte version) := by
  have silent {α : Type} (wrap : α → Payload) (h : ∀ a script gas, wrap a ≠ .invocation script gas)
      (c : Reader α) : Returns
        (fun payload => ∀ script gas, payload = .invocation script gas → script.Short)
        (wrap <$> c) :=
    (Returns.of_forall (fun a script gas same => absurd same (h a script gas)) c).map
  rw [read.eq_def]
  split
  · exact silent _ (by simp) _
  · exact .pure (by simp)
  · exact silent _ (by simp) _
  · exact silent _ (by simp) _
  · exact silent _ (by simp) _
  · exact .pure (by simp)
  · exact silent _ (by simp) _
  · exact silent _ (by simp) _
  · refine (short_varBytes (by decide)).bind fun script short => ?_
    dsimp only
    split
    · refine Returns.bind_right fun gas => .pure ?_
      rintro _ _ ⟨⟩
      exact short
    · refine Returns.bind_right fun gas => .pure ?_
      rintro _ _ ⟨⟩
      exact short
  · exact .throw _

/-- What is read before the witnesses of a transaction is within the limits. -/
structure Transaction.BodyLimited
    (body : UInt8 × Payload × List Attribute × List Input × List Output) : Prop where
  /-- The script, if there is one. -/
  script : ∀ script gas, body.2.1 = .invocation script gas → script.Short
  /-- The attributes. -/
  attributes : ∀ a ∈ body.2.2.1, a.Limited
  /-- The inputs. -/
  inputs : ∀ i ∈ body.2.2.2.1, i.Limited
  /-- The outputs. -/
  outputs : ∀ o ∈ body.2.2.2.2, o.Limited

theorem Transaction.limited_readUnsigned : Returns BodyLimited readUnsigned := by
  refine Returns.bind_right fun typeByte => Returns.bind_right fun version => ?_
  refine (Payload.short_read typeByte version).bind fun payload hscript => ?_
  refine (returns_array Attribute.limited_read _).bind fun attributes hattributes => ?_
  refine (returns_array Input.limited_read _).bind fun inputs hinputs => ?_
  refine (returns_array Output.limited_read _).bind fun outputs houtputs => .pure ?_
  exact ⟨hscript, hattributes.2, hinputs.2, houtputs.2⟩

theorem Transaction.limited_read : Returns Limited read := by
  refine (returns_withSpan (P := fun found => BodyLimited found.1 ∧ ∀ w ∈ found.2.2, w.Limited)
    ?_).bind ?_
  · exact (returns_withSpan limited_readUnsigned).bind fun body hbody =>
      (returns_array Witness.limited_read _).bind fun witnesses hwitnesses =>
        .pure ⟨hbody, hwitnesses.2⟩
  · rintro ⟨⟨⟨version, payload, attributes, inputs, outputs⟩, unsigned, witnesses⟩, raw⟩ h
    obtain ⟨body, hwitnesses⟩ := h
    refine .pure ⟨fun script hscript => ?_, body.attributes, body.inputs, body.outputs, hwitnesses⟩
    rw [script?] at hscript
    split at hscript
    · next script' gas same =>
      cases hscript
      exact body.script _ gas same
    · cases hscript

theorem Block.limited_read : Returns Limited read :=
  Header.limited_readBase.bind fun _ hheader =>
    (returns_array Transaction.limited_read _).bind fun _ htransactions =>
      .pure ⟨hheader, htransactions.1, htransactions.2⟩

theorem Account.limited_read : Returns Limited read := by
  refine Returns.bind_right fun version => short_hash160.bind fun scriptHash hname => ?_
  refine Returns.bind_right fun isFrozen => ?_
  refine (returns_array short_curvePoint 1024).bind fun votes hvotes => ?_
  exact Returns.bind_right fun balances => .pure ⟨hname, hvotes.1, hvotes.2⟩

theorem Asset.limited_read : Returns Limited read := by
  refine short_hash256.bind fun id hid => Returns.bind_right fun assetType => ?_
  refine Returns.bind_right fun name => Returns.bind_right fun amount => ?_
  refine Returns.bind_right fun available => Returns.bind_right fun precision => ?_
  refine Returns.bind_right fun feeMode => Returns.bind_right fun feeAddress => ?_
  refine short_curvePoint.bind fun owner howner => short_hash160.bind fun admin hadmin => ?_
  refine short_hash160.bind fun issuer hissuer => Returns.bind_right fun expiration => ?_
  exact Returns.bind_right fun isFrozen => .pure ⟨hid, howner, hadmin, hissuer⟩

/-! ## The node's objects -/

namespace Node

variable (node : Node) (hash : Bytes) (height : Nat)

theorem limited_block : Returns (fun found => ∀ b, found = some b → b.Limited)
    (node.block hash height) :=
  node.returns_object _ Block.limited_read

theorem limited_header : Returns (fun found => ∀ h, found = some h → h.Limited)
    (node.header hash height) :=
  node.returns_object _ Header.limited_read

theorem limited_transaction : Returns (fun found => ∀ t, found = some t → t.Limited)
    (node.transaction hash height) :=
  node.returns_object _ Transaction.limited_read

theorem limited_account : Returns (fun found => ∀ a, found = some a → a.Limited)
    (node.account hash height) :=
  node.returns_object _ (Returns.bind_right fun _ => Account.limited_read)

theorem limited_asset : Returns (fun found => ∀ a, found = some a → a.Limited)
    (node.asset hash height) :=
  node.returns_object _ (Returns.bind_right fun _ => Asset.limited_read)

end Node

end DryRun
