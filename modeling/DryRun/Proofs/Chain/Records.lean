import DryRun.Proofs.Chain.Fields
import DryRun.Proofs.Chain.Local
import DryRun.Proofs.Table

/-!
# Records of the chain

Headers, accounts, assets and contracts are written field by field and read in the same order.  The
reader is the more generous of the two: it takes lengths in more bytes than they need, every byte
but zero for a truth value, and the balance of one asset any number of times.  So writing what has
been read need not give the bytes it was read from, but it gives no more of them, and they mean the
same (`RoundTrips`).

For every kind of record there is a predicate `Fits` for what the limits of its reader allow, and
three lemmas go with it:

* `takes_read` — what is read fits, and is written in no more bytes than were taken;
* `parses_read` — what fits is read from the bytes it is written as;
* `writes` — what fits is written, with every number checked on the way (`Account.writer` and its
  like), as the bytes that `write` gives.
-/

set_option autoImplicit false

namespace DryRun

variable {α : Type}

/-! ## Round trips -/

/-- Whatever has been read from a whole byte string can be written: no number in it is refused, the
bytes are no more than there were, and the same is read from them. -/
def RoundTrips (read : Reader α) (writer : α → Writer Unit) (write : α → Bytes) : Prop :=
  ∀ data a, Reader.readAll read data = .ok a →
    writer a [] = .ok () (write a) ∧ (write a).length ≤ data.length ∧
      Reader.readAll read (write a) = .ok a

theorem RoundTrips.of_fits {Fits : α → Prop} {read : Reader α} {writer : α → Writer Unit}
    {write : α → Bytes} (own : Local read)
    (takes : Takes (fun a n => Fits a ∧ (write a).length ≤ n) read)
    (parses : ∀ a, Fits a → Parses read (write a) a)
    (writes : ∀ a, Fits a → Writes (writer a) (write a)) : RoundTrips read writer write := by
  intro data a h
  obtain ⟨size, he⟩ := Reader.readAll_eq_ok_iff.1 h
  obtain ⟨n, hn, fits, short⟩ := takes _ _ _ he
  refine ⟨writes a fits [], ?_, own.readAll_iff.2 (parses a fits)⟩
  rw [List.length_nil, Nat.add_zero] at hn
  exact hn ▸ short

open Reader Writer

/-! ## Lengths with a limit

A limit is always small enough to be counted in eight bytes, so what a reader's limit allows is read
from the bytes it is written as, and is written without being refused. -/

section

variable {bytes : Bytes} {text : String} {limit : Nat} (small : limit ≤ maxU64)

include small

theorem Reader.parses_varBytes_of_le (h : bytes.length ≤ limit) :
    Parses (Reader.varBytes limit) (Wire.varBytes bytes) bytes :=
  parses_varBytes (Int.ofNat_le.2 h) (Nat.le_trans h small)

theorem Reader.parses_varString_of_le (h : (Utf8.encode text).length ≤ limit) :
    Parses (Reader.varString limit) (Wire.varString text) text :=
  parses_varString (Int.ofNat_le.2 h) (Nat.le_trans h small)

theorem Reader.parses_array_of_le {read : Reader α} {write : α → Bytes} {xs : List α}
    (each : ∀ x ∈ xs, Parses read (write x) x) (h : xs.length ≤ limit) :
    Parses (array read limit) (Wire.varUint xs.length ++ xs.flatMap write) xs :=
  parses_array each h (Nat.le_trans h small)

theorem Writer.writes_varUint_of_le {n : Nat} (h : n ≤ limit) :
    Writes (Writer.varUint n) (Wire.varUint n) :=
  writes_varUint (Nat.lt_succ_of_le (Nat.le_trans h small))

theorem Writer.writes_varBytes_of_le (h : bytes.length ≤ limit) :
    Writes (Writer.varBytes bytes) (Wire.varBytes bytes) :=
  writes_varBytes (Nat.lt_succ_of_le (Nat.le_trans h small))

theorem Writer.writes_varString_of_le (h : (Utf8.encode text).length ≤ limit) :
    Writes (Writer.varString text) (Wire.varString text) :=
  writes_varString (Nat.lt_succ_of_le (Nat.le_trans h small))

end

/-! ## Headers -/

/-- The scripts of a witness are no longer than they may be. -/
structure Witness.Fits (w : Witness) : Prop where
  /-- The script that supplies the arguments. -/
  invocation : w.invocation.length ≤ maxScriptSize
  /-- The script that checks them. -/
  verification : w.verification.length ≤ maxScriptSize

namespace Witness

/-- Write a witness, with every number checked. -/
def writer (w : Witness) : Writer Unit := do
  varBytes w.invocation
  varBytes w.verification

variable {w : Witness}

theorem takes_read : Takes (fun w n => w.Fits ∧ w.write.length ≤ n) read := by
  refine (takes_varBytes _).bind fun invocation n h₁ => (takes_varBytes _).bind
    fun verification k h₂ => .pure ⟨⟨Int.ofNat_le.1 h₁.1, Int.ofNat_le.1 h₂.1⟩, ?_⟩
  rw [write, List.length_append]
  dsimp only
  omega

/-- The limit on a script can be counted. -/
theorem maxScriptSize_le : maxScriptSize ≤ maxU64 := by decide

theorem parses_read (h : w.Fits) : Parses read w.write w :=
  (parses_varBytes_of_le maxScriptSize_le h.invocation).bind <|
    (parses_varBytes_of_le maxScriptSize_le h.verification).bind_nil (.pure w)

theorem writes (h : w.Fits) : Writes w.writer w.write :=
  (writes_varBytes_of_le maxScriptSize_le h.invocation).bind
    (writes_varBytes_of_le maxScriptSize_le h.verification)

end Witness

/-- The hashes of a header have their sizes, and its witness fits. -/
structure Header.Fits (h : Header) : Prop where
  /-- The hash of the block before. -/
  prevHash : h.prevHash.length = hash256Size
  /-- The root of the transaction hashes. -/
  merkleRoot : h.merkleRoot.length = hash256Size
  /-- The next validators. -/
  nextConsensus : h.nextConsensus.length = hash160Size
  /-- The witness. -/
  witness : h.witness.Fits

namespace Header

/-- How many bytes of a header its hash covers. -/
def unsignedSize : Nat := 104

/-- Write the fields of a header and its witness, with every number checked. -/
def baseWriter (h : Header) : Writer Unit := do
  h.unsignedWriter
  fixed 1 false 1
  h.witness.writer

/-- Write a header that stands alone. -/
def writer (h : Header) : Writer Unit := do
  h.baseWriter
  fixed 1 false 0

variable {h : Header}

theorem length_writeUnsigned (fits : h.Fits) : h.writeUnsigned.length = unsignedSize := by
  simp only [writeUnsigned, Wire.u32, Wire.u64, List.length_append, Bytes.length_ofNatLE,
    fits.prevHash, fits.merkleRoot, fits.nextConsensus]
  rfl

theorem takes_readBase : Takes (fun h n => h.Fits ∧ h.writeBase.length ≤ n) readBase := by
  refine (takes_field 4 _).bind fun version _ h₁ => (takes_take _).bind fun prevHash _ h₂ =>
    (takes_take _).bind fun merkleRoot _ h₃ => (takes_field 4 _).bind fun timestamp _ h₄ =>
    (takes_field 4 _).bind fun index _ h₅ => (takes_field 8 _).bind fun consensusData _ h₆ =>
    (takes_take _).bind fun nextConsensus _ h₇ => takes_u8.bind fun marker _ h₈ =>
    .guarded fun _ => Witness.takes_read.bind fun witness _ h₉ => .pure ?_
  have fits : Header.Fits { version, prevHash, merkleRoot, timestamp, index, consensusData,
                            nextConsensus, witness } := ⟨h₂.1, h₃.1, h₇.1, h₉.1⟩
  have sizes : hash256Size = 32 ∧ hash160Size = 20 := ⟨rfl, rfl⟩
  refine ⟨fits, ?_⟩
  rw [writeBase, List.length_append, List.length_append, length_writeUnsigned fits, Wire.u8,
    List.length_singleton, unsignedSize]
  dsimp only
  omega

theorem parses_readBase (fits : h.Fits) : Parses readBase h.writeBase h := by
  simp only [writeBase, writeUnsigned, List.append_assoc]
  exact (parses_u32 h.version).bind <| (parses_hash256 fits.prevHash).bind <|
    (parses_hash256 fits.merkleRoot).bind <| (parses_u32 h.timestamp).bind <|
    (parses_u32 h.index).bind <| (parses_u64 h.consensusData).bind <|
    (parses_hash160 fits.nextConsensus).bind <| (parses_u8 1).bind <|
    (Witness.parses_read fits.witness).bind_nil (.pure h)

theorem takes_read : Takes (fun h n => h.Fits ∧ h.write.length ≤ n) read := by
  refine takes_readBase.bind fun h n hh => takes_u8.bind fun padding k hk =>
    .guarded fun _ => .pure ⟨hh.1, ?_⟩
  rw [write, List.length_append, Wire.u8, List.length_singleton]
  omega

theorem parses_read (fits : h.Fits) : Parses read h.write h :=
  (parses_readBase fits).bind ((parses_u8 0).bind_nil (.pure h))

theorem writes_base (fits : h.Fits) : Writes h.baseWriter h.writeBase := by
  simp only [writeBase, List.append_assoc]
  exact (writes_unsigned h).bind <| (writes_u8 1).bind (Witness.writes fits.witness)

theorem writes (fits : h.Fits) : Writes h.writer h.write :=
  (writes_base fits).bind (writes_u8 0)

end Header

/-! ## Accounts -/

/-- The names in an account have their sizes, and there are no more votes and balances than are
read. -/
structure Account.Fits (a : Account) : Prop where
  /-- The account. -/
  scriptHash : a.scriptHash.length = hash160Size
  /-- The number of votes. -/
  voteCount : a.votes.length ≤ 1024
  /-- The votes. -/
  votes : ∀ vote ∈ a.votes, IsPoint vote
  /-- The number of balances. -/
  balanceCount : a.balances.size ≤ 0xFFFF
  /-- The assets. -/
  assets : ∀ row ∈ a.balances.rows, row.1.length = hash256Size

namespace Account

/-- The bytes of a balance. -/
def writeBalance (row : Bytes × Int64) : Bytes := row.1 ++ Wire.i64 row.2

/-- Write an account, with every number checked. -/
def writer (a : Account) : Writer Unit := do
  fixed 1 false a.version.toNat
  append a.scriptHash
  fixed 1 false (if a.isFrozen then 1 else 0)
  varUint a.votes.length
  a.votes.forM append
  varUint a.balances.size
  a.balances.rows.forM fun (assetId, amount) => do
    append assetId
    fixed 8 true amount.toInt

theorem write_eq (a : Account) :
    a.write = Wire.u8 a.version ++ (a.scriptHash ++ (Wire.bool a.isFrozen ++
      (Wire.varUint a.votes.length ++ a.votes.flatMap id ++
        (Wire.varUint a.balances.size ++ a.balances.rows.flatMap writeBalance)))) := by
  simp only [write, List.append_assoc, List.flatMap_id]
  rfl

variable {a : Account}

theorem length_writeBalance {row : Bytes × Int64} (h : row.1.length = hash256Size) :
    (writeBalance row).length = 40 := by
  rw [writeBalance, List.length_append, h, Wire.i64, Bytes.length_ofNatLE]
  rfl

theorem takes_readBalance :
    Takes (fun row n => row.1.length = hash256Size ∧ 40 ≤ n) readBalance := by
  refine (takes_take _).bind fun assetId _ h₁ => (takes_field 8 _).bind fun amount _ h₂ => .pure ?_
  have size : hash256Size = 32 := rfl
  exact ⟨h₁.1, by omega⟩

theorem parses_readBalance {row : Bytes × Int64} (h : row.1.length = hash256Size) :
    Parses readBalance (writeBalance row) row :=
  (parses_hash256 h).bind ((parses_i64 row.2).bind_nil (.pure row))

/-- Balances, of which there is one in each asset. -/
abbrev Balances := Table (Prod.fst : Bytes × Int64 → Bytes)

/-- The balances that are kept have no more bytes than those that are read, of which several may be
in the same asset. -/
theorem length_balances_le {rows : List (Bytes × Int64)}
    (h : ∀ row ∈ rows, row.1.length = hash256Size) {n : Nat}
    (taken : (Wire.varUint rows.length).length + (rows.map fun _ => 40).sum ≤ n) :
    (Wire.varUint (Table.ofList rows : Balances).size).length +
      ((Table.ofList rows : Balances).rows.flatMap writeBalance).length ≤ n := by
  have kept : (Table.ofList rows : Balances).size ≤ rows.length := Table.size_ofList_le rows
  have count := length_varUint_le kept
  have all : ∀ row ∈ (Table.ofList rows : Balances).rows, row.1.length = hash256Size :=
    Table.forall_mem_ofList h
  have each : ∀ rows : List (Bytes × Int64), (∀ row ∈ rows, row.1.length = hash256Size) →
      (rows.flatMap writeBalance).length = 40 * rows.length := by
    intro rows h
    rw [List.length_flatMap, List.map_congr_left fun row mem => length_writeBalance (h row mem),
      List.map_const', List.sum_replicate_nat, Nat.mul_comm]
  rw [List.map_const', List.sum_replicate_nat] at taken
  rw [each _ all]
  rw [Table.size] at kept count ⊢
  omega

theorem takes_read : Takes (fun a n => a.Fits ∧ a.write.length ≤ n) read := by
  refine takes_u8.bind fun version _ h₁ => (takes_take _).bind fun scriptHash _ h₂ =>
    takes_bool.bind fun isFrozen _ h₃ =>
    (takes_array (takes_curvePoint.mono fun _ _ h => ⟨h.1, Nat.le_of_eq h.2⟩) 1024).bind
      fun votes _ h₄ => (takes_array takes_readBalance 0xFFFF).bind fun balances _ h₅ => .pure ?_
  refine ⟨⟨h₂.1, h₄.1, h₄.2.1, Nat.le_trans (Table.size_ofList_le balances) h₅.1,
    Table.forall_mem_ofList h₅.2.1⟩, ?_⟩
  have kept := length_balances_le h₅.2.1 h₅.2.2
  rw [write_eq, List.flatMap_id]
  simp only [List.length_append, List.length_flatten, Wire.u8, Wire.bool, List.length_singleton]
  omega

theorem parses_read (fits : a.Fits) : Parses read a.write a := by
  have same : { a with balances := Table.ofList a.balances.rows } = a := by
    rw [Table.ofList_rows]
  have votes : Parses (array curvePoint 1024)
      (Wire.varUint a.votes.length ++ a.votes.flatMap id) a.votes :=
    parses_array_of_le (by decide) (fun vote mem => parses_curvePoint (fits.votes vote mem))
      fits.voteCount
  have balances : Parses (array readBalance 0xFFFF)
      (Wire.varUint a.balances.size ++ a.balances.rows.flatMap writeBalance) a.balances.rows :=
    parses_array_of_le (by decide) (fun row mem => parses_readBalance (fits.assets row mem))
      fits.balanceCount
  rw [write_eq]
  refine (parses_u8 a.version).bind <| (parses_hash160 fits.scriptHash).bind <|
    (parses_bool a.isFrozen).bind <| votes.bind <| balances.bind_nil ?_
  exact Eq.subst (motive := Parses _ []) same (.pure _)

theorem writes (fits : a.Fits) : Writes a.writer a.write := by
  rw [write_eq, List.append_assoc (Wire.varUint a.votes.length)]
  exact (writes_u8 a.version).bind <| (writes_append a.scriptHash).bind <|
    (writes_bool a.isFrozen).bind <|
    (writes_varUint_of_le (by decide) fits.voteCount).bind <|
    (Writes.forM fun vote _ => writes_append vote).bind <|
    (writes_varUint_of_le (by decide) fits.balanceCount).bind <|
    Writes.forM fun row _ => (writes_append row.1).bind (writes_i64 row.2)

end Account

/-! ## Assets -/

/-- The names in an asset have their sizes. -/
structure Asset.Fits (a : Asset) : Prop where
  /-- The asset. -/
  id : a.id.length = hash256Size
  /-- Its name. -/
  name : (Utf8.encode a.name).length ≤ 1024
  /-- Where fees go. -/
  feeAddress : a.feeAddress.length = hash160Size
  /-- The owner. -/
  owner : IsPoint a.owner
  /-- The administrator. -/
  admin : a.admin.length = hash160Size
  /-- The issuer. -/
  issuer : a.issuer.length = hash160Size

namespace Asset

/-- Write an asset, with every number checked. -/
def writer (a : Asset) : Writer Unit := do
  append a.id
  fixed 1 false a.assetType.toNat
  varString a.name
  fixed 8 true a.amount.toInt
  fixed 8 true a.available.toInt
  fixed 1 false a.precision.toNat
  fixed 1 false a.feeMode.toNat
  append a.feeAddress
  append a.owner
  append a.admin
  append a.issuer
  fixed 4 false a.expiration.toNat
  fixed 1 false (if a.isFrozen then 1 else 0)

variable {a : Asset}

theorem takes_read : Takes (fun a n => a.Fits ∧ a.write.length ≤ n) read := by
  refine (takes_take _).bind fun id _ h₁ => takes_u8.bind fun assetType _ h₂ =>
    (takes_varString 1024).bind fun name _ h₃ => (takes_field 8 _).bind fun amount _ h₄ =>
    (takes_field 8 _).bind fun available _ h₅ => takes_u8.bind fun precision _ h₆ =>
    takes_u8.bind fun feeMode _ h₇ => (takes_take _).bind fun feeAddress _ h₈ =>
    takes_curvePoint.bind fun owner _ h₉ => (takes_take _).bind fun admin _ h₁₀ =>
    (takes_take _).bind fun issuer _ h₁₁ => (takes_field 4 _).bind fun expiration _ h₁₂ =>
    takes_bool.bind fun isFrozen _ h₁₃ => .pure ?_
  refine ⟨⟨h₁.1, Int.ofNat_le.1 h₃.1, h₈.1, h₉.1, h₁₀.1, h₁₁.1⟩, ?_⟩
  simp only [write, List.length_append, Wire.u8, Wire.u32, Wire.i64, Wire.bool,
    List.length_singleton, Bytes.length_ofNatLE]
  omega

theorem parses_read (fits : a.Fits) : Parses read a.write a := by
  simp only [write, List.append_assoc]
  exact (parses_hash256 fits.id).bind <| (parses_u8 a.assetType).bind <|
    (parses_varString_of_le (by decide) fits.name).bind <| (parses_i64 a.amount).bind <|
    (parses_i64 a.available).bind <| (parses_u8 a.precision).bind <| (parses_u8 a.feeMode).bind <|
    (parses_hash160 fits.feeAddress).bind <| (parses_curvePoint fits.owner).bind <|
    (parses_hash160 fits.admin).bind <| (parses_hash160 fits.issuer).bind <|
    (parses_u32 a.expiration).bind <| (parses_bool a.isFrozen).bind_nil (.pure a)

theorem writes (fits : a.Fits) : Writes a.writer a.write := by
  simp only [write, List.append_assoc]
  exact (writes_append a.id).bind <| (writes_u8 a.assetType).bind <|
    (writes_varString_of_le (by decide) fits.name).bind <| (writes_i64 a.amount).bind <|
    (writes_i64 a.available).bind <| (writes_u8 a.precision).bind <| (writes_u8 a.feeMode).bind <|
    (writes_append a.feeAddress).bind <| (writes_append a.owner).bind <|
    (writes_append a.admin).bind <| (writes_append a.issuer).bind <|
    (writes_u32 a.expiration).bind <| writes_bool a.isFrozen

end Asset

/-! ## Contracts -/

/-- No field of a contract is longer than a field may be. -/
structure Contract.Fits (c : Contract) : Prop where
  /-- The script. -/
  script : c.script.length ≤ maxFieldSize
  /-- The types of the parameters. -/
  paramList : c.paramList.length ≤ maxFieldSize
  /-- The texts that describe it. -/
  texts : ∀ text ∈ [c.name, c.codeVersion, c.author, c.email, c.description],
    (Utf8.encode text).length ≤ maxFieldSize

namespace Contract

/-- Write a contract, with every number checked. -/
def writer (c : Contract) : Writer Unit := do
  varBytes c.script
  varBytes c.paramList
  fixed 1 false c.returnType.toNat
  fixed 1 false c.properties.toNat
  varString c.name
  varString c.codeVersion
  varString c.author
  varString c.email
  varString c.description

variable {c : Contract}

theorem takes_read : Takes (fun c n => c.Fits ∧ c.write.length ≤ n) read := by
  refine (takes_varBytes _).bind fun script _ h₁ => (takes_varBytes _).bind fun paramList _ h₂ =>
    takes_u8.bind fun returnType _ h₃ => takes_u8.bind fun properties _ h₄ =>
    (takes_varString _).bind fun name _ h₅ => (takes_varString _).bind fun codeVersion _ h₆ =>
    (takes_varString _).bind fun author _ h₇ => (takes_varString _).bind fun email _ h₈ =>
    (takes_varString _).bind fun description _ h₉ => .pure ?_
  refine ⟨⟨Int.ofNat_le.1 h₁.1, Int.ofNat_le.1 h₂.1, ?_⟩, ?_⟩
  · simp only [List.forall_mem_cons]
    exact ⟨Int.ofNat_le.1 h₅.1, Int.ofNat_le.1 h₆.1, Int.ofNat_le.1 h₇.1, Int.ofNat_le.1 h₈.1,
      Int.ofNat_le.1 h₉.1, fun _ mem => absurd mem List.not_mem_nil⟩
  · simp only [write, List.length_append, Wire.u8, List.length_singleton]
    omega

/-- The limit on a field can be counted. -/
theorem maxFieldSize_le : maxFieldSize ≤ maxU64 := by decide

theorem parses_read (fits : c.Fits) : Parses read c.write c := by
  obtain ⟨script, paramList, texts⟩ := fits
  simp only [List.forall_mem_cons] at texts
  obtain ⟨name, codeVersion, author, email, description, -⟩ := texts
  simp only [write, List.append_assoc]
  exact (parses_varBytes_of_le maxFieldSize_le script).bind <|
    (parses_varBytes_of_le maxFieldSize_le paramList).bind <| (parses_u8 c.returnType).bind <|
    (parses_u8 c.properties).bind <| (parses_varString_of_le maxFieldSize_le name).bind <|
    (parses_varString_of_le maxFieldSize_le codeVersion).bind <|
    (parses_varString_of_le maxFieldSize_le author).bind <|
    (parses_varString_of_le maxFieldSize_le email).bind <|
    (parses_varString_of_le maxFieldSize_le description).bind_nil (.pure c)

theorem writes (fits : c.Fits) : Writes c.writer c.write := by
  obtain ⟨script, paramList, texts⟩ := fits
  simp only [List.forall_mem_cons] at texts
  obtain ⟨name, codeVersion, author, email, description, -⟩ := texts
  simp only [write, List.append_assoc]
  exact (writes_varBytes_of_le maxFieldSize_le script).bind <|
    (writes_varBytes_of_le maxFieldSize_le paramList).bind <| (writes_u8 c.returnType).bind <|
    (writes_u8 c.properties).bind <| (writes_varString_of_le maxFieldSize_le name).bind <|
    (writes_varString_of_le maxFieldSize_le codeVersion).bind <|
    (writes_varString_of_le maxFieldSize_le author).bind <|
    (writes_varString_of_le maxFieldSize_le email).bind <|
    writes_varString_of_le maxFieldSize_le description

end Contract

end DryRun
