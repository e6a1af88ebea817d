import DryRun.Proofs.Chain.Records

/-!
# Blocks and transactions keep their bytes

A transaction is not written field by field but with the bytes it was read from, and its hash covers
the first of these.  For that to make sense the bytes must be the right ones wherever the
transaction stood, most of all in the middle of a block, and they must be all that it depends on.

* `Transaction.spans_read` — a transaction is read from the bytes that it keeps.  They begin with
  those that it is hashed as, and go on with the witnesses, of which there is at least the number.
* `Transaction.KeptFrom` — what follows for a transaction in the middle of any data.
* `Block.spans_read` — how a block lies in its bytes.  Three of the numbers in it are not kept, how
  many transactions there are and how long the scripts of the witness are, so a block that is
  written has the bytes it was read from exactly if these were spelled as short as can be
  (`Block.write_eq_iff`).
-/

set_option autoImplicit false

namespace DryRun

open Reader

/-! ## Transactions -/

namespace Transaction

/-- The fields before the witnesses. -/
def body (t : Transaction) : UInt8 × Payload × List Attribute × List Input × List Output :=
  (t.version, t.payload, t.attributes, t.inputs, t.outputs)

/-- A transaction and the bytes it keeps belong together. -/
structure Coherent (t : Transaction) : Prop where
  /-- The fields are read from the bytes that are hashed. -/
  unsigned : Parses readUnsigned t.unsigned t.body
  /-- The witnesses are read from the bytes that follow, and there are some. -/
  witnesses : ∃ tail, tail ≠ [] ∧ t.raw = t.unsigned ++ tail ∧
    Parses (array Witness.read maxTransactionList) tail t.witnesses

theorem spans_witnesses : Spans (fun witnesses bytes => bytes ≠ [] ∧
    Parses (array Witness.read maxTransactionList) bytes witnesses)
    (array Witness.read maxTransactionList) := by
  refine Spans.and ?_ (local_array Witness.local_read _)
  refine (spans_varUint _).bind fun count len hcount =>
    (local_times Witness.local_read count).mono ?_
  exact fun witnesses bytes _ empty => hcount.1.ne_nil (List.append_eq_nil_iff.1 empty).1

/-- What is read of a transaction inside its span. -/
def readParts : Reader ((UInt8 × Payload × List Attribute × List Input × List Output) × Bytes ×
    List Witness) := do
  let (fields, unsigned) ← withSpan readUnsigned
  let witnesses ← array Witness.read maxTransactionList
  return (fields, unsigned, witnesses)

/-- A transaction is its parts and its span. -/
def ofParts : ((UInt8 × Payload × List Attribute × List Input × List Output) × Bytes ×
    List Witness) × Bytes → Transaction
  | (((version, payload, attributes, inputs, outputs), unsigned, witnesses), raw) =>
    { version, payload, attributes, inputs, outputs, witnesses, unsigned, raw }

theorem read_eq : read = ofParts <$> withSpan readParts := rfl

theorem local_readParts : Local readParts :=
  (local_withSpan local_readUnsigned).bind fun _ =>
    (local_array Witness.local_read _).bind fun _ => .pure _

theorem local_read : Local read := (local_withSpan local_readParts).map ofParts

/-- **A transaction is read from the bytes that it keeps.** -/
theorem spans_read : Spans (fun t bytes => bytes = t.raw ∧ t.Coherent) read := by
  have parts : Spans (fun (found : _ × Bytes × List Witness) bytes =>
      Parses readUnsigned found.2.1 found.1 ∧ ∃ tail, tail ≠ [] ∧ bytes = found.2.1 ++ tail ∧
        Parses (array Witness.read maxTransactionList) tail found.2.2) readParts := by
    refine (spans_withSpan local_readUnsigned local_readUnsigned).bind ?_
    rintro ⟨fields, unsigned⟩ bytes ⟨rfl, parses⟩
    refine spans_witnesses.bind fun witnesses tail hwitnesses => .pure ⟨parses, tail, ?_⟩
    exact ⟨hwitnesses.1, by rw [List.append_nil], hwitnesses.2⟩
  refine ((spans_withSpan parts local_readParts).mono ?_).map
  rintro ⟨⟨⟨version, payload, attributes, inputs, outputs⟩, unsigned, witnesses⟩, raw⟩ bytes
    ⟨rfl, unsignedParses, tail⟩
  exact ⟨rfl, unsignedParses, tail⟩

variable {t : Transaction}

theorem Coherent.parses (h : t.Coherent) : Parses read t.raw t := by
  obtain ⟨tail, -, raw, witnesses⟩ := h.witnesses
  have parts : Parses readParts t.raw (t.body, t.unsigned, t.witnesses) := by
    rw [raw]
    exact (parses_withSpan h.unsigned).bind (witnesses.bind_nil (.pure _))
  exact (parses_withSpan parts).map ofParts

/-- **What a transaction keeps** of the data from which it was read, which begins at `start` and is
taken up to `stop`. -/
structure KeptFrom (start stop : Cursor) (t : Transaction) : Prop where
  /-- It keeps the bytes that it took, and no others. -/
  raw : start.rest = t.raw ++ stop.rest
  /-- The place in the data moved by as many. -/
  offset : stop.offset = start.offset + t.raw.length
  /-- The bytes that are hashed are the first of them, but not all. -/
  unsigned : t.unsigned <+: t.raw ∧ t.unsigned ≠ t.raw
  /-- The bytes alone are read as the same transaction. -/
  again : readAll read t.raw = .ok t
  /-- Any transaction whose bytes begin with those that are hashed differs from this one in its
  witnesses only, and has the same hash. -/
  hash : ∀ start' t' stop', t.unsigned <+: start'.rest → read start' = .ok t' stop' →
    t'.hash = t.hash ∧ t' = { t with witnesses := t'.witnesses, raw := t'.raw }

/-- The fields of a transaction and the bytes that are hashed depend on each other. -/
theorem Coherent.eq_of_prefix {t' : Transaction} (h : t.Coherent) (h' : t'.Coherent)
    {rest : Bytes} (begins : t.unsigned <+: t'.unsigned ++ rest) :
    t'.unsigned = t.unsigned ∧ t'.body = t.body := by
  obtain ⟨more, same⟩ := begins
  have again := h.unsigned 0 more
  rw [same, h'.unsigned 0 rest] at again
  obtain ⟨body, place⟩ := EStateM.Result.ok.inj again
  have length : t'.unsigned.length = t.unsigned.length := by
    have := congrArg Cursor.offset place
    dsimp only at this
    omega
  exact ⟨(List.append_inj_left same length.symm).symm, body⟩

theorem keptFrom {start stop : Cursor} (he : read start = .ok t stop) : t.KeptFrom start stop := by
  obtain ⟨bytes, taken, rfl, coherent⟩ := spans_read _ _ _ he
  obtain ⟨tail, tailed, raw, -⟩ := coherent.witnesses
  refine ⟨taken, ?_, ⟨⟨tail, raw.symm⟩, fun same => ?_⟩, ?_, fun start' t' stop' begins he' => ?_⟩
  · rw [(coherent.parses.over taken he).2]
  · rw [raw] at same
    exact tailed (List.self_eq_append_right.1 same)
  · exact local_read.readAll_iff.2 coherent.parses
  · obtain ⟨bytes', taken', rfl, coherent'⟩ := spans_read _ _ _ he'
    obtain ⟨tail', -, raw', -⟩ := coherent'.witnesses
    rw [taken', raw', List.append_assoc] at begins
    obtain ⟨unsigned, body⟩ := coherent.eq_of_prefix coherent' begins
    refine ⟨by rw [hash, hash, unsigned], ?_⟩
    simp only [Transaction.body, Prod.mk.injEq] at body
    obtain ⟨version, payload, attributes, inputs, outputs⟩ := body
    cases t'
    cases t
    simp_all

end Transaction

/-! ## Blocks -/

/-- The parts of a block are such as are read. -/
structure Block.Fits (b : Block) : Prop where
  /-- The header. -/
  header : b.header.Fits
  /-- The number of transactions. -/
  count : b.transactions.length ≤ maxTransactions
  /-- The transactions. -/
  transactions : ∀ t ∈ b.transactions, t.Coherent

/-- How a block lies in its bytes: the fields that are hashed, the mark of the witness, the two
scripts of the witness behind their lengths, and the transactions behind their number. -/
structure Block.Layout (b : Block) (data l₁ l₂ count : Bytes) : Prop where
  /-- The length of the first script. -/
  invocation : Wire.Spelling b.header.witness.invocation.length l₁
  /-- The length of the second script. -/
  verification : Wire.Spelling b.header.witness.verification.length l₂
  /-- The number of transactions. -/
  transactions : Wire.Spelling b.transactions.length count
  /-- The bytes. -/
  data : data = b.header.writeUnsigned ++ (Wire.u8 1 ++ (l₁ ++ b.header.witness.invocation ++
    (l₂ ++ b.header.witness.verification))) ++ (count ++ b.transactions.flatMap (·.raw))

namespace Block

/-- Write a block, with every number checked. -/
def writer (b : Block) : Writer Unit := do
  b.header.baseWriter
  Writer.varUint b.transactions.length
  b.transactions.forM fun t => Writer.append t.raw

variable {b : Block} {data l₁ l₂ count : Bytes}

theorem local_read : Local read :=
  Header.local_readBase.bind fun _ => (local_array Transaction.local_read _).bind fun _ => .pure _

/-- **A block is read from its layout.** -/
theorem spans_read :
    Spans (fun b bytes => b.Fits ∧ ∃ l₁ l₂ count, b.Layout bytes l₁ l₂ count) read := by
  refine (Header.spans_base.and (Header.spans_base.of_takes Header.takes_readBase)).bind
    fun header base hheader => (spans_array Transaction.spans_read _).bind
    fun transactions rest htransactions => .pure ?_
  obtain ⟨⟨l₁, l₂, invocation, verification, hbase⟩, fits, -⟩ := hheader
  obtain ⟨⟨count, counted, hrest⟩, few, coherent⟩ := htransactions
  refine ⟨⟨fits, few, coherent⟩, l₁, l₂, count, invocation, verification, counted, ?_⟩
  rw [hbase, hrest, List.append_nil]

theorem Fits.parses (h : b.Fits) : Parses read b.write b := by
  have transactions := parses_array_of_le (by decide)
    (fun t mem => (h.transactions t mem).parses) h.count
  rw [write, List.append_assoc]
  exact (Header.parses_readBase h.header).bind (transactions.bind_nil (.pure b))

theorem Fits.writes (h : b.Fits) : Writes b.writer b.write := by
  rw [write, List.append_assoc]
  exact (Header.writes_base h.header).bind <|
    (Writer.writes_varUint_of_le (by decide) h.count).bind <|
    Writes.forM fun t _ => Writer.writes_append t.raw

/-- What is written has the same layout as what was read, with the numbers in their shortest
spelling. -/
theorem write_eq (b : Block) : b.write = b.header.writeUnsigned ++ (Wire.u8 1 ++
    (Wire.varUint b.header.witness.invocation.length ++ b.header.witness.invocation ++
      (Wire.varUint b.header.witness.verification.length ++ b.header.witness.verification))) ++
    (Wire.varUint b.transactions.length ++ b.transactions.flatMap (·.raw)) := by
  simp only [write, Header.writeBase, Witness.write, Wire.varBytes, List.append_assoc]

/-- **A block is written as the bytes it was read from** exactly if the lengths in its witness and
the number of its transactions are spelled as short as can be. -/
theorem write_eq_iff (h : b.Fits) (layout : b.Layout data l₁ l₂ count) :
    b.write = data ↔ Wire.Shortest b.header.witness.invocation.length l₁ ∧
      Wire.Shortest b.header.witness.verification.length l₂ ∧
      Wire.Shortest b.transactions.length count := by
  have counted {n limit : Nat} (hn : n ≤ limit) (small : limit < Nat.pow 256 8) :
      n < Nat.pow 256 8 := Nat.lt_of_le_of_lt hn small
  rw [layout.invocation.shortest_iff (counted h.header.witness.invocation (by decide)),
    layout.verification.shortest_iff (counted h.header.witness.verification (by decide)),
    layout.transactions.shortest_iff (counted h.count (by decide)), write_eq, layout.data]
  constructor
  · intro same
    -- no part is longer in what is written, so none can be shorter
    have lengths := congrArg List.length same
    simp only [List.length_append] at lengths
    have first := layout.invocation.length_le
    have second := layout.verification.length_le
    have third := layout.transactions.length_le
    exact ⟨layout.invocation.eq_varUint (by omega), layout.verification.eq_varUint (by omega),
      layout.transactions.eq_varUint (by omega)⟩
  · rintro ⟨rfl, rfl, rfl⟩
    rfl

/-- **What a block keeps** of the data that was read as it. -/
structure KeptFrom (data : Bytes) (b : Block) : Prop where
  /-- It is hashed as the first bytes of the data. -/
  hash : b.hash = hash256 (data.take 104)
  /-- The data has the layout of the block, in which the bytes that the transactions keep are all
  those behind their number.  It is written as it was exactly if the numbers in it were spelled as
  short as can be. -/
  layout : ∃ l₁ l₂ count, b.Layout data l₁ l₂ count ∧
    (b.write = data ↔ Wire.Shortest b.header.witness.invocation.length l₁ ∧
      Wire.Shortest b.header.witness.verification.length l₂ ∧
      Wire.Shortest b.transactions.length count)
  /-- No number is refused when it is written. -/
  writes : b.writer [] = .ok () b.write
  /-- What is written is read as the same block. -/
  again : readAll read b.write = .ok b
  /-- Each of its transactions is read as the same one from the bytes that it keeps. -/
  transactions : ∀ t ∈ b.transactions, readAll Transaction.read t.raw = .ok t

theorem keptFrom (he : readAll read data = .ok b) : b.KeptFrom data := by
  obtain ⟨size, he⟩ := readAll_eq_ok_iff.1 he
  obtain ⟨bytes, taken, fits, l₁, l₂, count, layout⟩ := spans_read _ _ _ he
  rw [List.append_nil] at taken
  dsimp only at taken
  subst taken
  refine ⟨?_, ⟨l₁, l₂, count, layout, write_eq_iff fits layout⟩, fits.writes [],
    local_read.readAll_iff.2 fits.parses, fun t mem =>
      Transaction.local_read.readAll_iff.2 (fits.transactions t mem).parses⟩
  have size : b.header.writeUnsigned.length = 104 := Header.length_writeUnsigned fits.header
  have first : data.take 104 = b.header.writeUnsigned := by
    have begun := layout.data
    rw [List.append_assoc] at begun
    rw [begun, ← size, List.take_left]
  rw [hash, Header.hash, first]

end Block

/-- **Blocks and transactions keep their bytes.**  Wherever in a buffer a transaction is read it
keeps the span that it took, from which alone it can be read again, and two transactions whose
bytes agree up to the witnesses have the same hash.  A block is hashed as the first bytes it was
read from, its transactions keep all bytes behind their number, and what is written of it is read
as the same block. -/
theorem bytes_are_kept :
    (∀ start t stop, Transaction.read start = .ok t stop → t.KeptFrom start stop) ∧
    ∀ data b, readAll Block.read data = .ok b → b.KeptFrom data :=
  ⟨fun _ _ _ => Transaction.keptFrom, fun _ _ => Block.keptFrom⟩

end DryRun
