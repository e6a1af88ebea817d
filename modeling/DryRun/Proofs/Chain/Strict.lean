import DryRun.Proofs.Chain.Block
import DryRun.Proofs.Item.Local

/-!
# Strict decoding

A whole byte string is decoded by reading a value from its front and then refusing to stop before
the data ends.  Because all readers are local this makes every decoder prefix-free: of the byte
strings that begin with one another it accepts one at most.

* `Reader.toEnd` — reading a whole byte string, of which `Reader.readAll` and `Tree.deserialize`
  are the two instances (`Reader.readAll_eq`, `Tree.deserialize_eq`);
* `Strict` — what follows for a reader that is local, and for the decoder made of it;
* `decoding_is_strict` — all decoders are strict.
-/

set_option autoImplicit false

namespace DryRun

variable {α ε : Type}

/-! ## Reading to the end -/

/-- Read a whole byte string as one value, and refuse it with an error of its own if bytes are
left. -/
def Reader.toEnd (left : Nat → ε) (read : EStateM ε Cursor α) (data : Bytes) : Except ε α :=
  match read ⟨0, data⟩ with
  | .ok a ⟨_, []⟩ => .ok a
  | .ok _ ⟨_, b :: rest⟩ => .error (left (b :: rest).length)
  | .error cause _ => .error cause

theorem Reader.readAll_eq (read : Reader α) : readAll read = toEnd .trailingBytes read := by
  funext data
  have whole : (do let value ← read; expectEnd; pure value : Reader α).run ⟨0, data⟩ =
      EStateM.bind read (fun value => do expectEnd; pure value) ⟨0, data⟩ := rfl
  rw [readAll, toEnd, whole, EStateM.bind]
  cases read ⟨0, data⟩ with
  | error cause stop => rfl
  | ok value stop =>
    obtain ⟨size, rest⟩ := stop
    cases rest with
    | nil => rfl
    | cons b rest => rfl

theorem Tree.deserialize_eq :
    deserialize = Reader.toEnd (fun n => .undecodable (.trailingBytes n)) readItem := by
  funext data
  have item : readItem ⟨0, data⟩ = read (data.length + 1) ⟨0, data⟩ := rfl
  rw [Reader.toEnd, item, deserialize]
  simp only [EStateM.run, Bind.bind, EStateM.bind]
  cases read (data.length + 1) ⟨0, data⟩ with
  | error cause stop => rfl
  | ok value stop =>
    obtain ⟨size, rest⟩ := stop
    cases rest with
    | nil => rfl
    | cons b rest => rfl

/-! ## Strictness -/

/-- The place between the bytes before it and the bytes after it. -/
def Cursor.between (before after : Bytes) : Cursor := ⟨before.length, after⟩

/-- **What a strict decoder promises**, in terms of the reader it is made of.  The error for bytes
that are left says how many there are. -/
structure Strict (left : Nat → ε) (read : EStateM ε Cursor α) (decode : Bytes → Except ε α) :
    Prop where
  /-- A reading takes bytes from the front of what is after it.  It takes the same bytes and gives
  the same value wherever these bytes stand. -/
  again : ∀ before data a stop, read (.between before data) = .ok a stop →
    ∃ bytes after, data = bytes ++ after ∧ stop = .between (before ++ bytes) after ∧
      ∀ before' after', read (.between before' (bytes ++ after')) =
        .ok a (.between (before' ++ bytes) after')
  /-- What is decoded is what is read from the beginning up to the end. -/
  whole : ∀ data a, decode data = .ok a ↔ read (.between [] data) = .ok a (.between data [])
  /-- Nothing is decoded from a part of the bytes that ends before they do. -/
  shorter : ∀ data a, decode data = .ok a → ∀ front, front <+: data → front ≠ data →
    ∃ cause, decode front = .error cause
  /-- Nothing is decoded from more bytes, and the error says how many they are. -/
  longer : ∀ data a, decode data = .ok a → ∀ more, more ≠ [] →
    decode (data ++ more) = .error (left more.length)

section Locality

variable {left : Nat → ε} {read : EStateM ε Cursor α} {data front more : Bytes} {a : α}

theorem Parses.between (h : Parses read data a) (before after : Bytes) :
    read (.between before (data ++ after)) = .ok a (.between (before ++ data) after) := by
  rw [Cursor.between, h, Cursor.between, List.length_append]

/-- To the end of a byte string a value is read that is read from it in front of anything. -/
theorem Local.toEnd_iff (own : Local read) :
    Reader.toEnd left read data = .ok a ↔ Parses read data a := by
  constructor
  · intro decoded
    rw [Reader.toEnd] at decoded
    split at decoded
    · next he =>
      cases decoded
      obtain ⟨bytes, rest, -, parses⟩ := own.taken he
      rw [List.append_nil] at rest
      dsimp only at rest
      rwa [rest]
    · cases decoded
    · cases decoded
  · intro parses
    have whole := parses 0 []
    rw [List.append_nil] at whole
    rw [Reader.toEnd, whole]

/-- Two values are not read from bytes of which the ones are only the beginning of the others. -/
theorem Parses.eq_of_isPrefix {b : α} (h : Parses read data a) (h' : Parses read front b)
    (begins : front <+: data) : front = data := by
  obtain ⟨back, rfl⟩ := begins
  have all := h 0 []
  rw [List.append_nil, h' 0 back] at all
  have none : back = [] := congrArg Cursor.rest (EStateM.Result.ok.inj all).2
  rw [none, List.append_nil]

/-- **Every local reader makes a strict decoder.** -/
theorem Local.strict (own : Local read) (left : Nat → ε) :
    Strict left read (Reader.toEnd left read) where
  again before data a stop he := by
    obtain ⟨bytes, rest, offset, parses⟩ := own.taken he
    refine ⟨bytes, stop.rest, rest, ?_, parses.between⟩
    obtain ⟨place, after⟩ := stop
    dsimp only at offset
    rw [offset, Cursor.between, Cursor.between, List.length_append]
  whole data a := by
    rw [own.toEnd_iff]
    constructor
    · intro parses
      have alone := parses.between [] []
      rwa [List.append_nil] at alone
    · intro he
      obtain ⟨bytes, rest, -, parses⟩ := own.taken he
      have all : data = bytes ++ [] := rest
      rwa [all, List.append_nil]
  shorter data a decoded front begins other := by
    cases accepted : Reader.toEnd left read front with
    | error cause => exact ⟨cause, rfl⟩
    | ok b =>
      have parses := own.toEnd_iff.1 decoded
      exact absurd (parses.eq_of_isPrefix (own.toEnd_iff.1 accepted) begins) other
  longer data a decoded more some := by
    have parses := own.toEnd_iff.1 decoded
    obtain ⟨b, rest, rfl⟩ := List.exists_cons_of_ne_nil some
    rw [Reader.toEnd, parses]

end Locality

/-! ## The decoders -/

open Reader

theorem local_record {read : Reader α} (h : Local read) : Local (record read) :=
  local_u8.bind fun _ => h

theorem Local.strict_readAll {read : Reader α} (own : Local read) :
    Strict .trailingBytes read (readAll read) := by
  rw [readAll_eq]
  exact own.strict _

/-- **Decoding is strict** for blocks, headers and transactions, for contracts, accounts and assets,
as such and as the database keeps them, and for items. -/
theorem decoding_is_strict :
    Strict .trailingBytes Block.read (readAll Block.read) ∧
    Strict .trailingBytes Header.read (readAll Header.read) ∧
    Strict .trailingBytes Transaction.read (readAll Transaction.read) ∧
    (Strict .trailingBytes Contract.read (readAll Contract.read) ∧
      Strict .trailingBytes (record Contract.read) (readAll (record Contract.read))) ∧
    (Strict .trailingBytes Account.read (readAll Account.read) ∧
      Strict .trailingBytes (record Account.read) (readAll (record Account.read))) ∧
    (Strict .trailingBytes Asset.read (readAll Asset.read) ∧
      Strict .trailingBytes (record Asset.read) (readAll (record Asset.read))) ∧
    Strict (fun n => .undecodable (.trailingBytes n)) Tree.readItem Tree.deserialize := by
  have both {β : Type} {read : Reader β} (own : Local read) :
      Strict .trailingBytes read (readAll read) ∧
      Strict .trailingBytes (record read) (readAll (record read)) :=
    ⟨own.strict_readAll, (local_record own).strict_readAll⟩
  refine ⟨Block.local_read.strict_readAll, Header.local_read.strict_readAll,
    Transaction.local_read.strict_readAll, both Contract.local_read, both Account.local_read,
    both Asset.local_read, ?_⟩
  rw [Tree.deserialize_eq]
  exact Tree.local_readItem.strict _

end DryRun
