import DryRun.Proofs.Node.Query
import DryRun.Proofs.Wire.Reader
import DryRun.Run

/-!
# What becomes of an answer

A node may reply anything at all.  What a question comes to is said here without the readers, by
what the reply is and by what its result means.

* `Query.Means` — a result means a value of the kind that the question is about.
* `Reply.Carries`, `Reply.ReportsError`, `Reply.Illegible` — a body has a result, has an error in
  it, or is neither of the two.  Each body is exactly one of these.
* `Query.Classified` — for every outcome of a question, the replies that it comes from.

There is one outcome that is neither a value nor an error about the node.  A number whose exponent
is too great for the floating-point format is read as infinity, and a question that is answered with
a number breaks off there (`NodeError.infinite`) where it refuses every other number that is not a
natural one.  `answers_classified` says that this is the only exception, and that preparing a run
on valid settings fails only with what was said about the height.
-/

set_option autoImplicit false

namespace DryRun

variable {α : Type}

/-! ## What a result means -/

/-- The number is this integer: its significand is scaled by a power of two. -/
def Binary64.Equals (v : Int) : Binary64 → Prop
  | .finite negative significand exponent =>
    (if negative then -(significand : Int) else significand) * (Nat.pow 2 exponent.toNat : Nat) =
      v * (Nat.pow 2 (-exponent).toNat : Nat)
  | .infinite _ => False

namespace Json

/-- The natural number that a result is, whether or not it is written with a fraction. -/
def IsNatural (n : Nat) : Json → Prop
  | .int v => v = n
  | .float x => x.Equals n
  | _ => False

/-- The bytes that a text spells in hexadecimal, with or without the mark. -/
def Spells (bytes : Bytes) : Json → Prop
  | .text t => Hex.decode? (Hex.dropMark t) = some bytes
  | _ => False

/-- The value that a result spells: it is read from all of the bytes. -/
def SpellsValue (read : Reader α) (a : α) (result : Json) : Prop :=
  ∃ bytes size, result.Spells bytes ∧ read ⟨0, bytes⟩ = .ok a ⟨size, []⟩

/-- The hash that a result displays, the last byte first. -/
def Displays (hash : Bytes) (result : Json) : Prop :=
  result.Spells hash.reverse ∧ hash.length = Reader.hash256Size

/-- The result is null if there is no value. -/
def Optionally (Means : α → Json → Prop) : Option α → Json → Prop
  | none, result => result = .null
  | some a, result => Means a result

end Json

namespace Query

/-- The values that a question is about. -/
def Value : Query → Type
  | .currentHeight => Nat
  | .block .. => Option Block
  | .header .. => Option Header
  | .headerAt _ => Option Header
  | .hashAt _ => Option Bytes
  | .contract .. => Option Contract
  | .storage .. => Bytes
  | .transaction .. => Option Transaction
  | .transactionHeight .. => Option Nat
  | .account .. => Option Account
  | .asset .. => Option Asset

open Json (Optionally SpellsValue)

/-- The value that a result means for a question. -/
def Means : (q : Query) → q.Value → Json → Prop
  | .currentHeight => Json.IsNatural
  | .block .. => Optionally (SpellsValue Block.read)
  | .header .. => Optionally (SpellsValue Header.read)
  | .headerAt _ => Optionally (SpellsValue Header.read)
  | .hashAt _ => Optionally Json.Displays
  | .contract .. => Optionally (SpellsValue (Reader.record Contract.read))
  | .storage .. => fun bytes result => result.Spells bytes ∨ result = .null ∧ bytes = []
  | .transaction .. => Optionally (SpellsValue Transaction.read)
  | .transactionHeight .. => Optionally Json.IsNatural
  | .account .. => Optionally (SpellsValue (Reader.record Account.read))
  | .asset .. => Optionally (SpellsValue (Reader.record Asset.read))

/-- The answer to the question is a number. -/
def IsNumeric : Query → Prop
  | .currentHeight => True
  | .transactionHeight .. => True
  | _ => False

end Query

/-! ## Replies -/

namespace Reply

/-- The reply is an object with these fields. -/
def IsObject (fields : List (RawText × Json)) (reply : Reply) : Prop :=
  ∃ body, reply = .body body ∧ Json.ofBytes? body = some (.object fields)

/-- The reply is an object with an error in it. -/
def ReportsError (reply : Reply) : Prop :=
  ∃ fields error, reply.IsObject fields ∧ Json.lookup "error" fields = some error ∧ error ≠ .null

/-- The reply is an object with a result in it, and no error. -/
def Carries (result : Json) (reply : Reply) : Prop :=
  ∃ fields, reply.IsObject fields ∧
    (∀ error, Json.lookup "error" fields = some error → error = .null) ∧
    Json.lookup "result" fields = some result

/-- The reply is not a document, or not an object, or has neither an error nor a result. -/
inductive Illegible : Reply → Prop
  | notJson {body : Bytes} (h : Json.ofBytes? body = none) : Illegible (.body body)
  | notObject {body : Bytes} {document : Json} (h : Json.ofBytes? body = some document)
      (other : ∀ fields, document ≠ .object fields) : Illegible (.body body)
  | noResult {reply : Reply} {fields : List (RawText × Json)} (h : reply.IsObject fields)
      (error : ∀ error, Json.lookup "error" fields = some error → error = .null)
      (result : Json.lookup "result" fields = none) : Illegible reply

variable {reply : Reply} {fields fields' : List (RawText × Json)} {result result' : Json}

theorem IsObject.unique (h : reply.IsObject fields) (h' : reply.IsObject fields') :
    fields = fields' := by
  obtain ⟨body, rfl, object⟩ := h
  obtain ⟨_, same, object'⟩ := h'
  cases same
  rw [object] at object'
  cases object'
  rfl

theorem Carries.unique (h : reply.Carries result) (h' : reply.Carries result') :
    result = result' := by
  obtain ⟨fields, object, -, found⟩ := h
  obtain ⟨_, object', -, found'⟩ := h'
  cases object.unique object'
  rw [found] at found'
  cases found'
  rfl

theorem Carries.not_reportsError (h : reply.Carries result) : ¬reply.ReportsError := by
  rintro ⟨_, error, object', found, given⟩
  obtain ⟨fields, object, none, -⟩ := h
  cases object.unique object'
  exact given (none error found)

theorem IsObject.of_illegible (h : reply.IsObject fields) (illegible : reply.Illegible) :
    (∀ error, Json.lookup "error" fields = some error → error = .null) ∧
      Json.lookup "result" fields = none := by
  cases illegible with
  | notJson none =>
    obtain ⟨_, same, object⟩ := h
    cases same
    rw [none] at object
    cases object
  | notObject some other =>
    obtain ⟨_, same, object⟩ := h
    cases same
    rw [some] at object
    cases object
    exact absurd rfl (other fields)
  | noResult object error result =>
    cases h.unique object
    exact ⟨error, result⟩

theorem Illegible.not_carries (h : reply.Illegible) : ¬reply.Carries result := by
  rintro ⟨fields, object, -, found⟩
  rw [(object.of_illegible h).2] at found
  cases found

theorem Illegible.not_reportsError (h : reply.Illegible) : ¬reply.ReportsError := by
  rintro ⟨fields, error, object, found, given⟩
  exact given ((object.of_illegible h).1 error found)

end Reply

/-- **Each body is one of the three kinds**, and this decides what is taken out of it. -/
theorem Node.result_spec (method : String) (body : Bytes) :
    (∃ result, Node.result method body = .ok result ∧ (Reply.body body).Carries result) ∨
    (∃ code text, Node.result method body = .error (.remote code text) ∧
      (Reply.body body).ReportsError) ∨
    ∃ defect, Node.result method body = .error (.malformed method defect) ∧
      (Reply.body body).Illegible := by
  rw [Node.result.eq_def]
  split
  · next h => exact .inr (.inr ⟨_, rfl, .notJson h⟩)
  · next fields h =>
    have object : (Reply.body body).IsObject fields := ⟨body, rfl, h⟩
    have reports {error : Json} (found : (Json.lookup "error" fields).getD .null = error)
        (given : error ≠ .null) : (Reply.body body).ReportsError := by
      cases given' : Json.lookup "error" fields with
      | none => rw [given'] at found; exact absurd found.symm given
      | some e => rw [given'] at found; exact ⟨fields, error, object, found ▸ given', given⟩
    split
    · next none =>
      have harmless (error : Json) (found : Json.lookup "error" fields = some error) :
          error = .null := by rwa [found] at none
      split
      · next result found => exact .inl ⟨result, rfl, fields, object, harmless, found⟩
      · next missing => exact .inr (.inr ⟨_, rfl, .noResult object harmless missing⟩)
    · next error found => exact .inr (.inl ⟨_, _, rfl, reports found (by intro h; cases h)⟩)
    · next given _ => exact .inr (.inl ⟨_, _, rfl, reports rfl given⟩)
  · next document other h =>
    exact .inr (.inr ⟨_, rfl, .notObject h fun fields same => other fields same⟩)

/-! ## Readers -/

theorem Binary64.toInt?_eq_some {x : Binary64} {v : Int} : x.toInt? = some v ↔ x.Equals v := by
  cases x with
  | infinite negative =>
    refine iff_of_false (fun h => ?_) id
    cases h
  | finite negative significand exponent =>
    have positive : 0 < Nat.pow 2 (-exponent).toNat := Nat.pow_pos (by decide)
    rw [toInt?, Equals]
    generalize Nat.pow 2 (-exponent).toNat = divisor at positive ⊢
    generalize scaled : significand * Nat.pow 2 exponent.toNat = n
    have divides (w : Int) :
        (n : Int) = w * divisor ↔ n % divisor = 0 ∧ (n / divisor : Nat) = w := by
      constructor
      · intro h
        refine ⟨Nat.mod_eq_zero_of_dvd (Int.natCast_dvd_natCast.1 ⟨w, by rw [h, Int.mul_comm]⟩), ?_⟩
        rw [Int.natCast_ediv, h, Int.mul_ediv_cancel w (by omega)]
      · rintro ⟨whole, rfl⟩
        rw [← Int.natCast_mul, Nat.div_mul_cancel (Nat.dvd_of_mod_eq_zero whole)]
    cases negative with
    | false =>
      have product : (significand : Int) * (Nat.pow 2 exponent.toNat : Nat) = n := by
        rw [← scaled, Int.natCast_mul]
      simp only [Bool.false_eq_true, if_false, product, divides]
      by_cases whole : n % divisor = 0
      · rw [if_pos whole, Option.some.injEq, and_iff_right whole]
      · simp [whole]
    | true =>
      have product : -(significand : Int) * (Nat.pow 2 exponent.toNat : Nat) = -n := by
        rw [← scaled, Int.natCast_mul, Int.neg_mul]
      have negated : (-(n : Int) = v * divisor) ↔ (n : Int) = -v * divisor := by
        rw [Int.neg_mul]
        omega
      simp only [if_true, product, negated, divides]
      by_cases whole : n % divisor = 0
      · rw [if_pos whole, Option.some.injEq, and_iff_right whole]
        exact Int.neg_eq_comm.trans eq_comm
      · simp [whole]

/-- A reading of results says what they mean, and refuses all others. -/
structure Reads (numeric : Prop) (Means : α → Json → Prop)
    (read : String → Json → Except NodeError α) : Prop where
  /-- What a result means is what is read. -/
  ok : ∀ method result a, read method result = .ok a ↔ Means a result
  /-- Where a number is needed, infinity is not refused. -/
  infinite : ∀ method, numeric → read method (.float (.infinite false)) = .error .infinite
  /-- Everything else without a meaning is. -/
  error : ∀ method result e, read method result = .error e →
    (∃ defect, e = .malformed method defect) ∨
      e = .infinite ∧ numeric ∧ result = .float (.infinite false)

namespace Node

theorem readHex_eq_ok {result : Json} {bytes : Bytes} :
    readHex result = .ok bytes ↔ result.Spells bytes := by
  cases result with
  | text t =>
    rw [readHex, Hex.read, Json.Spells]
    cases Hex.decode? (Hex.dropMark t) with
    | none => simp
    | some found => rw [Except.ok.injEq, Option.some.injEq]
  | _ =>
    refine iff_of_false (fun h => ?_) id
    cases h

/-- A number is refused if it is below zero. -/
theorem unsigned_eq_ok {v : Int} {refused : NodeError} {n : Nat} :
    (if v < 0 then .error refused else .ok v.toNat : Except NodeError Nat) = .ok n ↔ v = n := by
  split
  · exact iff_of_false (fun h => nomatch h) (by omega)
  · rw [Except.ok.injEq]
    omega

theorem unsigned_eq_error {v : Int} {refused e : NodeError}
    (h : (if v < 0 then .error refused else .ok v.toNat : Except NodeError Nat) = .error e) :
    e = refused := by
  split at h
  · cases h
    rfl
  · cases h

/-- What a finite number is read as. -/
theorem readUnsigned_float (method : String) {x : Binary64} (h : x ≠ .infinite false) :
    readUnsigned method (.float x) =
      match x.toInt? with
      | some v =>
        if v < 0 then .error (.malformed method (.notUnsigned (.float x))) else .ok v.toNat
      | none => .error (.malformed method (.notUnsigned (.float x))) := by
  rw [readUnsigned.eq_def]
  split
  · next same => cases same
  · next same => cases same; exact absurd rfl h
  · next same => cases same; rfl
  · next other => exact absurd rfl (other x)

theorem reads_unsigned : Reads True Json.IsNatural readUnsigned where
  ok method result n := by
    cases result with
    | int v => exact unsigned_eq_ok
    | float x =>
      by_cases infinite : x = .infinite false
      · subst infinite
        exact iff_of_false (fun h => nomatch h) id
      · rw [readUnsigned_float method infinite, Json.IsNatural, ← Binary64.toInt?_eq_some]
        cases x.toInt? with
        | none => exact iff_of_false (fun h => nomatch h) fun h => nomatch h
        | some v => exact unsigned_eq_ok.trans (Option.some_inj).symm
    | _ => exact iff_of_false (fun h => nomatch h) id
  infinite method _ := rfl
  error method result e h := by
    cases result with
    | int v => exact .inl ⟨_, unsigned_eq_error h⟩
    | float x =>
      by_cases infinite : x = .infinite false
      · subst infinite
        cases h
        exact .inr ⟨rfl, trivial, rfl⟩
      · rw [readUnsigned_float method infinite] at h
        cases whole : x.toInt? with
        | none => rw [whole] at h; cases h; exact .inl ⟨_, rfl⟩
        | some v => rw [whole] at h; exact .inl ⟨_, unsigned_eq_error h⟩
    | _ => cases h; exact .inl ⟨_, rfl⟩

section

variable {numeric : Prop} {Means : α → Json → Prop}
  {inner : String → Json → Except NodeError α}
  {read : String → Json → Except NodeError (Option α)}

/-- Where null stands for no value, the other results keep their meaning. -/
theorem reads_optional (h : Reads numeric Means inner) (nothing : ∀ a, ¬Means a .null)
    (null : ∀ method, read method .null = .ok none)
    (given : ∀ method result, result ≠ .null → read method result = some <$> inner method result) :
    Reads numeric (Json.Optionally Means) read where
  ok method result found := by
    by_cases isNull : result = .null
    · subst isNull
      rw [null, Except.ok.injEq]
      cases found with
      | none => exact iff_of_true rfl rfl
      | some a => exact iff_of_false (fun h => nomatch h) (nothing a)
    · rw [given method result isNull]
      cases found with
      | none =>
        refine iff_of_false (fun h => ?_) isNull
        cases answer : inner method result <;> rw [answer] at h <;> cases h
      | some a =>
        refine Iff.trans ?_ (h.ok method result a)
        cases inner method result with
        | ok b =>
          show Except.ok (some b) = _ ↔ _
          rw [Except.ok.injEq, Option.some.injEq, Except.ok.injEq]
        | error e => exact iff_of_false (fun h => nomatch h) fun h => nomatch h
  infinite method number := by
    rw [given method (.float (.infinite false)) (fun h => nomatch h), h.infinite method number]
    rfl
  error method result e failed := by
    by_cases isNull : result = .null
    · subst isNull
      rw [null] at failed
      cases failed
    · rw [given method result isNull] at failed
      refine h.error method result e ?_
      cases answer : inner method result <;> rw [answer] at failed <;> cases failed
      rfl

end

/-- What is made of ill-formed data. -/
def refuse (method : String) : Except FormatError α → Except NodeError α :=
  Except.mapError fun cause => .malformed method (.badForm cause)

theorem refuse_eq_ok {method : String} {x : Except FormatError α} {a : α} :
    refuse method x = .ok a ↔ x = .ok a := by
  cases x with
  | ok b =>
    show Except.ok b = _ ↔ _
    rw [Except.ok.injEq, Except.ok.injEq]
  | error cause => exact iff_of_false (fun h => nomatch h) fun h => nomatch h

theorem refuse_eq_error {method : String} {x : Except FormatError α} {e : NodeError}
    (h : refuse method x = .error e) : ∃ defect, e = .malformed method defect := by
  cases x with
  | ok b => cases h
  | error cause => cases h; exact ⟨_, rfl⟩

theorem reads_refuse {Means : α → Json → Prop} {read : Json → Except FormatError α}
    (h : ∀ result a, read result = .ok a ↔ Means a result) :
    Reads False Means fun method result => refuse method (read result) where
  ok _ result a := refuse_eq_ok.trans (h result a)
  infinite _ := False.elim
  error _ _ _ failed := .inl (refuse_eq_error failed)

theorem reads_object (read : Reader α) :
    Reads False (Json.Optionally (Json.SpellsValue read)) (readObject · read) := by
  have whole (result : Json) (a : α) :
      readHex result >>= Reader.readAll read = .ok a ↔ Json.SpellsValue read a result := by
    cases spelled : readHex result with
    | ok bytes =>
      refine Reader.readAll_eq_ok_iff.trans ⟨fun ⟨size, h⟩ => ?_, ?_⟩
      · exact ⟨bytes, size, readHex_eq_ok.1 spelled, h⟩
      · rintro ⟨bytes', size, spells, h⟩
        rw [← readHex_eq_ok, spelled] at spells
        cases spells
        exact ⟨size, h⟩
    | error cause =>
      refine iff_of_false (fun h => nomatch h) ?_
      rintro ⟨bytes, size, spells, -⟩
      rw [← readHex_eq_ok, spelled] at spells
      cases spells
  refine reads_optional (reads_refuse whole) ?_ (fun _ => rfl) fun method result given => ?_
  · rintro a ⟨bytes, size, spells, -⟩
    exact spells
  · rw [readObject.eq_def]
    split
    · exact absurd rfl given
    · split
      · next value h => rw [h]; rfl
      · next cause h => rw [h]; rfl

theorem readDisplay_eq_ok {t : RawText} {hash : Bytes} :
    Hex.readDisplay t Reader.hash256Size = .ok hash ↔ (Json.text t).Displays hash := by
  rw [Hex.readDisplay, Json.Displays, Json.Spells]
  cases Hex.decode? (Hex.dropMark t) with
  | none => exact iff_of_false (fun h => nomatch h) fun h => nomatch h.1
  | some bytes =>
    dsimp only
    rw [Option.some.injEq]
    constructor
    · intro h
      split at h
      · next size =>
        cases h
        rw [List.reverse_reverse, List.length_reverse]
        exact ⟨rfl, Int.ofNat_inj.1 size⟩
      · cases h
    · rintro ⟨rfl, size⟩
      rw [if_pos (by rw [List.length_reverse, size]), List.reverse_reverse]

/-- The result as a displayed hash, where it is not null. -/
def readGivenHash (method : String) : Json → Except NodeError Bytes
  | .text t => refuse method (Hex.readDisplay t Reader.hash256Size)
  | result => .error (.malformed method (.notText result))

theorem reads_givenHash : Reads False Json.Displays readGivenHash where
  ok method result hash := by
    cases result with
    | text t => exact refuse_eq_ok.trans readDisplay_eq_ok
    | _ => exact iff_of_false (fun h => nomatch h) fun h => h.1
  infinite _ := False.elim
  error method result e h := by
    cases result with
    | text t => exact .inl (refuse_eq_error h)
    | _ => cases h; exact .inl ⟨_, rfl⟩

theorem reads_hash : Reads False (Json.Optionally Json.Displays) readHash := by
  refine reads_optional reads_givenHash (fun _ h => h.1) (fun _ => rfl) ?_
  intro method result given
  cases result with
  | null => exact absurd rfl given
  | text t =>
    rw [readHash, readGivenHash]
    cases Hex.readDisplay t Reader.hash256Size <;> rfl
  | _ => rfl

theorem readBytes_of_ne_null (method : String) {result : Json} (given : result ≠ .null) :
    readBytes method result = refuse method (readHex result) := by
  rw [readBytes.eq_def]
  split
  · exact absurd rfl given
  · cases readHex result <;> rfl

theorem reads_bytes :
    Reads False (fun bytes result => result.Spells bytes ∨ result = .null ∧ bytes = []) readBytes
    where
  ok method result bytes := by
    by_cases isNull : result = .null
    · subst isNull
      rw [readBytes, Except.ok.injEq]
      exact ⟨fun h => .inr ⟨rfl, h.symm⟩, fun h => h.elim False.elim fun h => h.2.symm⟩
    · rw [readBytes_of_ne_null method isNull, refuse_eq_ok, readHex_eq_ok]
      exact (or_iff_left fun h => isNull h.1).symm
  infinite _ := False.elim
  error method result e h := by
    by_cases isNull : result = .null
    · subst isNull
      cases h
    · rw [readBytes_of_ne_null method isNull] at h
      exact .inl (refuse_eq_error h)

/-! ## Questions -/

/-- The reading of the results of a question. -/
def read : (q : Query) → String → Json → Except NodeError q.Value
  | .currentHeight => readUnsigned
  | .block .. => (readObject · Block.read)
  | .header .. => (readObject · Header.read)
  | .headerAt _ => (readObject · Header.read)
  | .hashAt _ => readHash
  | .contract .. => (readObject · (Reader.record Contract.read))
  | .storage .. => readBytes
  | .transaction .. => (readObject · Transaction.read)
  | .transactionHeight .. => fun method result =>
    match result with
    | .null => .ok none
    | result => some <$> readUnsigned method result
  | .account .. => (readObject · (Reader.record Account.read))
  | .asset .. => (readObject · (Reader.record Asset.read))

theorem reads : (q : Query) → Reads q.IsNumeric q.Means (read q)
  | .currentHeight => reads_unsigned
  | .block .. => reads_object _
  | .header .. => reads_object _
  | .headerAt _ => reads_object _
  | .hashAt _ => reads_hash
  | .contract .. => reads_object _
  | .storage .. => reads_bytes
  | .transaction .. => reads_object _
  | .transactionHeight .. => by
    refine reads_optional reads_unsigned (fun _ h => h) (fun _ => rfl) fun method result given => ?_
    cases result with
    | null => exact absurd rfl given
    | _ => rfl
  | .account .. => reads_object _
  | .asset .. => reads_object _

/-- The answer to a question. -/
def answer (node : Node) : (q : Query) → Asking q.Value
  | .currentHeight => node.currentHeight
  | .block hash height => node.block hash height
  | .header hash height => node.header hash height
  | .headerAt index => node.headerAt index
  | .hashAt index => node.hashAt index
  | .contract scriptHash height => node.contract scriptHash height
  | .storage scriptHash key height => node.storage scriptHash key height
  | .transaction hash height => node.transaction hash height
  | .transactionHeight hash height => node.transactionHeight hash height
  | .account scriptHash height => node.account scriptHash height
  | .asset id height => node.asset id height

theorem answer_eq_query (node : Node) (q : Query) : node.answer q = node.query q (read q) := by
  cases q <;> rfl

end Node

/-! ## Outcomes -/

/-- For every outcome of a question, the replies that it comes from. -/
structure Query.Classified (q : Query) (reply : Reply) (outcome : Except NodeError q.Value) :
    Prop where
  /-- A value comes from a result that means it. -/
  ok : ∀ a, outcome = .ok a ↔ ∃ result, reply.Carries result ∧ q.Means a result
  /-- The node is unavailable if no answer arrives. -/
  unavailable : ∀ reason, outcome = .error (.unavailable reason) ↔ reply = .unavailable reason
  /-- There is an error at the node if the answer says so. -/
  remote : (∃ code text, outcome = .error (.remote code text)) ↔ reply.ReportsError
  /-- An answer is malformed if it is illegible or its result has no meaning. -/
  malformed : (∃ defect, outcome = .error (.malformed q.method defect)) ↔
    reply.Illegible ∨ ∃ result, reply.Carries result ∧ (∀ a, ¬q.Means a result) ∧
      ¬(q.IsNumeric ∧ result = .float (.infinite false))
  /-- A malformed answer is blamed on the method that was asked. -/
  blames : ∀ method defect, outcome = .error (.malformed method defect) → method = q.method
  /-- The exception is infinity in place of a number. -/
  infinite : outcome = .error .infinite ↔ q.IsNumeric ∧ reply.Carries (.float (.infinite false))

namespace Query.Classified

variable {q : Query} {reply : Reply} {result : Json}

/-- The outcome where there is no answer. -/
theorem of_unavailable (reason : RawText) :
    q.Classified (.unavailable reason) (.error (.unavailable reason)) := by
  have noObject (fields) : ¬(Reply.unavailable reason).IsObject fields := fun ⟨_, h, _⟩ => nomatch h
  have noResult (result) : ¬(Reply.unavailable reason).Carries result :=
    fun ⟨_, h, _⟩ => noObject _ h
  constructor
  case ok => exact fun a => iff_of_false (fun h => nomatch h) fun ⟨_, h, _⟩ => noResult _ h
  case unavailable => exact fun reason' => by rw [Except.error.injEq, NodeError.unavailable.injEq,
    Reply.unavailable.injEq]
  case remote => exact iff_of_false (fun ⟨_, _, h⟩ => nomatch h) fun ⟨_, _, h, _⟩ => noObject _ h
  case malformed =>
    refine iff_of_false (fun ⟨_, h⟩ => nomatch h) ?_
    rintro (illegible | ⟨_, h, _⟩)
    · cases illegible with
      | noResult object => exact noObject _ object
    · exact noResult _ h
  case blames => exact fun _ _ h => nomatch h
  case infinite => exact iff_of_false (fun h => nomatch h) fun h => noResult _ h.2

/-- The outcome where the answer says that there is an error. -/
theorem of_reportsError (reports : reply.ReportsError) (code : Json) (text : RawText) :
    q.Classified reply (.error (.remote code text)) where
  ok _ := iff_of_false (fun h => nomatch h) fun ⟨_, h, _⟩ => h.not_reportsError reports
  unavailable _ := iff_of_false (fun h => nomatch h) fun h => by
    obtain ⟨_, _, ⟨_, body, _⟩, _⟩ := reports
    rw [h] at body
    cases body
  remote := iff_of_true ⟨code, text, rfl⟩ reports
  malformed := iff_of_false (fun ⟨_, h⟩ => nomatch h) fun h =>
    h.elim (fun h => h.not_reportsError reports) fun ⟨_, h, _⟩ => h.not_reportsError reports
  blames _ _ h := nomatch h
  infinite := iff_of_false (fun h => nomatch h) fun h => h.2.not_reportsError reports

/-- The outcome where the answer is illegible. -/
theorem of_illegible {body : Bytes} (illegible : (Reply.body body).Illegible)
    (defect : Malformation) : q.Classified (.body body) (.error (.malformed q.method defect)) where
  ok _ := iff_of_false (fun h => nomatch h) fun ⟨_, h, _⟩ => illegible.not_carries h
  unavailable _ := iff_of_false (fun h => nomatch h) fun h => nomatch h
  remote := iff_of_false (fun ⟨_, _, h⟩ => nomatch h) illegible.not_reportsError
  malformed := iff_of_true ⟨defect, rfl⟩ (.inl illegible)
  blames _ _ h := by cases h; rfl
  infinite := iff_of_false (fun h => nomatch h) fun h => illegible.not_carries h.2

/-- The outcome where there is a result. -/
theorem of_carries {body : Bytes} (carries : (Reply.body body).Carries result) :
    q.Classified (.body body) (Node.read q q.method result) := by
  have reads := Node.reads q
  have error {e : NodeError} := reads.error q.method result e
  constructor
  case ok =>
    intro a
    rw [reads.ok]
    refine ⟨fun means => ⟨result, carries, means⟩, ?_⟩
    rintro ⟨result', carries', means⟩
    rwa [carries.unique carries']
  case unavailable =>
    intro reason
    refine iff_of_false (fun h => ?_) fun h => nomatch h
    rcases error h with ⟨_, same⟩ | ⟨same, -⟩ <;> cases same
  case remote =>
    refine iff_of_false (fun ⟨_, _, h⟩ => ?_) carries.not_reportsError
    rcases error h with ⟨_, same⟩ | ⟨same, -⟩ <;> cases same
  case malformed =>
    constructor
    · rintro ⟨defect, h⟩
      refine .inr ⟨result, carries, fun a means => ?_, fun ⟨numeric, same⟩ => ?_⟩
      · rw [(reads.ok _ _ _).2 means] at h
        cases h
      · rw [same, reads.infinite _ numeric] at h
        cases h
    · rintro (illegible | ⟨result', carries', meaningless, finite⟩)
      · exact absurd carries illegible.not_carries
      · cases carries.unique carries'
        cases answer : Node.read q q.method result with
        | ok a => exact absurd ((reads.ok _ _ _).1 answer) (meaningless a)
        | error e =>
          rcases error answer with ⟨defect, rfl⟩ | ⟨-, infinite⟩
          · exact ⟨defect, rfl⟩
          · exact absurd infinite finite
  case blames =>
    intro method defect h
    rcases error h with ⟨_, same⟩ | ⟨same, -⟩ <;> cases same
    rfl
  case infinite =>
    constructor
    · intro h
      rcases error h with ⟨_, same⟩ | ⟨-, numeric, same⟩
      · cases same
      · exact ⟨numeric, same ▸ carries⟩
    · rintro ⟨numeric, carries'⟩
      rw [carries.unique carries', reads.infinite _ numeric]

/-- The outcome of every reply. -/
theorem of_outcome (node : Node) (request : Request) :
    request.query.Classified (node request) (node.outcome request (Node.read request.query)) := by
  rw [Node.outcome]
  cases node request with
  | unavailable reason => exact of_unavailable reason
  | body body =>
    dsimp only
    rcases Node.result_spec request.query.method body with
      ⟨result, found, carries⟩ | ⟨code, text, found, reports⟩ | ⟨defect, found, illegible⟩
    · rw [found]
      exact of_carries carries
    · rw [found]
      exact of_reportsError reports code text
    · rw [found]
      exact of_illegible illegible defect

end Query.Classified

/-- What comes of everything that is asked of a node. -/
structure Node.Classifies (node : Node) (link : Link) : Prop where
  /-- A question is asked once, and its outcome says what the reply is. -/
  answer : ∀ q : Query, ∃ outcome, q.Classified (node ⟨link.count + 1, q⟩) outcome ∧
    node.answer q link =
      match outcome with
      | .ok a => .ok a (link.asked q)
      | .error e => .error e (link.asked q)
  /-- With valid settings a run is ready if the node tells its height. -/
  ready : ∀ endpoint settings configuration, settings.configure = .ok configuration → ∀ height,
    prepare node endpoint settings link = .ok ⟨configuration, height⟩ (link.asked .currentHeight) ↔
      ∃ result, (node ⟨link.count + 1, .currentHeight⟩).Carries result ∧ result.IsNatural height
  /-- With valid settings a run that is not ready names the endpoint, with the cause. -/
  failed : ∀ endpoint settings configuration, settings.configure = .ok configuration →
    ∀ fault link', prepare node endpoint settings link = .error fault link' →
      link' = link.asked .currentHeight ∧ ∃ cause, fault = .height endpoint cause ∧
        node.answer .currentHeight link = .error cause link' ∧
        (cause = .infinite ↔
          (node ⟨link.count + 1, .currentHeight⟩).Carries (.float (.infinite false)))

/-- Preparing on valid settings asks for the height. -/
theorem prepare_eq {settings : Settings} {configuration : Configuration}
    (valid : settings.configure = .ok configuration) (node : Node) (endpoint : RawText)
    (link : Link) :
    prepare node endpoint settings link =
      match node.answer .currentHeight link with
      | .ok height link' => .ok ⟨configuration, height⟩ link'
      | .error cause link' => .error (.height endpoint cause) link' := by
  have got (f : Link → EStateM StartFault Link Prepared) : (get >>= f) link = f link link := rfl
  rw [prepare, valid]
  dsimp only
  rw [got]
  cases asked : node.answer .currentHeight link with
  | ok height link' =>
    have answered : node.currentHeight link = .ok height link' := asked
    rw [answered]
    rfl
  | error cause link' =>
    have answered : node.currentHeight link = .error cause link' := asked
    rw [answered]
    rfl

/-- **Every reply to every question is classified**: the only outcome that is neither a value nor
an error about the node is that of an infinite number. -/
theorem answers_classified (node : Node) (link : Link) : node.Classifies link := by
  have asked (q : Query) : ∃ outcome, q.Classified (node ⟨link.count + 1, q⟩) outcome ∧
      node.answer q link =
        match outcome with
        | .ok a => .ok a (link.asked q)
        | .error e => .error e (link.asked q) :=
    ⟨node.outcome ⟨link.count + 1, q⟩ (Node.read q), .of_outcome node ⟨link.count + 1, q⟩, by
      rw [node.answer_eq_query, node.query_eq]
      cases node.outcome ⟨link.count + 1, q⟩ (Node.read q) <;> rfl⟩
  obtain ⟨outcome, classified, height⟩ := asked .currentHeight
  constructor
  case answer => exact asked
  case ready =>
    intro endpoint settings configuration valid n
    rw [prepare_eq valid, height]
    refine Iff.trans ?_ (classified.ok n)
    cases outcome with
    | ok a =>
      constructor
      · rintro ⟨⟩
        rfl
      · rintro ⟨⟩
        rfl
    | error e => exact iff_of_false (fun h => nomatch h) fun h => nomatch h
  case failed =>
    intro endpoint settings configuration valid fault link' h
    rw [prepare_eq valid, height] at h
    cases outcome with
    | ok a => cases h
    | error cause =>
      cases h
      refine ⟨rfl, cause, rfl, height, ?_⟩
      have broken : (Except.error cause : Except NodeError Nat) = .error .infinite ↔
          cause = .infinite := by rw [Except.error.injEq]
      exact broken.symm.trans (classified.infinite.trans (and_iff_right trivial))

/-- A number beyond the floating-point format, as a height. -/
example :
    (match Node.currentHeight (fun _ => .body (Utf8.encode "\x7b\"result\": 1e400\x7d")) .fresh with
      | .error .infinite _ => true
      | _ => false) = true := by
  decide +kernel

end DryRun
