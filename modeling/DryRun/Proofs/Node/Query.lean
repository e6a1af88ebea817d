import DryRun.Node
import DryRun.Proofs.Returns

/-!
# Questions that are sent

A question to the node sends one request, whatever comes of it, and takes its answer from what the
node replies to that request alone (`Node.query_eq`).  The request for a value in storage names the
contract and the key in one text, and since hashes all have the same size no two pairs share a text
(`Query.storageKey_inj`).  `Query.Within` says that a question does not look beyond a height.
-/

set_option autoImplicit false

namespace DryRun

/-! ## Hexadecimal digits -/

namespace Hex

theorem hexDigit_inj : ∀ {m n : Nat}, m < 16 → n < 16 →
    Quoted.hexDigit m = Quoted.hexDigit n → m = n := by
  have all : ∀ m n : Fin 16, Quoted.hexDigit m = Quoted.hexDigit n → m = n := by decide
  intro m n hm hn h
  exact congrArg Fin.val (all ⟨m, hm⟩ ⟨n, hn⟩ h)

@[simp] theorem digits_cons (b : UInt8) (bytes : Bytes) :
    digits (b :: bytes) =
      Quoted.hexDigit (b.toNat / 16) :: Quoted.hexDigit (b.toNat % 16) :: digits bytes := rfl

theorem length_digits (bytes : Bytes) : (digits bytes).length = 2 * bytes.length := by
  induction bytes with
  | nil => rfl
  | cons b bytes ih =>
    rw [digits_cons, List.length_cons, List.length_cons, List.length_cons, ih]
    omega

/-- Different bytes have different digits. -/
theorem digits_inj : ∀ {a b : Bytes}, digits a = digits b → a = b
  | [], [], _ => rfl
  | [], _ :: _, h => by cases h
  | _ :: _, [], h => by cases h
  | x :: a, y :: b, h => by
    rw [digits_cons, digits_cons, List.cons.injEq, List.cons.injEq] at h
    obtain ⟨high, low, rest⟩ := h
    have hx := x.toNat_lt
    have hy := y.toNat_lt
    have high := hexDigit_inj (by omega) (by omega) high
    have low := hexDigit_inj (Nat.mod_lt _ (by decide)) (Nat.mod_lt _ (by decide)) low
    have same : x = y := UInt8.toNat_inj.1 (by omega)
    rw [same, digits_inj rest]

end Hex

/-- **No two pairs of a hash and a key share a name in the node's database.** -/
theorem Query.storageKey_inj {scriptHash key scriptHash' key' : Bytes}
    (size : scriptHash.length = scriptHash'.length)
    (h : storageKey scriptHash key = storageKey scriptHash' key') :
    scriptHash = scriptHash' ∧ key = key' := by
  have chars := congrArg String.toList h
  simp only [storageKey, Hex.display, Hex.encode, String.toList_append, String.toList_ofList]
    at chars
  have digits := List.append_inj chars (by rw [Hex.length_digits, Hex.length_digits,
    List.length_reverse, List.length_reverse, size])
  exact ⟨List.reverse_inj.1 (Hex.digits_inj digits.1), Hex.digits_inj digits.2⟩

/-! ## Heights -/

namespace Query

/-- The height that a question carries, if it carries one. -/
def carried? (query : Query) : Option Json := query.params.field? "Height"

/-- The question is about the chain as it was at a height: it carries that height, or it asks for
the hash of a block that is not above it. -/
def Within (height : Nat) (query : Query) : Prop :=
  query.carried? = some (.int height) ∨ ∃ index ≤ height, query = .hashAt index

end Query

/-! ## Requests -/

/-- The conversation after one more question. -/
def Link.asked (link : Link) (query : Query) : Link := ⟨⟨link.count + 1, query⟩ :: link.sent⟩

/-- What comes of the node's reply to a request. -/
def Node.outcome {α : Type} (node : Node) (request : Request)
    (read : String → Json → Except NodeError α) : Except NodeError α :=
  match node request with
  | .unavailable reason => .error (.unavailable reason)
  | .body bytes =>
    match Node.result request.query.method bytes with
    | .ok value => read request.query.method value
    | .error e => .error e

/-- **A question sends one request**, and all that comes of it is in the reply. -/
theorem Node.query_eq {α : Type} (node : Node) (query : Query)
    (read : String → Json → Except NodeError α) (link : Link) :
    node.query query read link =
      match node.outcome ⟨link.count + 1, query⟩ read with
      | .ok a => .ok a (link.asked query)
      | .error e => .error e (link.asked query) := by
  have ask : node.ask query link =
      match node ⟨link.count + 1, query⟩ with
      | .unavailable reason => .error (.unavailable reason) (link.asked query)
      | .body bytes =>
        match Node.result query.method bytes with
        | .ok value => .ok value (link.asked query)
        | .error e => .error e (link.asked query) := by
    rw [Node.ask]
    show (match node ⟨link.count + 1, query⟩ with
      | .unavailable reason => _
      | .body bytes => _ : Asking Json) (link.asked query) = _
    cases node ⟨link.count + 1, query⟩ with
    | unavailable reason => rfl
    | body bytes =>
      dsimp only
      cases Node.result query.method bytes with
      | ok value => rfl
      | error e => rfl
  rw [Node.query]
  simp only [bind, EStateM.bind]
  rw [ask, outcome]
  cases node ⟨link.count + 1, query⟩ with
  | unavailable reason => rfl
  | body bytes =>
    dsimp only
    cases Node.result query.method bytes with
    | error e => rfl
    | ok value =>
      dsimp only
      cases read query.method value with
      | ok a => rfl
      | error e => rfl

/-- If one value comes of the replies to a question, whatever its number, the question returns no
other. -/
theorem Node.returns_of_outcome {α : Type} {P : α → Prop} {node : Node} {query : Query}
    {read : String → Json → Except NodeError α} {a : α}
    (outcome : ∀ id, (node.outcome ⟨id, query⟩ read).toOption = some a) (h : P a) :
    Returns P (node.query query read) := by
  intro link b link' returned
  rw [query_eq] at returned
  have one := outcome (link.count + 1)
  cases answer : node.outcome ⟨link.count + 1, query⟩ read with
  | ok c =>
    rw [answer] at returned one
    cases returned
    cases one
    exact h
  | error e =>
    rw [answer] at returned
    cases returned

end DryRun
