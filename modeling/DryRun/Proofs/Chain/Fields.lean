import DryRun.Chain.Asset
import DryRun.Chain.Header
import DryRun.Proofs.Wire.Span
import DryRun.Proofs.Wire.Writer

/-!
# Numbers in the fields of chain objects

The fields of chain objects are of fixed width, and the numbers that get into them are not.  What is
put into a field must fit it, or the field does not hold what was put in.

* `Header.spans_readBase` — a number that is read into a field is written as the bytes that it was
  read from, so a header's hash is the hash of what the node has sent;
* `Header.writes_unsigned` — writing these numbers with every one checked refuses none of them;
* `Asset.toNat_expiration_renew` — the end of a renewed registration fits its field.
-/

set_option autoImplicit false

namespace DryRun

/-! ## Headers -/

namespace Header

open Reader

/-- Write the fields that the hash covers, with every number checked. -/
def unsignedWriter (h : Header) : Writer Unit := do
  Writer.fixed 4 false h.version.toNat
  Writer.append h.prevHash
  Writer.append h.merkleRoot
  Writer.fixed 4 false h.timestamp.toNat
  Writer.fixed 4 false h.index.toNat
  Writer.fixed 8 false h.consensusData.toNat
  Writer.append h.nextConsensus

/-- No number of a header is out of range. -/
theorem writes_unsigned (h : Header) : Writes h.unsignedWriter h.writeUnsigned := by
  have whole := (Writer.writes_u32 h.version).bind <| (Writer.writes_append h.prevHash).bind <|
    (Writer.writes_append h.merkleRoot).bind <| (Writer.writes_u32 h.timestamp).bind <|
    (Writer.writes_u32 h.index).bind <| (Writer.writes_u64 h.consensusData).bind <|
    Writer.writes_append h.nextConsensus
  simp only [writeUnsigned, List.append_assoc]
  exact whole

/-- A witness is read from the two lengths and the two scripts behind them. -/
theorem spans_witness : Spans (fun w bytes => ∃ l₁ l₂, Wire.Spelling w.invocation.length l₁ ∧
    Wire.Spelling w.verification.length l₂ ∧
    bytes = l₁ ++ w.invocation ++ (l₂ ++ w.verification)) Witness.read := by
  refine (spans_varBytes _).bind fun invocation _ h₁ => (spans_varBytes _).bind
    fun verification _ h₂ => .pure ?_
  obtain ⟨l₁, spelled₁, rfl⟩ := h₁
  obtain ⟨l₂, spelled₂, rfl⟩ := h₂
  exact ⟨l₁, l₂, spelled₁, spelled₂, by rw [List.append_nil]⟩

/-- A header is read from the fields that are hashed, the mark of the witness, and the witness. -/
theorem spans_base : Spans (fun h bytes => ∃ l₁ l₂, Wire.Spelling h.witness.invocation.length l₁ ∧
    Wire.Spelling h.witness.verification.length l₂ ∧
    bytes = h.writeUnsigned ++ (Wire.u8 1 ++
      (l₁ ++ h.witness.invocation ++ (l₂ ++ h.witness.verification)))) readBase := by
  refine spans_u32.bind fun version _ h₁ => (spans_take _).bind fun prevHash _ h₂ =>
    (spans_take _).bind fun merkleRoot _ h₃ => spans_u32.bind fun timestamp _ h₄ =>
    spans_u32.bind fun index _ h₅ => spans_u64.bind fun consensusData _ h₆ =>
    (spans_take _).bind fun nextConsensus _ h₇ => spans_u8.bind fun marker _ h₈ =>
    .guarded fun one => spans_witness.bind fun witness _ h₉ => .pure ?_
  obtain ⟨l₁, l₂, spelled₁, spelled₂, rfl⟩ := h₉
  refine ⟨l₁, l₂, spelled₁, spelled₂, ?_⟩
  rw [h₁, h₂.1, h₃.1, h₄, h₅, h₆, h₇.1, h₈, not_not.1 one]
  simp only [writeUnsigned, List.append_assoc, List.append_nil]

/-- **A header is hashed as the bytes it was read from.** -/
theorem spans_readBase : Spans (fun h bytes => h.writeUnsigned <+: bytes) readBase := by
  refine spans_base.mono fun h bytes found => ?_
  obtain ⟨l₁, l₂, -, -, rfl⟩ := found
  exact List.prefix_append _ _

end Header

/-! ## Renewals -/

/-- **The end of a renewed registration fits its field.** -/
theorem Asset.toNat_expiration_renew (a : Asset) (height years : Nat) :
    (a.renew height years).expiration.toNat =
      renewedExpiration a.expiration.toNat height years := by
  have fits : renewedExpiration a.expiration.toNat height years < 2 ^ 32 :=
    Nat.lt_of_le_of_lt (Nat.min_le_right _ _) (by decide)
  rw [renew, UInt32.toNat_ofNat', Nat.mod_eq_of_lt fits]

end DryRun
