import DryRun.Chain.Account
import DryRun.Chain.Asset
import DryRun.Chain.Block
import DryRun.Chain.Contract
import DryRun.Proofs.Wire.Span

/-!
# Chain objects depend on their own bytes only

No reader of a chain object looks at what stands before or behind the object, nor at where in the
data it stands (`Local`).  There is one lemma for each reader, by the rules of `Local` along its
parts.  A record as the database keeps it is therefore the same as the record without the byte in
front (`readAll_record_iff`).
-/

set_option autoImplicit false

namespace DryRun

open Reader

/-! ## Headers -/

theorem Witness.local_read : Local read :=
  (local_varBytes _).bind fun _ => (local_varBytes _).bind fun _ => .pure _

theorem Header.local_readBase : Local readBase :=
  local_u32.bind fun _ => local_hash256.bind fun _ => local_hash256.bind fun _ =>
    local_u32.bind fun _ => local_u32.bind fun _ => local_u64.bind fun _ =>
    local_hash160.bind fun _ => local_u8.bind fun _ => .guarded <|
    Witness.local_read.bind fun _ => .pure _

theorem Header.local_read : Local read :=
  local_readBase.bind fun _ => local_u8.bind fun _ => .guarded (.pure _)

/-! ## Transactions -/

theorem Attribute.local_read : Local read := by
  have rest (usage : UInt8) {data : Reader Bytes} (h : Local data) :
      Local (do return (⟨usage, ← data⟩ : Attribute)) :=
    h.bind fun _ => .pure _
  refine local_u8.bind fun usage => ?_
  dsimp only
  split
  · exact (local_take 32).bind fun _ => rest usage (.pure _)
  · split
    · exact rest usage (local_take 32)
    · split
      · exact rest usage (local_take 20)
      · split
        · exact local_u8.bind fun size => rest usage (local_take _)
        · split
          · exact rest usage (local_varBytes _)
          · exact (Local.throw _).bind fun _ => .pure _

theorem Input.local_read : Local read :=
  local_hash256.bind fun _ => local_u16.bind fun _ => .pure _

theorem Output.local_read : Local read :=
  local_hash256.bind fun _ => local_i64.bind fun _ => local_hash160.bind fun _ => .pure _

theorem Descriptor.local_read : Local read :=
  local_u8.bind fun _ => (local_varBytes _).bind fun _ => (local_varString _).bind fun _ =>
    (local_varBytes _).bind fun _ => .pure _

theorem Registration.local_read : Local read :=
  local_u8.bind fun _ => (local_varString _).bind fun _ => local_i64.bind fun _ =>
    local_u8.bind fun _ => local_curvePoint.bind fun _ => local_hash160.bind fun _ => .pure _

theorem Publication.local_read (version : UInt8) : Local (read version) := by
  have texts (storage : Bool) (script paramList : Bytes) (returnType : UInt8) : Local (do
      let name ← varString 0xFFFF
      let codeVersion ← varString 0xFFFF
      let author ← varString 0xFFFF
      let email ← varString 0xFFFF
      let description ← varString 0xFFFF
      return { script, paramList, returnType, needStorage := storage, name, codeVersion, author,
               email, description : Publication }) :=
    (local_varString _).bind fun _ => (local_varString _).bind fun _ =>
      (local_varString _).bind fun _ => (local_varString _).bind fun _ =>
      (local_varString _).bind fun _ => .pure _
  refine (local_varBytes _).bind fun script => (local_varBytes _).bind fun paramList =>
    local_u8.bind fun returnType => ?_
  dsimp only
  split
  · exact local_bool.bind fun storage => texts storage script paramList returnType
  · exact (Local.pure false).bind fun storage => texts storage script paramList returnType

theorem Payload.local_read (typeByte version : UInt8) : Local (read typeByte version) := by
  rw [read.eq_def]
  split
  · exact local_u32.map _
  · exact .pure _
  · exact (local_array Input.local_read _).map _
  · exact local_curvePoint.map _
  · exact Registration.local_read.map _
  · exact .pure _
  · exact (local_array Descriptor.local_read _).map _
  · exact (Publication.local_read version).map _
  · refine (local_varBytes _).bind fun script => ?_
    dsimp only
    split
    · exact local_i64.bind fun _ => .pure _
    · exact (Local.pure 0).bind fun _ => .pure _
  · exact .throw _

namespace Transaction

theorem local_readUnsigned : Local readUnsigned :=
  local_u8.bind fun typeByte => local_u8.bind fun version =>
    (Payload.local_read typeByte version).bind fun _ =>
    (local_array Attribute.local_read _).bind fun _ =>
    (local_array Input.local_read _).bind fun _ =>
    (local_array Output.local_read _).bind fun _ => .pure _

end Transaction

/-! ## Records -/

theorem Account.local_read : Local read :=
  local_u8.bind fun _ => local_hash160.bind fun _ => local_bool.bind fun _ =>
    (local_array local_curvePoint _).bind fun _ =>
    (local_array (local_hash256.bind fun _ => local_i64.bind fun _ => .pure _) _).bind fun _ =>
    .pure _

theorem Asset.local_read : Local read :=
  local_hash256.bind fun _ => local_u8.bind fun _ => (local_varString _).bind fun _ =>
    local_i64.bind fun _ => local_i64.bind fun _ => local_u8.bind fun _ => local_u8.bind fun _ =>
    local_hash160.bind fun _ => local_curvePoint.bind fun _ => local_hash160.bind fun _ =>
    local_hash160.bind fun _ => local_u32.bind fun _ => local_bool.bind fun _ => .pure _

theorem Contract.local_read : Local read :=
  (local_varBytes _).bind fun _ => (local_varBytes _).bind fun _ => local_u8.bind fun _ =>
    local_u8.bind fun _ => (local_varString _).bind fun _ => (local_varString _).bind fun _ =>
    (local_varString _).bind fun _ => (local_varString _).bind fun _ =>
    (local_varString _).bind fun _ => .pure _

/-- **A record is the same with and without the byte in front.** -/
theorem readAll_record_iff {α : Type} {read : Reader α} (h : Local read) {data : Bytes} {a : α} :
    readAll (record read) data = .ok a ↔
      ∃ first rest, data = first :: rest ∧ readAll read rest = .ok a := by
  have behind : Local (record read) := local_u8.bind fun _ => h
  simp only [h.readAll_iff, behind.readAll_iff]
  constructor
  · intro parses
    have he := parses 0 []
    change EStateM.bind u8 _ _ = _ at he
    rw [List.append_nil, EStateM.bind] at he
    split at he
    · next first middle hfirst =>
      obtain ⟨byte, hbyte, spelled⟩ := spans_u8 _ _ _ hfirst
      obtain ⟨rest, hrest, -, parses⟩ := h.taken he
      rw [List.append_nil] at hrest
      refine ⟨first, rest, ?_, parses⟩
      dsimp only at hbyte
      rw [hbyte, spelled, hrest]
      rfl
    · cases he
  · rintro ⟨first, rest, rfl, parses⟩
    exact (parses_u8 first).bind parses

end DryRun
