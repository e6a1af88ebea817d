import DryRun.Text.Utf8

/-!
# How long a text is that replaces what it cannot read

A lossy reader makes at most two characters of a byte, the second only where the byte breaks off a
character that had begun, and one more at the end.  No character takes more than four bytes, so
the text that has been read from bytes cannot be much longer than they are, whatever they are.
-/

set_option autoImplicit false

namespace DryRun

theorem RawText.utf8ByteSize_ofList_le (cs : List Char) :
    (String.ofList cs).utf8ByteSize ≤ 4 * cs.length := by
  induction cs with
  | nil => exact Nat.le_refl 0
  | cons c cs ih =>
    have one := c.utf8Size_le_four
    rw [String.ofList_cons, String.utf8ByteSize_append, String.utf8ByteSize_singleton,
      List.length_cons]
    omega

namespace Utf8

theorem length_encode (text : String) : (encode text).length = text.utf8ByteSize := by
  rw [encode, Array.length_toList]
  exact String.size_toByteArray

theorem length_encode_toString_le (text : RawText) :
    (encode text.toString).length ≤ 4 * text.length := by
  rw [length_encode, RawText.toString]
  refine Nat.le_trans (RawText.utf8ByteSize_ofList_le _) (Nat.le_of_eq ?_)
  rw [List.length_map]

/-- A byte makes at most two characters. -/
theorem length_lossyStep_le (reading : State × RawText) (b : UInt8) :
    (lossyStep reading b).2.length ≤ reading.2.length + 2 := by
  obtain ⟨state, done⟩ := reading
  rw [lossyStep.eq_def]
  dsimp only
  split
  · exact Nat.le_succ _
  · exact Nat.le_add_right _ 2
  · exact Nat.le_succ _
  · split
    · exact Nat.le_refl _
    · exact Nat.le_succ _
    · exact Nat.le_refl _

theorem length_foldl_lossyStep_le (bytes : Bytes) (reading : State × RawText) :
    (bytes.foldl lossyStep reading).2.length ≤ reading.2.length + 2 * bytes.length := by
  induction bytes generalizing reading with
  | nil => exact Nat.le_refl _
  | cons b bytes ih =>
    have first := length_lossyStep_le reading b
    have rest := ih (lossyStep reading b)
    rw [List.foldl_cons, List.length_cons]
    omega

/-- **Replacing what is not UTF-8 does not make bytes much longer.** -/
theorem length_encode_decodeLossy_le (bytes : Bytes) :
    (encode (decodeLossy bytes)).length ≤ 8 * bytes.length + 4 := by
  have made := length_foldl_lossyStep_le bytes (.between, [])
  rw [List.length_nil, Nat.zero_add] at made
  rw [decodeLossy]
  refine Nat.le_trans (length_encode_toString_le _) ?_
  rw [List.length_reverse]
  split
  · omega
  · rw [List.length_cons]
    omega

end Utf8

end DryRun
