import DryRun.Proofs.Attempts
import DryRun.Proofs.Script.Standard
import DryRun.Proofs.Table
import DryRun.Proofs.Text.Display
import DryRun.World.Witnesses

/-!
# Who has signed

The accounts that have signed are given as a list of displayed accounts.  `WitnessSet.Displayed`
says which accounts a list displays, and `WitnessSet.Signed` for which operands of a script the
answer is that they have signed: an account that is displayed, or a key whose account is.

* `WitnessSet.exists_ofDisplayList` — which lists are accepted.
* `WitnessSet.contains_ofDisplayList` — the accounts of a list that is accepted.
* `WitnessSet.check_eq_ok` — the answers, and `WitnessSet.refusal_of_check` why there is none.
-/

set_option autoImplicit false

namespace DryRun

namespace WitnessSet

variable {text entry : RawText} {account : Bytes} {witnesses : WitnessSet}

/-! ## Lists -/

/-- A list has an entry. -/
def Lists (text entry : RawText) : Prop :=
  ∃ entries, RawText.Parts ':'.toNat text entries ∧ entry ∈ entries

/-- An entry of a list displays an account. -/
def Displayed (text : RawText) (account : Bytes) : Prop :=
  ∃ entry, Lists text entry ∧ Hex.Displays 20 account entry

/-- An entry is neither blank nor a displayed account. -/
def Malformed (entry : RawText) : Prop :=
  ¬entry.Blank ∧ ∀ account, ¬Hex.Displays 20 account entry

theorem lists_iff : Lists text entry ↔ entry ∈ text.splitAt ':'.toNat := by
  constructor
  · rintro ⟨entries, parts, mem⟩
    rwa [RawText.parts_iff.1 parts]
  · exact fun mem => ⟨_, RawText.parts_iff.2 rfl, mem⟩

/-- What is read of a list: the entries that are not blank, without the blanks around them. -/
def entries (text : RawText) : List RawText :=
  ((text.splitAt ':'.toNat).map RawText.trim).filter (!·.isEmpty)

theorem mem_entries_iff {read : RawText} :
    read ∈ entries text ↔ ∃ entry, Lists text entry ∧ ¬entry.Blank ∧ entry.trim = read := by
  rw [entries, List.mem_filter, List.mem_map, Bool.not_eq_true', List.isEmpty_eq_false_iff]
  constructor
  · rintro ⟨⟨entry, mem, rfl⟩, some⟩
    exact ⟨entry, lists_iff.2 mem, fun blank => some (RawText.trim_eq_nil_iff.2 blank), rfl⟩
  · rintro ⟨entry, lists, plain, rfl⟩
    exact ⟨⟨entry, lists_iff.1 lists, rfl⟩, fun none => plain (RawText.trim_eq_nil_iff.1 none)⟩

/-- Reading what is left of an entry. -/
def readEntry (read : RawText) : Except WitnessFault Bytes :=
  (Hex.readDisplay read 20).mapError (.badEntry read)

theorem ofDisplayList_eq (text : RawText) :
    ofDisplayList text = (entries text).mapM readEntry >>= ofAccounts := rfl

theorem readEntry_trim_eq_ok :
    readEntry entry.trim = .ok account ↔ Hex.Displays 20 account entry :=
  Attempts.mapError_eq_ok.trans (Hex.readDisplay_trim_eq_ok (by decide))

/-- A displayed account is not blank. -/
theorem not_blank_of_displays (displays : Hex.Displays 20 account entry) :
    ¬entry.Blank := fun blank => by
  have read := readEntry_trim_eq_ok.2 displays
  rw [RawText.trim_eq_nil_iff.2 blank] at read
  cases read

/-- An entry that cannot be read is malformed. -/
theorem malformed_iff :
    Malformed entry ↔ ¬entry.Blank ∧ ∃ cause, readEntry entry.trim = .error cause := by
  rw [Attempts.eq_error_iff, not_exists]
  exact and_congr_right fun _ => forall_congr' fun account => not_congr readEntry_trim_eq_ok.symm

/-- Accounts are put together if each of them has its size. -/
theorem ofAccounts_eq {accounts : List Bytes}
    (sizes : ∀ account ∈ accounts, account.length = 20) :
    ofAccounts accounts = .ok (.ofList accounts) := by
  have none : accounts.find? (fun account => account.length ≠ Reader.hash160Size) = none :=
    List.find?_eq_none.2 fun account mem wrong => of_decide_eq_true wrong (sizes account mem)
  rw [ofAccounts, none]

/-- The accounts that are read are those that the list displays. -/
theorem mem_accounts_iff {accounts : List Bytes}
    (read : (entries text).mapM readEntry = .ok accounts) :
    account ∈ accounts ↔ Displayed text account := by
  rw [Attempts.mem_iff_of_mapM read]
  constructor
  · rintro ⟨_, mem, value⟩
    obtain ⟨entry, lists, -, rfl⟩ := mem_entries_iff.1 mem
    exact ⟨entry, lists, readEntry_trim_eq_ok.1 value⟩
  · rintro ⟨entry, lists, displays⟩
    exact ⟨entry.trim, mem_entries_iff.2 ⟨entry, lists, not_blank_of_displays displays, rfl⟩,
      readEntry_trim_eq_ok.2 displays⟩

theorem ofDisplayList_of_mapM {accounts : List Bytes}
    (read : (entries text).mapM readEntry = .ok accounts) :
    ofDisplayList text = .ok (.ofList accounts) := by
  rw [ofDisplayList_eq, read]
  refine ofAccounts_eq fun account mem => ?_
  obtain ⟨entry, -, displays⟩ := (mem_accounts_iff read).1 mem
  exact displays.1

/-- **A list is accepted** if no entry is malformed. -/
theorem exists_ofDisplayList :
    (∃ witnesses, ofDisplayList text = .ok witnesses) ↔
      ∀ entry, Lists text entry → ¬Malformed entry := by
  have all : (∃ accounts, (entries text).mapM readEntry = .ok accounts) ↔
      ∀ entry, Lists text entry → ¬Malformed entry := by
    rw [Attempts.mapM_eq_ok]
    constructor
    · intro each entry lists malformed
      obtain ⟨plain, failed⟩ := malformed_iff.1 malformed
      exact Attempts.eq_error_iff.1 failed (each _ (mem_entries_iff.2 ⟨entry, lists, plain, rfl⟩))
    · intro none read mem
      obtain ⟨entry, lists, plain, rfl⟩ := mem_entries_iff.1 mem
      by_contra failed
      exact none entry lists (malformed_iff.2 ⟨plain, Attempts.eq_error_iff.2 failed⟩)
  rw [← all]
  constructor
  · rintro ⟨witnesses, made⟩
    rw [ofDisplayList_eq] at made
    cases read : (entries text).mapM readEntry with
    | ok accounts => exact ⟨accounts, rfl⟩
    | error cause =>
      rw [read] at made
      cases made
  · rintro ⟨accounts, read⟩
    exact ⟨_, ofDisplayList_of_mapM read⟩

/-- **A list that is not accepted** has a malformed entry, and this is what it is refused for. -/
theorem ofDisplayList_eq_error {fault : WitnessFault}
    (refused : ofDisplayList text = .error fault) :
    ∃ entry cause, Lists text entry ∧ Malformed entry ∧ fault = .badEntry entry.trim cause := by
  rw [ofDisplayList_eq] at refused
  cases read : (entries text).mapM readEntry with
  | ok accounts =>
    have made := ofDisplayList_of_mapM read
    rw [ofDisplayList_eq, refused] at made
    cases made
  | error cause =>
    rw [read] at refused
    cases refused
    obtain ⟨_, mem, failed⟩ := Attempts.exists_of_mapM_eq_error read
    obtain ⟨entry, lists, plain, rfl⟩ := mem_entries_iff.1 mem
    have malformed := malformed_iff.2 ⟨plain, fault, failed⟩
    rw [readEntry] at failed
    cases cause : Hex.readDisplay entry.trim 20 with
    | ok found =>
      rw [cause] at failed
      cases failed
    | error cause' =>
      rw [cause] at failed
      cases failed
      exact ⟨entry, cause', lists, malformed, rfl⟩

/-- **The accounts of a list** are those that it displays. -/
theorem contains_ofDisplayList (made : ofDisplayList text = .ok witnesses) (account : Bytes) :
    witnesses.contains account = true ↔ Displayed text account := by
  cases read : (entries text).mapM readEntry with
  | ok accounts =>
    rw [ofDisplayList_of_mapM read] at made
    cases made
    rw [Table.contains_ofList, List.map_id', mem_accounts_iff read]
  | error cause =>
    rw [ofDisplayList_eq, read] at made
    cases made

/-- Neither repetitions, blank entries and blanks nor marks and cases make a difference. -/
example :
    let zeros := List.replicate 38 '0'.toNat
    (ofDisplayList (.ofString " 0xAB" ++ zeros ++ .ofString ": :ab" ++ zeros)).toOption.map
      (·.rows) = some [List.replicate 19 0x00 ++ [0xAB]] := by decide

end WitnessSet

/-! ## Keys -/

/-- A key with one coordinate: a mark for the parity of the other one, and together they are a point
of the curve. -/
structure Standard.IsKey (key : Bytes) : Prop where
  /-- The mark and the coordinate. -/
  size : key.length = 33
  /-- The mark. -/
  mark : key.head? = some 0x02 ∨ key.head? = some 0x03
  /-- The point. -/
  point : (P256.decode? key).isSome

theorem Standard.marked_iff {mark : UInt8} {rest : Bytes} :
    (mark :: rest).head? = some 0x02 ∨ (mark :: rest).head? = some 0x03 ↔
      ¬(mark ≠ 0x02 ∧ mark ≠ 0x03) := by
  rw [List.head?_cons, Option.some.injEq, Option.some.injEq, not_and_or, not_not, not_not]

/-- The script of a key is one that checks one signature. -/
theorem Standard.IsKey.isSignature {key : Bytes} (h : IsKey key) :
    isSignature (0x21 :: key ++ [0xAC]) = true :=
  isSignature_iff.2 ⟨key, h.size, rfl⟩

/-- A key has the account of the script that checks its signature.  What is not a key has none. -/
theorem accountOfKey_eq_ok {key account : Bytes} : accountOfKey key = .ok account ↔
    Standard.IsKey key ∧ hash160 (0x21 :: key ++ [0xAC]) = account := by
  cases key with
  | nil => exact iff_of_false nofun fun ⟨key, _⟩ => nomatch key.size
  | cons mark rest =>
    rw [accountOfKey]
    split
    · next size => exact iff_of_false nofun fun ⟨key, _⟩ => size key.size
    · next size =>
      split
      · next wrong => exact iff_of_false nofun fun ⟨key, _⟩ => Standard.marked_iff.1 key.mark wrong
      · next right =>
        cases point : P256.decode? (mark :: rest) with
        | none =>
          refine iff_of_false nofun fun ⟨key, _⟩ => ?_
          have := key.point
          rw [point] at this
          cases this
        | some p =>
          have key : Standard.IsKey (mark :: rest) :=
            ⟨not_not.1 size, Standard.marked_iff.2 right, by rw [point]; rfl⟩
          dsimp only
          rw [Except.ok.injEq, and_iff_right key, Standard.signatureScript_eq]

/-! ## Answers -/

namespace WitnessSet

variable {text : RawText} {operand : Bytes} {witnesses : WitnessSet}

/-- An operand names an account, by its hash or by a key. -/
def Names (operand : Bytes) : Prop :=
  operand.length = 20 ∨ Standard.IsKey operand

/-- The account that an operand names is displayed.  The account of a key is the hash of the script
that pushes the key and checks a signature. -/
def Signed (text : RawText) (operand : Bytes) : Prop :=
  operand.length = 20 ∧ Displayed text operand ∨
    Standard.IsKey operand ∧ Displayed text (hash160 (0x21 :: operand ++ [0xAC]))

/-- Why an operand does not name an account. -/
inductive Refusal (operand : Bytes) : KeyFault → Prop where
  /-- It has the size of neither a hash nor a key. -/
  | size (hash : operand.length ≠ 20) (key : operand.length ≠ 33) :
    Refusal operand (.badWitnessSize operand.length)
  /-- It has the size of a key, but no mark for the parity. -/
  | mark (size : operand.length = 33)
    (wrong : ¬(operand.head? = some 0x02 ∨ operand.head? = some 0x03)) :
    Refusal operand .notCompressed
  /-- There is no point for it. -/
  | point (size : operand.length = 33)
    (mark : operand.head? = some 0x02 ∨ operand.head? = some 0x03)
    (none : P256.decode? operand = none) : Refusal operand .notOnCurve

/-- **Whether an account has signed** is answered for all operands that name one, and the answer is
given by the list. -/
theorem check_eq_ok (made : ofDisplayList text = .ok witnesses) {answer : Bool} :
    witnesses.check operand = .ok answer ↔
      Names operand ∧ (answer = true ↔ Signed text operand) := by
  have contains (account : Bytes) : witnesses.contains account = answer ↔
      (answer = true ↔ Displayed text account) := by
    rw [← contains_ofDisplayList made, Bool.eq_iff_iff]
    exact iff_comm
  rw [check]
  split
  · next hash =>
    replace hash : operand.length = 20 := hash
    have other : ¬Standard.IsKey operand := fun key => by
      rw [key.size] at hash
      cases hash
    rw [Except.ok.injEq, contains, Names, Signed, and_iff_right (.inl hash), and_iff_right hash,
      or_iff_left fun h => other h.1]
  · next hash =>
    replace hash : ¬operand.length = 20 := hash
    rw [Names, Signed, or_iff_right hash, or_iff_right fun h => hash h.1]
    have unnamed (none : ¬Standard.IsKey operand) {fault : KeyFault} :
        Except.error fault = .ok answer ↔ Standard.IsKey operand ∧ (answer = true ↔
          Standard.IsKey operand ∧ Displayed text (hash160 (0x21 :: operand ++ [0xAC]))) :=
      iff_of_false nofun fun h => none h.1
    split
    · next size =>
      cases account : accountOfKey operand with
      | ok found =>
        obtain ⟨key, rfl⟩ := accountOfKey_eq_ok.1 account
        rw [and_iff_right key, and_iff_right key, ← contains]
        exact (Except.ok.injEq _ _).to_iff
      | error fault =>
        refine unnamed fun key => ?_
        rw [accountOfKey_eq_ok.2 ⟨key, rfl⟩] at account
        cases account
    · next size => exact unnamed fun key => size key.size

/-- An operand is refused for what it is. -/
theorem refusal_of_check {cause : KeyFault} (failed : witnesses.check operand = .error cause) :
    Refusal operand cause := by
  rw [check] at failed
  split at failed
  · cases failed
  · next hash =>
    split at failed
    · next size =>
      cases operand with
      | nil => cases size
      | cons mark rest =>
        rw [accountOfKey, if_neg (not_not.2 size)] at failed
        split at failed
        · next wrong =>
          cases failed
          exact .mark size fun marked => Standard.marked_iff.1 marked wrong
        · next right =>
          cases point : P256.decode? (mark :: rest) with
          | some p =>
            rw [point] at failed
            cases failed
          | none =>
            rw [point] at failed
            cases failed
            exact .point size (Standard.marked_iff.2 right) point
    · next size =>
      cases failed
      exact .size hash size

open Classical in
theorem exists_check (made : ofDisplayList text = .ok witnesses) (names : Names operand) :
    ∃ answer, witnesses.check operand = .ok answer ∧ (answer = true ↔ Signed text operand) :=
  ⟨decide (Signed text operand), (check_eq_ok made).2 ⟨names, decide_eq_true_iff⟩,
    decide_eq_true_iff⟩

theorem exists_check_eq_error (made : ofDisplayList text = .ok witnesses)
    (unnamed : ¬Names operand) :
    ∃ cause, witnesses.check operand = .error cause ∧ Refusal operand cause := by
  obtain ⟨cause, failed⟩ := Attempts.eq_error_iff.2 fun ⟨_, answered⟩ =>
    unnamed ((check_eq_ok made).1 answered).1
  exact ⟨cause, failed, refusal_of_check failed⟩

end WitnessSet

end DryRun
