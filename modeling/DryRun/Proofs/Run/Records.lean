import DryRun.Proofs.Chain.Contract
import DryRun.Proofs.Chain.Records
import DryRun.Proofs.Run.History
import DryRun.Proofs.Text.Utf8

/-!
# Records survive being written

What the node has was written by somebody, so reading it says that the records of a chain survive
one direction.  The other direction concerns what a run makes: the fields of a contract that is
deployed are bytes that a script has chosen, under other limits than those a contract is read with,
and the texts among them need not be UTF-8.  They are kept as text with replacement characters, and
text can always be written (`Exec.returns_popNewContract_fits`).  Replacing makes a text longer, but
not so much longer that it could not be read any more.

`records_round_trip` puts together what holds of all records.
-/

set_option autoImplicit false

namespace DryRun

/-! ## Contracts that are deployed -/

namespace Exec

theorem returns_popText (limit : Nat) (what : String) :
    Returns (fun text => (Utf8.encode text).length ≤ 8 * limit + 4) (popText limit what) := by
  refine (returns_popField limit what).bind fun data short => .pure ?_
  have := Utf8.length_encode_decodeLossy_le data
  omega

/-- **Whatever a script describes a contract with**, the contract is one that can be read. -/
theorem returns_popNewContract_fits : Returns Contract.Fits popNewContract := by
  refine (returns_popField _ _).bind fun script h₁ => (returns_popField _ _).bind
    fun paramList h₂ => .bind_right fun returnType => .bind_right fun properties =>
    (returns_popText _ _).bind fun name h₃ => (returns_popText _ _).bind fun codeVersion h₄ =>
    (returns_popText _ _).bind fun author h₅ => (returns_popText _ _).bind fun email h₆ =>
    (returns_popText _ _).bind fun description h₇ => .pure ?_
  have script := Nat.le_trans h₁ (show maxItemSize ≤ Reader.maxFieldSize by decide)
  have paramList := Nat.le_trans h₂ (show maxShortField ≤ Reader.maxFieldSize by decide)
  have short : 8 * maxShortField + 4 ≤ Reader.maxFieldSize := by decide
  have long : 8 * maxDescription + 4 ≤ Reader.maxFieldSize := by decide
  refine ⟨script, paramList, ?_⟩
  simp only [List.forall_mem_cons]
  exact ⟨Nat.le_trans h₃ short, Nat.le_trans h₄ short, Nat.le_trans h₅ short,
    Nat.le_trans h₆ short, Nat.le_trans h₇ long, fun _ mem => absurd mem List.not_mem_nil⟩

/-- What is deployed has been described on the stack. -/
theorem fits_of_mem_newChanges {setting : Setting} {m : Machine World} {d : Deployed}
    {creator : Bytes} (mem : .deployed d creator ∈ newChanges setting m) : d.contract.Fits := by
  obtain ⟨contract, m₁, described, mem⟩ := mem_behind.1 mem
  obtain ⟨found, m₂, -, mem⟩ := mem_behind.1 mem
  cases found with
  | some found => cases mem
  | none =>
    cases List.mem_singleton.1 mem
    exact returns_popNewContract_fits _ _ _ described

theorem eq_destroyed_of_mem_destroyChanges {setting : Setting} {m : Machine World}
    {scriptHash : Bytes} {change : Change} (mem : change ∈ destroyChanges setting scriptHash m) :
    change = .destroyed scriptHash := by
  obtain ⟨found, m', -, mem⟩ := mem_behind.1 mem
  cases found with
  | some found => exact List.mem_singleton.1 mem
  | none => cases mem

end Exec

/-- A system call deploys only what can be read. -/
theorem Syscall.fits_of_mem_changes {setting : Setting} {call : Syscall} {m : Machine World}
    {d : Deployed} {creator : Bytes} (mem : .deployed d creator ∈ call.changes setting m) :
    d.contract.Fits := by
  rw [changes.eq_def] at mem
  split at mem
  · exact Exec.fits_of_mem_newChanges mem
  · -- a migration deploys before it destroys
    rcases List.mem_append.1 mem with mem | mem
    · obtain ⟨found, m₁, -, mem⟩ := Exec.mem_behind.1 mem
      rcases List.mem_append.1 mem with mem | mem
      · cases Exec.eq_destroyed_of_mem_destroyChanges mem
      · split at mem
        · cases List.mem_singleton.1 mem
        · cases mem
    · exact Exec.fits_of_mem_newChanges mem
  · cases Exec.eq_destroyed_of_mem_destroyChanges mem
  case h_7 => cases mem
  all_goals
    obtain ⟨deposit, m', -, mem⟩ := Exec.mem_behind.1 mem
    cases (Exec.Deposit.eq_of_mem_changes mem).2

/-- **Every contract that a run has deployed can be read.** -/
theorem Machine.fits_of_mem_history {setting : Setting} {limit : GasLimit} {start : Machine World}
    {n : Nat} {d : Deployed} {creator : Bytes}
    (mem : .deployed d creator ∈ start.history setting limit n) : d.contract.Fits := by
  obtain ⟨k, -, mem⟩ := mem_history.1 mem
  obtain ⟨call, m, -, mem⟩ := exists_call_of_mem_changes mem
  exact call.fits_of_mem_changes mem

/-! ## All records -/

/-- A contract can be written, and the same is read again. -/
def Contract.Survives (c : Contract) : Prop :=
  c.writer [] = .ok () c.write ∧ Reader.readAll Contract.read c.write = .ok c

theorem Contract.Fits.survives {c : Contract} (h : c.Fits) : c.Survives :=
  ⟨writes h [], local_read.readAll_iff.2 (parses_read h)⟩

/-- The database keeps a record with one byte in front, which means nothing. -/
def Framed {α : Type} (read : Reader α) : Prop :=
  ∀ data a, Reader.readAll (Reader.record read) data = .ok a ↔
    ∃ first rest, data = first :: rest ∧ Reader.readAll read rest = .ok a

/-- A contract was deployed in the first steps of a run, and may still be there. -/
def Machine.HasDeployed (setting : Setting) (limit : GasLimit) (start : Machine World) (n : Nat)
    (d : Deployed) : Prop :=
  (∃ creator, .deployed d creator ∈ start.history setting limit n) ∨
    ∃ scriptHash, (start.runFor (setting.host limit) n).world.contracts.lookup scriptHash =
      some (some d)

theorem fits_of_hasDeployed {setting : Setting} {limit : GasLimit} {script : Bytes}
    {dynamicInvoke : Bool} {link : Link} {n : Nat} {d : Deployed}
    (h : (Machine.load script dynamicInvoke (.fresh link)).HasDeployed setting limit n d) :
    d.contract.Fits := by
  rcases h with ⟨creator, mem⟩ | ⟨scriptHash, stands⟩
  · exact Machine.fits_of_mem_history mem
  · have knows := knows_history setting limit script dynamicInvoke link n
    obtain ⟨creator, -, fate, -⟩ := (stands_of_lookup knows stands).creator
    exact Machine.fits_of_mem_history (mem_of_fate fate).1

/-- **Records survive being written.**  A header, an account, an asset or a contract that has been
read can be written without any number in it being refused, in no more bytes than there were, and
from these the same is read again.  A contract that a run has deployed can be written and read
again, whatever the script has supplied. -/
theorem records_round_trip :
    RoundTrips Header.read Header.writer Header.write ∧
    RoundTrips Account.read Account.writer Account.write ∧
    RoundTrips Asset.read Asset.writer Asset.write ∧
    RoundTrips Contract.read Contract.writer Contract.write ∧
    (Framed Account.read ∧ Framed Asset.read ∧ Framed Contract.read) ∧
    (∀ setting limit script dynamicInvoke link n d,
      (Machine.load script dynamicInvoke (.fresh link)).HasDeployed setting limit n d →
        d.contract.Survives) :=
  ⟨.of_fits Header.local_read Header.takes_read (fun _ => Header.parses_read)
      fun _ => Header.writes,
    .of_fits Account.local_read Account.takes_read (fun _ => Account.parses_read)
      fun _ => Account.writes,
    .of_fits Asset.local_read Asset.takes_read (fun _ => Asset.parses_read) fun _ => Asset.writes,
    .of_fits Contract.local_read Contract.takes_read (fun _ => Contract.parses_read)
      fun _ => Contract.writes,
    ⟨fun _ _ => readAll_record_iff Account.local_read,
      fun _ _ => readAll_record_iff Asset.local_read,
      fun _ _ => readAll_record_iff Contract.local_read⟩,
    fun _ _ _ _ _ _ _ h => (fits_of_hasDeployed h).survives⟩

end DryRun
