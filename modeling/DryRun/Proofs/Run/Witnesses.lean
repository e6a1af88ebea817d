import DryRun.Proofs.Node.Answers
import DryRun.Proofs.Run.Iterators
import DryRun.Proofs.Run.Receipt
import DryRun.Proofs.World.Witnesses

/-!
# Witnesses in a run

A run is configured with a list of displayed accounts, and a script asks whether an account has
signed.  The list is read when the run is prepared, before the node is asked anything, and it is the
list alone that the answers depend on.

* `Settings.configure_displaying` — the list is the last of the settings that is read.
* `Machine.AsksWitness.answers` — what a step comes to that asks for a witness.
* `check_witness_follows_list` — what this means for runs.
-/

set_option autoImplicit false

namespace DryRun

variable {setting : Setting} {limit : GasLimit} {m : Machine World} {item : Item} {rest : List Item}

/-! ## Settings with a list -/

namespace Settings

/-- The settings with a list of displayed accounts. -/
def displaying (settings : Settings) (text : RawText) : Settings :=
  { settings with witnesses := .displayed text }

/-- The settings without witnesses. -/
def unsigned (settings : Settings) : Settings := { settings with witnesses := .none }

/-- The list is read last. -/
theorem configure_displaying (settings : Settings) (text : RawText) :
    (settings.displaying text).configure = do
      let configuration ← settings.unsigned.configure
      let witnesses ← (WitnessSet.ofDisplayList text).mapError SettingsFault.witnesses
      return { configuration with witnesses } := by
  rw [configure, configure, displaying, unsigned]
  cases settings.endpoint.isPresent with
  | false => rfl
  | true =>
  cases settings.script.isPresent with
  | false => rfl
  | true =>
  cases readGasLimit settings.gasLimit with
  | error cause => rfl
  | ok gasLimit =>
  cases checkTimeout settings.timeout with
  | error cause => rfl
  | ok u =>
  cases checkLogLevel settings.logLevel with
  | error cause => rfl
  | ok u =>
  cases readScript settings.script with
  | error cause => rfl
  | ok script => rfl

variable {settings : Settings} {text : RawText}

/-- Settings that are accepted have the accounts of the list. -/
theorem ofDisplayList_of_configure {configuration : Configuration}
    (accepted : (settings.displaying text).configure = .ok configuration) :
    WitnessSet.ofDisplayList text = .ok configuration.witnesses := by
  rw [configure_displaying] at accepted
  cases others : settings.unsigned.configure with
  | error cause =>
    rw [others] at accepted
    cases accepted
  | ok unsigned =>
    rw [others] at accepted
    cases list : WitnessSet.ofDisplayList text with
    | error cause =>
      rw [list] at accepted
      cases accepted
    | ok witnesses =>
      rw [list] at accepted
      cases accepted
      rfl

/-- Settings that are refused were refused without the list, or the list has a malformed entry. -/
theorem configure_displaying_eq_error {cause : SettingsFault}
    (refused : (settings.displaying text).configure = .error cause) :
    settings.unsigned.configure = .error cause ∨
    ∃ entry why, WitnessSet.Lists text entry ∧ WitnessSet.Malformed entry ∧
      cause = .witnesses (.badEntry entry.trim why) := by
  rw [configure_displaying] at refused
  cases others : settings.unsigned.configure with
  | error cause' =>
    rw [others] at refused
    cases refused
    exact .inl rfl
  | ok unsigned =>
    rw [others] at refused
    cases list : WitnessSet.ofDisplayList text with
    | error fault =>
      rw [list] at refused
      cases refused
      obtain ⟨entry, why, lists, malformed, rfl⟩ := WitnessSet.ofDisplayList_eq_error list
      exact .inr ⟨entry, why, lists, malformed, rfl⟩
    | ok witnesses =>
      rw [list] at refused
      cases refused

end Settings

section

variable {node : Node} {endpoint : RawText} {settings : Settings} {link link' : Link}

/-- Settings that are wrong are refused before anything is asked. -/
theorem prepare_of_configure_eq_error {cause : SettingsFault}
    (refused : settings.configure = .error cause) :
    prepare node endpoint settings link = .error (.settings cause) link := by
  rw [prepare, refused]
  rfl

theorem configure_of_prepare_eq_error {cause : SettingsFault}
    (refused : prepare node endpoint settings link = .error (.settings cause) link') :
    settings.configure = .error cause := by
  cases configured : settings.configure with
  | error cause' =>
    rw [prepare_of_configure_eq_error configured] at refused
    cases refused
    rfl
  | ok configuration =>
    rw [prepare_eq configured] at refused
    cases height : node.answer .currentHeight link with
    | ok height link' =>
      rw [height] at refused
      cases refused
    | error cause link' =>
      rw [height] at refused
      cases refused

/-- What is prepared has the configuration of the settings. -/
theorem configure_of_prepare {p : Prepared}
    (prepared : prepare node endpoint settings link = .ok p link') :
    settings.configure = .ok p.configuration := by
  cases configured : settings.configure with
  | error cause =>
    rw [prepare_of_configure_eq_error configured] at prepared
    cases prepared
  | ok configuration =>
    rw [prepare_eq configured] at prepared
    cases height : node.answer .currentHeight link with
    | ok height link' =>
      rw [height] at prepared
      cases prepared
      rfl
    | error cause link' =>
      rw [height] at prepared
      cases prepared

end

/-! ## The call -/

theorem Exec.runtime_checkWitness_eq (items : m.stack.items = item :: rest) :
    runtime setting .checkWitness m =
      match item.toBytes with
      | .error cause => .error (.item cause) (m.withItems rest)
      | .ok operand =>
        match setting.witnesses.check operand with
        | .error cause => .error (.syscall (.key cause)) (m.withItems rest)
        | .ok answer => .ok () (m.withItems (.ofBool answer :: rest)) := by
  cases form : item.toBytes with
  | error cause =>
    rw [runtime, bind_eq, popBytes, bind_eq, pop_of_items items]
    dsimp only
    rw [form]
    rfl
  | ok operand =>
    rw [runtime, bind_eq, popBytes_of_items items form]
    dsimp only
    rw [checkWitness]
    cases setting.witnesses.check operand <;> rfl

/-! ## What the call comes to -/

namespace Machine

/-- The next step asks whether an account has signed, and this is the operand. -/
def AsksWitness (setting : Setting) (limit : GasLimit) (m : Machine World) (item : Item)
    (rest : List Item) : Prop :=
  (∃ m₁, m.call? setting limit = some (.runtime .checkWitness, m₁)) ∧ m.stack.items = item :: rest

/-- What becomes of an operand. -/
structure AnswersWitness (text : RawText) (m m' : Machine World) (item : Item) (rest : List Item) :
    Prop where
  /-- If it names an account, the answer takes its place: this account has signed just if the list
  displays it.  The node is not asked. -/
  answer : ∀ operand, item.toBytes = .ok operand → WitnessSet.Names operand →
    ∃ answer, m'.GoesOn (.ofBool answer) rest ∧ m'.world = m.world ∧
      (answer = true ↔ WitnessSet.Signed text operand)
  /-- If it names none, the run fails for the cause of this. -/
  unnamed : ∀ operand, item.toBytes = .ok operand → ¬WitnessSet.Names operand →
    ∃ cause, m'.status = .faulted (.syscall (.key cause)) ∧ WitnessSet.Refusal operand cause
  /-- It fails as well if the operand does not have a byte form. -/
  kind : ∀ cause, item.toBytes = .error cause → m'.status = .faulted (.item cause)

/-- **A step that asks for a witness** answers by the list. -/
theorem AsksWitness.answers {text : RawText} (h : m.AsksWitness setting limit item rest)
    (room : m.HasRoom) (made : WitnessSet.ofDisplayList text = .ok setting.witnesses) :
    AnswersWitness text m (m.step (setting.host limit)) item rest := by
  obtain ⟨⟨m₁, call⟩, items⟩ := h
  have begins := begins_of_call? call
  have run : (Syscall.runtime .checkWitness).run setting m₁ = _ :=
    Exec.runtime_checkWitness_eq (by rw [begins.stack, items])
  rw [step_of_call? call, run]
  constructor
  case answer =>
    intro operand form names
    obtain ⟨answer, check, signed⟩ := WitnessSet.exists_check made names
    have fits : ¬(Item.ofBool answer :: rest).length + m₁.alt.depth > maxStackItems := by
      have before := room begins.executes.1
      rw [Stack.depth, items, List.length_cons] at before
      rw [begins.alt, List.length_cons]
      omega
    rw [form]
    dsimp only
    rw [check]
    dsimp only
    rw [if_neg (by exact fits)]
    have running := status_of_call? call
    exact ⟨answer, ⟨rfl, running⟩, begins.world, signed⟩
  case unnamed =>
    intro operand form unnamed
    obtain ⟨cause, check, refusal⟩ := WitnessSet.exists_check_eq_error made unnamed
    rw [form]
    dsimp only
    rw [check]
    exact ⟨cause, rfl, refusal⟩
  case kind =>
    intro cause form
    rw [form]
    rfl

end Machine

/-! ## Runs -/

/-- What comes of settings with a list of displayed accounts. -/
structure Settings.FollowsList (settings : Settings) (node : Node) (endpoint : RawText)
    (link : Link) (text : RawText) : Prop where
  /-- An entry without blanks displays an account just if it is what is written for the account, but
  for the mark and the case of letters. -/
  display : ∀ entry account, (∀ c ∈ entry, RawText.isBlank c = false) →
    (Hex.Displays 20 account entry ↔ account.length = 20 ∧
      (Hex.dropMark entry).map Hex.lower = RawText.ofString (Hex.display account))
  /-- What pushes a key and checks is a script that checks one signature. -/
  script : ∀ key, Standard.IsKey key → Standard.isSignature (0x21 :: key ++ [0xAC]) = true
  /-- A list with a malformed entry is refused before the node is asked anything. -/
  refused : ∀ entry, WitnessSet.Lists text entry → WitnessSet.Malformed entry →
    ∃ cause, prepare node endpoint (settings.displaying text) link = .error (.settings cause) link
  /-- Settings are refused for a list only if it has a malformed entry, which is then named. -/
  cause : ∀ cause link', prepare node endpoint (settings.displaying text) link =
      .error (.settings cause) link' →
    settings.unsigned.configure = .error cause ∨
    ∃ entry why, WitnessSet.Lists text entry ∧ WitnessSet.Malformed entry ∧
      cause = .witnesses (.badEntry entry.trim why)
  /-- In every state of every run that was prepared with the list, a call that asks for a witness
  answers by the list. -/
  answers : ∀ p link', prepare node endpoint (settings.displaying text) link = .ok p link' →
    ∀ link n item rest,
      (p.state node link n).AsksWitness (p.setting node) p.configuration.gasLimit item rest →
      Machine.AnswersWitness text (p.state node link n) (p.state node link (n + 1)) item rest

/-- **Witnesses are checked by the list that is configured**, at any point of any run. -/
theorem check_witness_follows_list (settings : Settings) (node : Node) (endpoint : RawText)
    (link : Link) (text : RawText) : settings.FollowsList node endpoint link text where
  display entry account plain := Hex.displays_iff_display (by decide) plain
  script key isKey := isKey.isSignature
  refused entry lists malformed := by
    cases configured : (settings.displaying text).configure with
    | error cause => exact ⟨cause, prepare_of_configure_eq_error configured⟩
    | ok configuration =>
      have made := Settings.ofDisplayList_of_configure configured
      exact absurd malformed (WitnessSet.exists_ofDisplayList.1 ⟨_, made⟩ entry lists)
  cause cause link' refused :=
    Settings.configure_displaying_eq_error (configure_of_prepare_eq_error refused)
  answers p link' prepared link n item rest asks := by
    have made := Settings.ofDisplayList_of_configure (configure_of_prepare prepared)
    have orderly := Machine.orderly_runFor ((p.setting node).host_calm p.configuration.gasLimit)
      (Machine.orderly_load p.configuration.script true (World.fresh link)) n
    have room : (p.state node link n).HasRoom := fun running => orderly.items (.inl running)
    have step := Machine.runFor_succ ((p.setting node).host p.configuration.gasLimit)
      (p.start link) n
    rw [Prepared.state, Prepared.state, step]
    exact asks.answers room made

end DryRun
