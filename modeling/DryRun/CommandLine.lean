import DryRun.Number.Numeral
import DryRun.Json.Writer
import DryRun.Run

/-!
# The command line

A command line is read in two steps: first the arguments are taken apart into options, which can
fail, and then the values of the options are read.  An option that is absent may come from the
environment.  What is then to be done is an `Invocation`.
-/

set_option autoImplicit false

namespace DryRun.CommandLine

/-! ## Options -/

/-- The options that take a value. -/
inductive ValueOption where
  /-- The script in hexadecimal. -/
  | script
  /-- The most gas that may be consumed. -/
  | gasLimit
  /-- Where the node is. -/
  | rpc
  /-- The accounts that have signed. -/
  | witnesses
  /-- How long to wait for an answer, in seconds. -/
  | timeout
  /-- How much to log. -/
  | logLevel
deriving DecidableEq

/-- The options that stand alone. -/
inductive Switch where
  /-- Indent the result. -/
  | pretty
  /-- Print the version. -/
  | version
  /-- Print a help text. -/
  | help
deriving DecidableEq

/-- All options that take a value. -/
def valueOptions : List ValueOption :=
  [.script, .gasLimit, .rpc, .witnesses, .timeout, .logLevel]

/-- All options that stand alone. -/
def switches : List Switch := [.pretty, .version, .help]

/-- The name of an option on the command line. -/
def ValueOption.name : ValueOption → String
  | .script => "--script"
  | .gasLimit => "--gaslimit"
  | .rpc => "--rpc"
  | .witnesses => "--wits"
  | .timeout => "--timeout"
  | .logLevel => "--log-level"

/-- The name of an option in the environment. -/
def ValueOption.variableName : ValueOption → String
  | .script => "NEO_DRYRUN_SCRIPT"
  | .gasLimit => "NEO_DRYRUN_GASLIMIT"
  | .rpc => "NEO_DRYRUN_RPC"
  | .witnesses => "NEO_DRYRUN_WITS"
  | .timeout => "NEO_DRYRUN_TIMEOUT"
  | .logLevel => "NEO_DRYRUN_LOG_LEVEL"

/-- What stands for the value of an option in the help text. -/
def ValueOption.placeholder : ValueOption → String
  | .script | .rpc | .witnesses => "TEXT"
  | .gasLimit => "INTEGER RANGE"
  | .timeout => "FLOAT RANGE"
  | .logLevel => "[" ++ "|".intercalate Settings.logLevels ++ "]"

/-- What an option is for, in lines. -/
def ValueOption.purpose : ValueOption → List String
  | .script => ["Script to execute, as hex.  [required]"]
  | .gasLimit =>
    ["Gas limit in Fixed8 units (1 GAS =", "100000000); 0 disables the limit.  [default:",
     "50000000000; x>=0]"]
  | .rpc => ["JSON-RPC endpoint of the chain-state node.", "[required]"]
  | .witnesses => ["Colon-separated script hashes treated as", "witnesses."]
  | .timeout => ["Per-request timeout in seconds.  [default:", "30.0; x>0]"]
  | .logLevel => ["[default: WARNING]"]

/-- The name of a switch. -/
def Switch.name : Switch → String
  | .pretty => "--pretty"
  | .version => "--version"
  | .help => "--help"

/-- What a switch is for, in lines. -/
def Switch.purpose : Switch → List String
  | .pretty => ["Indent the JSON result."]
  | .version => ["Show the version and exit."]
  | .help => ["Show this message and exit."]

/-! ## Taking the arguments apart -/

/-- What a command line says. -/
structure Parsed where
  /-- The values of options, latest first. -/
  values : List (ValueOption × RawText)
  /-- The switches, latest first. -/
  switches : List Switch
  /-- The arguments that belong to no option. -/
  extra : List RawText

namespace Parsed

/-- A command line that says nothing. -/
def empty : Parsed := ⟨[], [], []⟩

/-- The value of an option that was given last. -/
def value? (parsed : Parsed) (option : ValueOption) : Option RawText :=
  (parsed.values.find? fun entry => entry.1 = option).map Prod.snd

end Parsed

/-- The part of an argument before the first `=`, and the part after it, if there is one. -/
def splitValue (argument : RawText) : RawText × Option RawText :=
  match argument.dropWhile (· ≠ '='.toNat) with
  | [] => (argument, none)
  | _ :: value => (argument.takeWhile (· ≠ '='.toNat), some value)

/-- Does an argument look like an option? -/
def looksLikeOption : RawText → Bool
  | [_] => false
  | c :: _ => c = '-'.toNat
  | [] => false

/-- The option of a name. -/
def valueOption? (name : RawText) : Option ValueOption :=
  valueOptions.find? fun option => RawText.ofString option.name = name

/-- The switch of a name. -/
def switch? (name : RawText) : Option Switch :=
  switches.find? fun switch => RawText.ofString switch.name = name

/-- Take the arguments apart.  An unknown option, an option without its value and a switch with one
are refused; after `--` nothing is an option. -/
def parse : List RawText → Parsed → Option Parsed
  | [], parsed => some parsed
  | argument :: rest, parsed =>
    if argument = RawText.ofString "--" then some { parsed with extra := parsed.extra ++ rest }
    else if !looksLikeOption argument then
      parse rest { parsed with extra := parsed.extra ++ [argument] }
    else
      let (name, given) := splitValue argument
      match valueOption? name, switch? name, given with
      | some option, _, some value =>
        parse rest { parsed with values := (option, value) :: parsed.values }
      | some option, _, none =>
        match rest with
        | value :: rest => parse rest { parsed with values := (option, value) :: parsed.values }
        | [] => none
      | none, some switch, none =>
        parse rest { parsed with switches := switch :: parsed.switches }
      | none, some _, some _ => none
      | none, none, _ => none
termination_by arguments => arguments.length

/-! ## Reading the values -/

/-- The environment: the value of each variable that is set. -/
abbrev Environment := List (RawText × RawText)

/-- The value of a variable. -/
def lookup (environment : Environment) (name : String) : Option RawText :=
  (environment.find? fun entry => entry.1 = RawText.ofString name).map Prod.snd

/-- The text of an option: from the command line, or else from a variable that is not empty. -/
def textOf (parsed : Parsed) (environment : Environment) (option : ValueOption) :
    Option RawText :=
  match parsed.value? option with
  | some text => some text
  | none => (lookup environment option.variableName).filter (!·.isEmpty)

/-- A gas limit: an integer that is not negative. -/
def readGasLimit (text : RawText) : Option Json := do
  let v ← Numeral.toInt? text
  if v < 0 then none else some (.int v)

/-- A time to wait: a number above zero.  What is no number is not below zero either, and passes as
the time that is waited by default. -/
def readTimeout (text : RawText) : Option Json := do
  match ← Numeral.toReal? text with
  | .notANumber => some Settings.defaultTimeout
  | .number x => if x.isZero || x.isNegative then none else some (.float x)

/-- A letter in lower case. -/
def lower (c : Nat) : Nat :=
  if 'A'.toNat ≤ c ∧ c ≤ 'Z'.toNat then c + 32 else c

/-- A level of logging, whatever the case of its letters. -/
def readLogLevel (text : RawText) : Option Json :=
  (Settings.logLevels.find? fun level =>
    (RawText.ofString level).map lower = text.map lower).map .ofString

/-- The value of an option that has a default. -/
def readOr (text : Option RawText) (default : Json) (read : RawText → Option Json) :
    Option Json :=
  match text with
  | none => some default
  | some text => read text

/-- The settings that a command line and an environment give. -/
def settings? (parsed : Parsed) (environment : Environment) : Option Settings := do
  let text := textOf parsed environment
  let script ← text .script
  let endpoint ← text .rpc
  let gasLimit ← readOr (text .gasLimit) (.int Settings.defaultGasLimit) readGasLimit
  let timeout ← readOr (text .timeout) Settings.defaultTimeout readTimeout
  let logLevel ← readOr (text .logLevel) (.ofString Settings.defaultLogLevel) readLogLevel
  let witnesses := (text .witnesses).getD []
  return { script := .text script, gasLimit, endpoint := .text endpoint
           witnesses := .displayed witnesses, timeout, logLevel }

/-! ## What is to be done -/

/-- What a command line asks for. -/
inductive Invocation where
  /-- Print a text and stop. -/
  | print (text : String)
  /-- Refuse the command line. -/
  | refuse
  /-- Run a script. -/
  | run (settings : Settings) (indent : Bool)

/-- The text that tells the version. -/
def versionText : String := "neo-dryrun, version 0.1.0\n"

/-- The columns that the name of an option may take in the help text. -/
def nameWidth : Nat := 30

/-- The lines of the help text that explain one option: what it is for stands beside its name, or
below a name that is too long. -/
def explanation (name : String) (purpose : List String) : List String :=
  let column (text line : String) := "  " ++ text.pushn ' ' (nameWidth + 2 - text.length) ++ line
  match purpose with
  | first :: rest =>
    if name.length ≤ nameWidth then column name first :: rest.map (column "")
    else ("  " ++ name) :: purpose.map (column "")
  | [] => ["  " ++ name]

/-- What is said of an option that takes a value. -/
def ValueOption.explanation (option : ValueOption) : List String :=
  CommandLine.explanation (option.name ++ " " ++ option.placeholder) option.purpose

/-- What is said of a switch. -/
def Switch.explanation (switch : Switch) : List String :=
  CommandLine.explanation switch.name switch.purpose

/-- The text that explains the options. -/
def helpText : String :=
  let lines :=
    ["Usage: neo-dryrun [OPTIONS]", "",
     "  Dry-run a NEO smart-contract script against remote chain state.", "", "Options:"] ++
    Switch.version.explanation ++ valueOptions.flatMap ValueOption.explanation ++
    Switch.pretty.explanation ++ Switch.help.explanation
  String.join (lines.map (· ++ "\n"))

/-- What a command line asks for.  A question for the version or for help is answered before any
value is read, the first one if there are two. -/
def invocation (arguments : List RawText) (environment : Environment) : Invocation :=
  match parse arguments .empty with
  | none => .refuse
  | some parsed =>
    match parsed.switches.reverse.find? (· ≠ .pretty) with
    | some .version => .print versionText
    | some _ => .print helpText
    | none =>
      match settings? parsed environment, parsed.extra with
      | some settings, [] => .run settings (parsed.switches.contains .pretty)
      | _, _ => .refuse

/-- What a program leaves: the exit code, the text it prints, and what it reports beside that, a
line each. -/
structure Outcome where
  /-- Zero for success. -/
  exitCode : Nat
  /-- What is printed. -/
  output : String
  /-- What is reported. -/
  reports : List String

/-- The document of a receipt on lines of its own. -/
def document (receipt : Receipt) (indent : Bool) : String :=
  Json.render (if indent then Json.pretty else Json.spaced) receipt.toJson ++ "\n"

/-- Is something of a level reported where another level is asked for? -/
def isReported (asked level : String) : Bool :=
  (Settings.logLevels.dropWhile (· ≠ asked)).contains level

/-- What a run reports at a level: what the scripts said, and why the run faulted. -/
def reports (asked : String) (m : Machine World) : List String :=
  let events := if isReported asked "INFO" then m.world.events.reverse.map Event.text else []
  match m.status with
  | .faulted cause =>
    let fault := "FAULT: " ++ RawText.toString cause.message
    events ++ if isReported asked "WARNING" then [fault] else []
  | _ => events

/-- Run a script in one go.  A run that leaves no receipt ends the program. -/
def runOnce (node : Node) (settings : Settings) (indent : Bool) :
    EStateM StartFault Link Outcome := do
  let p ← prepare node settings.endpoint.plain settings
  let m := p.run node (← get)
  set m.world.link
  let said := reports (RawText.toString settings.logLevel.plain) m
  match m.leave p.configuration.script nestingLimit with
  | .ok receipt => return ⟨0, document receipt indent, said⟩
  | .error _ => return ⟨1, "", said ++ ["maximum recursion depth exceeded"]⟩

/-- Do what a command line asks for, and keep the requests. -/
def execute (node : Node) (arguments : List RawText) (environment : Environment) : Outcome × Link :=
  match invocation arguments environment with
  | .print text => (⟨0, text, []⟩, .fresh)
  | .refuse => (⟨2, "", ["Try 'neo-dryrun --help' for help."]⟩, .fresh)
  | .run settings indent =>
    match runOnce node settings indent .fresh with
    | .ok outcome link => (outcome, link)
    | .error cause link => (⟨1, "", [s!"Error: {RawText.toString cause.message}"]⟩, link)

end DryRun.CommandLine
