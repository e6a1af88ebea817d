import DryRun.Json.Display
import DryRun.Machine.GasLimit
import DryRun.World.Witnesses

/-!
# Settings

What a user asks for, as values of a document, and the configuration of a run that they amount to.
Checking stops at the first setting that is wrong.
-/

set_option autoImplicit false

namespace DryRun

/-- How the witnesses of a run are given. -/
inductive WitnessSetting where
  /-- Not at all. -/
  | none
  /-- As a list of displayed accounts. -/
  | displayed (text : RawText)
  /-- As accounts. -/
  | accounts (accounts : List Bytes)
  /-- As something else. -/
  | other

/-- What a user asks for. -/
structure Settings where
  /-- The script in hexadecimal. -/
  script : Json
  /-- The most gas that may be consumed. -/
  gasLimit : Json
  /-- Where the node is. -/
  endpoint : Json
  /-- The accounts that have signed. -/
  witnesses : WitnessSetting
  /-- How long to wait for an answer, in seconds. -/
  timeout : Json
  /-- How much to log. -/
  logLevel : Json

namespace Settings

/-- The gas limit if none is given: 500 gas. -/
def defaultGasLimit : Int := 50000000000

/-- How long to wait if nothing is said. -/
def defaultTimeout : Json := .float (.ofInt 30)

/-- How much to log if nothing is said. -/
def defaultLogLevel : String := "WARNING"

/-- How much can be logged. -/
def logLevels : List String := ["DEBUG", "INFO", "WARNING", "ERROR", "CRITICAL"]

end Settings

/-- The configuration of a run. -/
structure Configuration where
  /-- The script. -/
  script : Bytes
  /-- The most gas that may be consumed. -/
  gasLimit : GasLimit
  /-- The accounts that have signed. -/
  witnesses : WitnessSet
  /-- How long to wait for an answer, in seconds. -/
  timeout : Json
  /-- How much to log. -/
  logLevel : Json

/-- A cause for which settings are refused. -/
inductive SettingsFault where
  /-- There is no node. -/
  | noEndpoint
  /-- There is no script. -/
  | noScript
  /-- The gas limit is not a natural number. -/
  | gasLimit (given : Json)
  /-- The time to wait is not positive. -/
  | timeout (given : Json)
  /-- The time to wait is not a number. -/
  | timeoutKind
  /-- There is no such level of logging. -/
  | logLevel (given : Json)
  /-- The script is not hexadecimal. -/
  | script (cause : FormatError)
  /-- The witnesses are not accounts. -/
  | witnesses (cause : WitnessFault)
  /-- The witnesses are not given in a known way. -/
  | witnessesKind

/-- The wording of each cause. -/
def SettingsFault.message : SettingsFault → String
  | .noEndpoint => "an RPC endpoint is required"
  | .noScript => "a script is required"
  | .gasLimit given => s!"gas limit must be a non-negative integer, got {given.display}"
  | .timeout given => s!"timeout must be positive, got {given.display}"
  | .timeoutKind => "timeout must be a number"
  | .logLevel given => s!"unknown log level {given.display}"
  | .script cause => s!"script is not valid hex: {cause.message}"
  | .witnesses cause => cause.message
  | .witnessesKind => "witnesses must be a list"

namespace Settings

/-- The gas limit of a setting: an integer that is not negative, or a truth value. -/
def readGasLimit (given : Json) : Except SettingsFault GasLimit :=
  match given with
  | .int v => if v < 0 then .error (.gasLimit given) else .ok (.units v)
  | .bool b => .ok (.flag b)
  | _ => .error (.gasLimit given)

/-- Is a number zero or below?  A truth value counts as zero or one. -/
def isNotPositive? : Json → Option Bool
  | .int v => some (v ≤ 0)
  | .float x => some (x.isZero || x.isNegative)
  | .bool b => some !b
  | _ => none

/-- Refuse a time to wait that is not positive. -/
def checkTimeout (given : Json) : Except SettingsFault Unit :=
  match isNotPositive? given with
  | none => .error .timeoutKind
  | some true => .error (.timeout given)
  | some false => .ok ()

/-- A letter in upper case, as far as the names of levels have it; the dotless `ı` counts as the
small letter of `I`. -/
def upper (c : Nat) : Nat :=
  if 'a'.toNat ≤ c ∧ c ≤ 'z'.toNat then c - 32 else if c = 0x131 then 'I'.toNat else c

/-- Refuse a level of logging that does not exist; the case of letters does not matter. -/
def checkLogLevel (given : Json) : Except SettingsFault Unit :=
  let name := given.plain.map upper
  if logLevels.any fun level => RawText.ofString level = name then .ok ()
  else .error (.logLevel given)

/-- The script of a setting. -/
def readScript (given : Json) : Except SettingsFault Bytes :=
  match given with
  | .text t => (Hex.read t).mapError .script
  | other => .error (.script (.notHexText other.kindName))

/-- The accounts of a setting. -/
def readWitnesses : WitnessSetting → Except SettingsFault WitnessSet
  | .none => .ok .empty
  | .displayed text => (WitnessSet.ofDisplayList text).mapError .witnesses
  | .accounts accounts => (WitnessSet.ofAccounts accounts).mapError .witnesses
  | .other => .error .witnessesKind

/-- The configuration that settings amount to. -/
def configure (s : Settings) : Except SettingsFault Configuration := do
  if !s.endpoint.isPresent then throw .noEndpoint
  if !s.script.isPresent then throw .noScript
  let gasLimit ← readGasLimit s.gasLimit
  checkTimeout s.timeout
  checkLogLevel s.logLevel
  let script ← readScript s.script
  let witnesses ← readWitnesses s.witnesses
  return { script, gasLimit, witnesses, timeout := s.timeout, logLevel := s.logLevel }

end Settings

end DryRun
