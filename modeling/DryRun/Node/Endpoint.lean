import DryRun.Text.RawText

/-!
# Endpoints

An endpoint is given as text and names a scheme and, behind two slashes, a host.  Blanks, angle
brackets and a leading `URL:` around it do not count, and neither does a fragment mark with nothing
behind it.
-/

set_option autoImplicit false

namespace DryRun

/-- An endpoint taken apart. -/
structure Endpoint where
  /-- The whole text, without what surrounds it. -/
  address : RawText
  /-- The scheme, in lower case. -/
  scheme : RawText
  /-- The host, with what belongs to it; empty if none is named. -/
  host : RawText
  /-- What is asked for. -/
  target : RawText

namespace Endpoint

/-- A text without the brackets around it. -/
def dropBrackets (text : RawText) : RawText :=
  if text.head? = some '<'.toNat ∧ text.getLast? = some '>'.toNat then
    RawText.trim (text.drop 1).dropLast
  else text

/-- A text without the mark in front of it. -/
def dropMark (text : RawText) : RawText :=
  let mark := RawText.ofString "URL:"
  if text.take mark.length = mark then RawText.trim (text.drop mark.length) else text

/-- The part before the last fragment mark, and the fragment. -/
def splitFragment (text : RawText) : RawText × RawText :=
  match (text.reverse.span (· ≠ '#'.toNat)) with
  | (_, []) => (text, [])
  | (fragment, _ :: before) => (before.reverse, fragment.reverse)

/-- A letter in lower case. -/
def lower (c : Nat) : Nat :=
  if 'A'.toNat ≤ c ∧ c ≤ 'Z'.toNat then c + 32 else c

/-- The address in a text, in front of the fragment and with it. -/
def addresses (text : RawText) : RawText × RawText :=
  let (before, fragment) := splitFragment (dropMark (dropBrackets text.trim))
  (before, if fragment.isEmpty then before else before ++ '#'.toNat :: fragment)

/-- The scheme of an address, and what follows it. -/
def splitScheme? (address : RawText) : Option (RawText × RawText) :=
  match address.span fun c => c ≠ '/'.toNat ∧ c ≠ ':'.toNat with
  | (scheme, c :: rest) =>
    if c = ':'.toNat ∧ !scheme.isEmpty then some (scheme.map lower, rest) else none
  | (_, []) => none

/-- The host behind two slashes, and what is asked for. -/
def splitHost (text : RawText) : RawText × RawText :=
  if text.take 2 = RawText.ofString "//" then
    let (host, target) :=
      (text.drop 2).span fun c => c ≠ '/'.toNat ∧ c ≠ '?'.toNat ∧ c ≠ '#'.toNat
    (host, if target.head? = some '/'.toNat ∨ target.isEmpty then target else '/'.toNat :: target)
  else ([], text)

/-- The endpoint that a text names, or the address that names none. -/
def read (text : RawText) : Except RawText Endpoint :=
  let (before, address) := addresses text
  match splitScheme? before with
  | none => .error address
  | some (scheme, rest) =>
    let (host, target) := splitHost rest
    .ok { address, scheme, host, target }

/-- Why no connection to an endpoint can even be tried. -/
def obstacle (endpoint : Endpoint) : RawText :=
  let scheme := RawText.toString endpoint.scheme
  if endpoint.host.isEmpty ∧ (scheme = "http" ∨ scheme = "https") then
    .ofString "no host given"
  else if endpoint.host.isEmpty ∧ scheme = "ftp" then .ofString "ftp error: no host given"
  else .ofString "unknown url type: " ++ endpoint.scheme

end Endpoint

end DryRun
