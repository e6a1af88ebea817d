import DryRun.Node.Transport
import DryRun.Text.Utf8

/-!
# Messages of the hypertext protocol

What is sent to a server that speaks HTTP/1.1, and what its answer says.  Every request asks the
server to close the connection, so an answer is all that arrives before the connection ends, and
reading it is a function on bytes.
-/

set_option autoImplicit false

namespace DryRun.Http

/-! ## Addresses -/

/-- Where a server listens, and what it is asked for. -/
structure Address where
  /-- The name of the server. -/
  host : String
  /-- The number of the service on it. -/
  service : Nat
  /-- What it is asked for. -/
  target : String
deriving DecidableEq

/-- The number of the service if none is given. -/
def defaultService : Nat := 80

/-- The number of a service: nothing, or a colon and decimal digits. -/
def readService : List Char → Option Nat
  | [] => some defaultService
  | ':' :: digits =>
    if digits.all Char.isDigit then
      let service := Nat.ofDigitChars 10 digits 0
      if digits.isEmpty then some defaultService
      else if service < 0x10000 then some service
      else none
    else none
  | _ => none

/-- The address that an endpoint names, if it speaks this protocol. -/
def Address.ofEndpoint? (endpoint : Endpoint) : Option Address := do
  if endpoint.scheme ≠ RawText.ofString "http" then none
  let authority := (RawText.toString endpoint.host).toList
  let host := authority.takeWhile (· ≠ ':')
  let service ← readService (authority.drop host.length)
  if host.isEmpty then none
  let target := if endpoint.target.isEmpty then "/" else RawText.toString endpoint.target
  return ⟨String.ofList host, service, target⟩

/-! ## Requests -/

/-- The end of a line. -/
def lineEnd : String := "\x0d\n"

/-- The bytes of a message on its way to an address. -/
def encode (address : Address) (post : Post) : Bytes :=
  let body := Utf8.encode (RawText.toString post.body)
  let headers := Post.headers ++
    [("host", s!"{address.host}:{address.service}"), ("content-length", toString body.length),
     ("accept-encoding", "identity"), ("connection", "close")]
  let head := s!"{Post.verb} {address.target} HTTP/1.1" ++ lineEnd ++
    String.join (headers.map fun (name, value) => s!"{name}: {value}" ++ lineEnd) ++ lineEnd
  Utf8.encode head ++ body

/-! ## Answers -/

/-- The first line of some bytes, without its end, and what follows it. -/
def splitLine : Bytes → Bytes × Bytes
  | [] => ([], [])
  | 0x0D :: 0x0A :: rest => ([], rest)
  | 0x0A :: rest => ([], rest)
  | b :: rest =>
    let (line, after) := splitLine rest
    (b :: line, after)

/-- At least one byte belongs to a line, if there is any. -/
theorem length_splitLine_le (bytes : Bytes) :
    (splitLine bytes).2.length ≤ bytes.length - 1 := by
  fun_induction splitLine bytes with
  | case1 => exact Nat.zero_le _
  | case2 rest => exact Nat.le_succ _
  | case3 rest => exact Nat.le_refl _
  | case4 b rest _ _ line after h ih =>
    rw [h] at ih
    exact Nat.le_trans ih (Nat.sub_le _ _)

/-- What follows a line is shorter. -/
theorem length_splitLine_lt (b : UInt8) (more : Bytes) :
    (splitLine (b :: more)).2.length < (b :: more).length :=
  Nat.lt_succ_of_le (length_splitLine_le (b :: more))

/-- A line as text. -/
def lineText (line : Bytes) : String := Utf8.decodeLossy line

/-- The headers at the beginning of some bytes, with names in lower case, and what follows the
empty line after them. -/
def readHeaders : Bytes → List (String × String) × Bytes
  | [] => ([], [])
  | b :: more =>
    let line := (splitLine (b :: more)).1
    let rest := (splitLine (b :: more)).2
    if line.isEmpty then ([], rest)
    else
      let (headers, body) := readHeaders rest
      let text := (lineText line).toList
      let name := text.takeWhile (· ≠ ':')
      let value := text.drop (name.length + 1)
      ((String.ofList (name.map Char.toLower), (String.ofList value).trimAscii.toString) ::
        headers, body)
termination_by bytes => bytes.length
decreasing_by exact length_splitLine_lt b more

/-- A number in hexadecimal digits, as far as they go. -/
def readSize (line : Bytes) : Option Nat :=
  match (line.map fun b => Hex.digitValue? b.toNat).takeWhile Option.isSome with
  | [] => none
  | digits => some (digits.foldl (fun n d => 16 * n + d.getD 0) 0)

/-- The content of chunks, each after a line with its size, up to an empty one; `received` is the
content of the chunks before them. -/
def readChunks (received : Bytes) : Bytes → Except TransportFailure Bytes
  | [] => .error (.incomplete received.length none)
  | b :: more =>
    let rest := (splitLine (b :: more)).2
    match readSize (splitLine (b :: more)).1 with
    | none => .error (.incomplete received.length none)
    | some 0 => .ok received
    | some (size + 1) =>
      let chunk := rest.take (size + 1)
      if chunk.length < size + 1 then .error (.incomplete (received ++ chunk).length none)
      else readChunks (received ++ chunk) (rest.drop (size + 3))
termination_by bytes => bytes.length
decreasing_by
  have := length_splitLine_lt b more
  rw [List.length_drop]
  omega

/-- The body of an answer: chunks if a header says so, else as many bytes as a header says, else
everything up to the end. -/
def readBody (headers : List (String × String)) (rest : Bytes) : Except TransportFailure Bytes :=
  if headers.lookup "transfer-encoding" = some "chunked" then readChunks [] rest
  else
    match (headers.lookup "content-length").bind String.toNat? with
    | none => .ok rest
    | some size =>
      if rest.length < size then .error (.incomplete rest.length (some (size - rest.length)))
      else .ok (rest.take size)

/-- The status in the first line of an answer, and the reason for it. -/
def readStatus (line : Bytes) : Except TransportFailure (Nat × String) :=
  let text := lineText line
  match text.splitOn " " with
  | version :: code :: reason =>
    match code.toNat? with
    | some status =>
      if version.startsWith "HTTP/" then .ok (status, " ".intercalate reason)
      else .error (.badStatusLine (RawText.ofString text))
    | none => .error (.badStatusLine (RawText.ofString text))
  | _ => .error (.badStatusLine (RawText.ofString text))

/-- Is a status a success? -/
def isSuccess (status : Nat) : Bool := 200 ≤ status && status < 300

/-- What an answer says. -/
def decode (answer : Bytes) : Except TransportFailure Bytes := do
  let (line, rest) := splitLine answer
  let (status, reason) ← readStatus line
  let (headers, body) := readHeaders rest
  if isSuccess status then readBody headers body
  else throw (.status status (.ofString reason))

end DryRun.Http
