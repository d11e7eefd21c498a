import SipxClstr.Sip.Kernel

/-!
# A reference kernel

A concrete kernel to run the model with.  It parses `sip` and `sips` URIs with
a host name or an IPv4 address, `name-addr` and `addr-spec` values and single
`Via` values, refuses header values that break the line, and builds responses
from the rows a response echoes.  A checksum stands in for its two digests,
which only tell branches and requests apart here.
-/

namespace SipxClstr.Sip.Reference

/-- The text before the first separator, and the text after it. -/
def splitOnce (separator : Char) (value : Text) : Text × Option Text :=
  if separator ∈ value then
    (value.takeWhile (· ≠ separator), some ((value.dropWhile (· ≠ separator)).drop 1))
  else
    (value, none)

/-- A parsed URI beside the bytes it was parsed from. -/
structure ParsedUri where
  scheme : Text
  user : Option Text
  host : Option Text
  port : Option Nat
  params : List (Text × Option Text)
  raw : Bytes
  deriving DecidableEq

/-- Parameters behind their first semicolon. -/
def parseParams : Option Text → List (Text × Option Text)
  | none => []
  | some params => (params.splitOn ';').map fun param =>
      let (name, value) := splitOnce '=' param
      (toAsciiLowercase name, value)

/-- An optional port; `none` when it is there and not a port. -/
def parsePort : Option Text → Option (Option Nat)
  | none => some none
  | some port => (parseUnsigned 65535 port).map some

/-- What follows the scheme of a `sip` or `sips` URI. -/
def parseSipRest (scheme rest : Text) (raw : Bytes) : Option ParsedUri := do
  let (user, hostPart) := match splitOnce '@' (splitOnce '?' rest).1 with
    | (host, none) => (none, host)
    | (user, some host) => (some user, host)
  let (hostPort, params) := splitOnce ';' hostPart
  let (host, port) := splitOnce ':' hostPort
  let port ← parsePort port
  let params := parseParams params
  if host = [] ∨ '[' ∈ host ∨ ¬ (params.map Prod.fst).Nodup then none
  else some { scheme, user, host := some host, port, params, raw }

def parseUri (raw : Bytes) : Option ParsedUri :=
  match splitOnce ':' (fromUtf8Lossy raw) with
  | (_, none) => none
  | (scheme, some rest) =>
      if toAsciiLowercase scheme ∈ [text "sip", text "sips"] then
        parseSipRest scheme rest raw
      else
        some { scheme, user := none, host := none, port := none, params := [], raw }

/-- A parameter's value, when the parameter is there and has one. -/
def valueOf (params : List (Text × Option Text)) (name : Text) : Option Bytes :=
  ((params.find? fun param => param.1 = name).bind Prod.snd).map utf8

def parseAddress (raw : Bytes) : Option (Address ParsedUri) := do
  let value := trim (fromUtf8Lossy raw)
  let (uri, params) := match splitOnce '<' value with
    | (_, some inner) =>
        let (uri, after) := splitOnce '>' inner
        (uri, after.bind fun rest => (splitOnce ';' rest).2)
    | (_, none) => splitOnce ';' value
  let parsed ← parseUri (utf8 uri)
  some ⟨parsed, valueOf (parseParams params) (text "tag")⟩

def parseVia (raw : Bytes) : Option Via := do
  let (_, rest) := splitOnce ' ' (trim (fromUtf8Lossy raw))
  let rest ← rest
  let (sentBy, params) := splitOnce ';' rest
  let (host, port) := splitOnce ':' sentBy
  let port ← parsePort port
  some ⟨utf8 host, port, valueOf (parseParams params) (text "branch")⟩

/-- A header value may not break the line. -/
def acceptsValue (_ : HeaderName) (value : Bytes) : Bool :=
  value.all fun byte => byte ≠ 0x0D && byte ≠ 0x0A

/-- The rows a response echoes. -/
def isEchoed (header : Header) : Bool :=
  header.name ∈ [HeaderName.via, .fromHeader, .toHeader, .callId, .cSeq]

/-- Thirty-two bytes, most significant first. -/
def bytes32 : Nat → Nat → Bytes
  | 0, _ => []
  | count + 1, value => bytes32 count (value / 256) ++ [UInt8.ofNat (value % 256)]

/-- A multiplier that spreads the last bytes read over the whole output. -/
def spread : Nat :=
  0x9E3779B97F4A7C15F39CC0605CEDC8341082276BF3A27251F86C6A11D0C18E95

/-- Thirty-two bytes that depend on every byte of the message. -/
def checksum (message : Bytes) : Bytes :=
  bytes32 32 (message.foldl (fun state (byte : UInt8) =>
    (state * 257 + byte.toNat + 1) % (Nat.pow 2 256 - 189)) 1 * spread % (Nat.pow 2 256 - 189))

/-- Respondability, over bare header rows. -/
def rowsRespondable (headers : Headers) : Bool :=
  [HeaderName.via, .callId, .cSeq, .fromHeader, .toHeader].all fun name =>
    (Headers.get headers name).isSome

def toRequest (request : Request ParsedUri) (status : StatusCode) (reason : Text) :
    Option Response :=
  if rowsRespondable request.headers then
    some { status, reason, headers := request.headers.filter isEchoed, body := [] }
  else
    none

/-- The reference kernel. -/
def kernel : Kernel where
  Uri := ParsedUri
  parseUri := parseUri
  uriBytes uri := uri.raw
  scheme uri := utf8 uri.scheme
  host uri := uri.host.map utf8
  port uri := uri.port
  user uri := uri.user.map utf8
  hasParam uri name := uri.params.any fun param => param.1 = name
  paramValue uri name := valueOf uri.params name
  parseAddress := parseAddress
  parseVia := parseVia
  acceptsValue := acceptsValue
  toRequest := toRequest
  sha256 := checksum
  hmacSha256 key message := checksum (key ++ message)

theorem rowsRespondable_eq (request : Request kernel.Uri) :
    rowsRespondable request.headers = isRespondable kernel request := by
  simp [rowsRespondable, isRespondable, Bool.and_assoc]

/-- The rows of an echoed name survive into the response. -/
theorem getAll_filter_isEchoed (headers : Headers) :
    Headers.getAll (headers.filter isEchoed) .via = Headers.getAll headers .via := by
  simp only [Headers.getAll, List.filter_filter]
  apply List.filter_congr
  intro header _
  by_cases isVia : header.name = .via <;> simp [isVia, isEchoed]

/-- The reference kernel answers as the kernel is relied on to. -/
theorem kernel_responds : Kernel.Responds kernel where
  answers request status reason respondable := by
    rw [← rowsRespondable_eq] at respondable
    simp [kernel, toRequest, respondable]
  status request status reason response built := by
    simp only [kernel, toRequest] at built
    split at built
    · rw [← Option.some.inj built]
    · contradiction
  via request status reason response built := by
    simp only [kernel, toRequest] at built
    split at built
    · rw [← Option.some.inj built]
      exact getAll_filter_isEchoed request.headers
    · contradiction

/-- A URI of the reference kernel; the empty URI when the text does not parse. -/
def uri (value : String) : ParsedUri :=
  (parseUri (bytes value)).getD ⟨[], none, none, none, [], []⟩

/-- A header row from text. -/
def row (name : HeaderName) (value : String) : Header :=
  ⟨name, bytes value⟩

example : ((parseAddress (bytes "\"Bob\" <sip:bob@10.0.0.1:5062;lr>;tag=bt")).map fun address =>
    (address.uri.port, address.tag)) = some (some 5062, some (bytes "bt")) := by
  decide +kernel

end SipxClstr.Sip.Reference
