import SipxClstr.Registrar.Command

/-!
# The canonical address-of-record key

The comparison of URIs is pairwise and not transitive; a storage key is compared by
equality.  The key is the URI without its parameters, its user part decoded and encoded
again, and its host in one spelling.
-/

namespace SipxClstr.Registrar

open SipxClstr.Sip

/-- A URI's host as the kernel parsed it. -/
inductive Host where
  | name (name : Bytes)
  | ip (address : IpAddr)
  deriving DecidableEq, Repr

/-- What the registrar asks of a parsed URI, beside what the proxy does, and the full case
mapping of the standard library. -/
structure UriParts (K : Kernel) where
  /-- `Uri::has_headers`. -/
  hasHeaders : K.Uri → Bool
  /-- `Uri::password`. -/
  password : K.Uri → Option Bytes
  /-- `Uri::decoded_user`. -/
  decodedUser : K.Uri → Option Bytes
  /-- `Uri::host`. -/
  host : K.Uri → Option Host
  /-- `str::to_lowercase`. -/
  toLowercase : Text → Text
  toLowercase_ascii : ∀ value : Text, (∀ c ∈ value, c.toNat < 128) →
    toLowercase value = toAsciiLowercase value

/-! ## Addresses in text -/

/-- `Ipv4Addr` as text. -/
def ipv4Text (address : BitVec 32) : Text :=
  let octet (index : Nat) : Text := decimal (address.toNat / Nat.pow 256 index % 256)
  octet 3 ++ '.' :: octet 2 ++ '.' :: octet 1 ++ '.' :: octet 0

/-- The eight segments of an IPv6 address. -/
def segments (address : BitVec 128) : List Nat :=
  [7, 6, 5, 4, 3, 2, 1, 0].map fun index => address.toNat / Nat.pow 65536 index % 65536

/-- A run of zero segments: where it starts, and how long it is. -/
structure Span where
  start : Nat
  length : Nat
  deriving DecidableEq, Repr

/-- The first of the longest runs of zeros, with the one that ends here. -/
def longestZeros : List Nat → Nat → Span → Span → Span
  | [], _, longest, _ => longest
  | segment :: rest, index, longest, current =>
      if segment = 0 then
        let current : Span :=
          if current.length = 0 then ⟨index, 1⟩ else ⟨current.start, current.length + 1⟩
        longestZeros rest (index + 1)
          (if longest.length < current.length then current else longest) current
      else
        longestZeros rest (index + 1) longest ⟨0, 0⟩

/-- Segments in hexadecimal, with a colon between them. -/
def segmentsText (chunk : List Nat) : Text :=
  [':'].intercalate (chunk.map (Nat.toDigits 16))

/-- `Ipv6Addr` as text. -/
def ipv6Text (address : BitVec 128) : Text :=
  if address.toNat / 4294967296 = 65535 then
    text "::ffff:" ++ ipv4Text (address.setWidth 32)
  else
    let zeros := longestZeros (segments address) 0 ⟨0, 0⟩ ⟨0, 0⟩
    if 1 < zeros.length then
      segmentsText ((segments address).take zeros.start) ++ text "::" ++
        segmentsText ((segments address).drop (zeros.start + zeros.length))
    else
      segmentsText (segments address)

example : ipv6Text 0x20010db8000000000000000000000001#128 = text "2001:db8::1" := by
  decide +kernel

/-! ## The key -/

/-- Why a URI cannot be an address-of-record. -/
inductive AorError where
  | notSipUri
  | uriHeaders
  | password
  | emptyUser
  | noHost
  | tooLong (size : Nat)
  deriving DecidableEq, Repr

/-- The longest canonical key this platform will store. -/
def maxKeyBytes : Nat :=
  512

/-- RFC 2396 `unreserved`. -/
def isUnreserved (byte : UInt8) : Bool :=
  let c := Char.ofNat byte.toNat
  c.isAlphanum || c ∈ text "-_.!~*'()"

def hexDigit (nibble : Nat) : Char :=
  if nibble ≤ 9 then Char.ofNat ('0'.toNat + nibble) else Char.ofNat ('A'.toNat + (nibble - 10))

/-- Unreserved bytes as they are, every other as `%HH`. -/
def escapeUser (decoded : Bytes) : Text :=
  decoded.flatMap fun byte =>
    if isUnreserved byte then [Char.ofNat byte.toNat]
    else ['%', hexDigit (byte.toNat / 16), hexDigit (byte.toNat % 16)]

namespace CanonicalAor

variable {K : Kernel} (P : UriParts K)

/-- The user part of the key, if the URI has one. -/
def userOf (uri : K.Uri) : Except AorError (Option Text) :=
  match K.user uri with
  | none => .ok none
  | some raw =>
      if raw = [] then .error .emptyUser
      else match P.decodedUser uri with
        | none => .error .emptyUser
        | some decoded =>
            if decoded = [] then .error .emptyUser else .ok (some (escapeUser decoded))

/-- The host part of the key. -/
def hostOf : Host → Text
  | .name name => stripTrailingDot (P.toLowercase (fromUtf8Lossy name))
  | .ip (.v4 address) => ipv4Text address
  | .ip (.v6 address) => '[' :: ipv6Text address ++ [']']

/-- `CanonicalAor::from_uri`. -/
def fromUri (uri : K.Uri) : Except AorError CanonicalAor := do
  let scheme ←
    if K.scheme uri = bytes "sip" then .ok (text "sip")
    else if K.scheme uri = bytes "sips" then .ok (text "sips")
    else .error AorError.notSipUri
  if P.hasHeaders uri then
    .error .uriHeaders
  else if (P.password uri).isSome then
    .error .password
  else
    let user ← userOf P uri
    match P.host uri with
    | none => .error .noHost
    | some host =>
        let host := hostOf P host
        if host = [] then
          .error .noHost
        else
          let port := match K.port uri with
            | some port => ':' :: decimal port
            | none => []
          let key := match user with
            | some user => scheme ++ ':' :: user ++ '@' :: host ++ port
            | none => scheme ++ ':' :: host ++ port
          if maxKeyBytes < (utf8 key).length then
            .error (.tooLong (utf8 key).length)
          else
            .ok ⟨key⟩

/-- `CanonicalAor::parse`. -/
def parse (raw : Bytes) : Except AorError CanonicalAor :=
  match K.parseUri raw with
  | none => .error .notSipUri
  | some uri => fromUri P uri

end CanonicalAor

/-- The key of an address-of-record within a tenant. -/
def shardKey (tenant : Text) (aor : CanonicalAor) : Bytes :=
  utf8 tenant ++ 0 :: utf8 aor.key

end SipxClstr.Registrar
