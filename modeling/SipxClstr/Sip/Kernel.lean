import SipxClstr.Sip.Message

/-!
# The SIP kernel

Parsing, header building, response building and the hash functions come from
the kernel crates the repository depends on.  They are collected here as one
structure, and the development is generic over it.  What a result relies on the
kernel for is a named hypothesis about these operations.
-/

namespace SipxClstr.Sip

/-- A parsed `name-addr` or `addr-spec` with the one header parameter that is
read from it. -/
structure Address (Uri : Type) where
  uri : Uri
  tag : Option Bytes

/-- A parsed `Via` value. -/
structure Via where
  host : Bytes
  port : Option Nat
  branch : Option Bytes
  deriving DecidableEq

/-- The kernel operations the modelled code calls. -/
structure Kernel where
  /-- A parsed URI. -/
  Uri : Type
  /-- `Uri::parse`. -/
  parseUri : Bytes → Option Uri
  /-- `Uri::to_bytes`. -/
  uriBytes : Uri → Bytes
  /-- `Uri::scheme`, as bytes. -/
  scheme : Uri → Bytes
  /-- `Uri::host`, as bytes. -/
  host : Uri → Option Bytes
  /-- `Uri::port`. -/
  port : Uri → Option Nat
  /-- `Uri::user`. -/
  user : Uri → Option Bytes
  /-- Whether the URI has a parameter of this name: `params().get(name)`. -/
  hasParam : Uri → Text → Bool
  /-- The value of the parameter of this name: `params().value(name)`. -/
  paramValue : Uri → Text → Option Bytes
  /-- `Address::parse`. -/
  parseAddress : Bytes → Option (Address Uri)
  /-- `Via::parse_one`. -/
  parseVia : Bytes → Option Via
  /-- Whether `Header::build` accepts this value under this name. -/
  acceptsValue : HeaderName → Bytes → Bool
  /-- `ResponseBuilder::to_request(request, status, reason)`, built. -/
  toRequest : Request Uri → StatusCode → Text → Option Response
  /-- SHA-256. -/
  sha256 : Bytes → Bytes
  /-- HMAC-SHA256 of a key and a message. -/
  hmacSha256 : Bytes → Bytes → Bytes

variable (K : Kernel)

/-- `Header::build`. -/
def Header.build (name : HeaderName) (value : Bytes) : Option Header :=
  if K.acceptsValue name value then some ⟨name, value⟩ else none

theorem Header.eq_of_build {K : Kernel} {name : HeaderName} {value : Bytes} {header : Header}
    (built : Header.build K name value = some header) : header = ⟨name, value⟩ := by
  unfold Header.build at built
  split at built
  · exact (Option.some.inj built).symm
  · contradiction

theorem Header.build_name {K : Kernel} {name : HeaderName} {value : Bytes} {header : Header}
    (built : Header.build K name value = some header) : header.name = name := by
  rw [Header.eq_of_build built]

/-- Whether a request carries every field a response echoes. -/
def isRespondable (request : Request K.Uri) : Bool :=
  (Headers.get request.headers .via).isSome && (Headers.get request.headers .callId).isSome &&
    (Headers.get request.headers .cSeq).isSome && (Headers.get request.headers .fromHeader).isSome &&
    (Headers.get request.headers .toHeader).isSome

/-- What the response builder does with a request: it refuses only a request
that lacks what a response echoes, it keeps the status it was given, and it
copies the request's `Via` rows verbatim. -/
structure Kernel.Responds : Prop where
  answers : ∀ request status reason, isRespondable K request →
    (K.toRequest request status reason).isSome
  status : ∀ request status reason response,
    K.toRequest request status reason = some response → response.status = status
  via : ∀ request status reason response,
    K.toRequest request status reason = some response →
      Headers.getAll response.headers .via = Headers.getAll request.headers .via

end SipxClstr.Sip
