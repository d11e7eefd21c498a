import SipxClstr.Proxy.Cookie

/-!
# Request validation

The checks run in order, and the first failure responds and terminates.
-/

namespace SipxClstr.Proxy

open SipxClstr.Sip

/-- Why a request will not be forwarded. -/
inductive Refusal where
  | drop
  | unsupportedScheme
  | tooManyHops
  | loopDetected
  | maxBreadthExceeded
  | badExtension (tags : List Text)
  deriving DecidableEq, Repr

namespace Refusal

/-- The status to answer with, or `none` when the request must be dropped. -/
def status : Refusal → Option Nat
  | .drop => none
  | .unsupportedScheme => some 416
  | .tooManyHops => some 483
  | .loopDetected => some 482
  | .maxBreadthExceeded => some 440
  | .badExtension _ => some 420

/-- The reason phrase for the status. -/
def reason : Refusal → Text
  | .drop => []
  | .unsupportedScheme => text "Unsupported URI Scheme"
  | .tooManyHops => text "Too Many Hops"
  | .loopDetected => text "Loop Detected"
  | .maxBreadthExceeded => text "Max-Breadth Exceeded"
  | .badExtension _ => text "Bad Extension"

end Refusal

/-- What validation learned, for the steps that follow it. -/
structure Validated where
  maxForwards : Nat
  maxBreadth : Nat
  cookieInput : CookieInput
  deriving DecidableEq

variable (K : Kernel)

/-- A header's value as an unsigned integer whose largest value is `max`. -/
def headerNumber (max : Nat) (request : Request K.Uri) (name : HeaderName) : Option Nat := do
  let value ← Headers.value request.headers name
  parseUnsigned max (trim (fromUtf8Lossy value))

/-- The comma-separated tags of every row of a header. -/
def optionTags (request : Request K.Uri) (name : HeaderName) : List Text :=
  (Headers.getAll request.headers name).flatMap fun header =>
    (((fromUtf8Lossy header.value).splitOn ',').map trim).filter fun tag => tag ≠ []

/-- Whether a `Via` was inserted by this platform, by its sent-by. -/
def isOurVia (via : Via) (config : ProxyConfig) : Bool :=
  let sentBy := stripTrailingDot (toAsciiLowercase (fromUtf8Lossy via.host))
  config.identities.any fun identity =>
    identity.host = sentBy &&
      match identity.port with
      | none => true
      | some port => match via.port with
        | none => true
        | some actual => actual = port

/-- Whether one of our own `Via` entries carries the expected cookie. -/
def isLoop (request : Request K.Uri) (config : ProxyConfig) (expected : Text) : Bool :=
  (((Headers.getAll request.headers .via).filterMap fun header => K.parseVia header.value).filter
    fun via => isOurVia via config).any fun via =>
      (via.branch.bind fun branch => cookieOf (fromUtf8Lossy branch)) = some expected

/-- Run the checks in order. -/
def validate (request : Request K.Uri) (config : ProxyConfig) : Except Refusal Validated := do
  if !isRespondable K request then
    throw .drop
  if !config.understandsScheme K request.uri then
    throw .unsupportedScheme
  let maxForwards ← match headerNumber K u8Max request .maxForwards with
    | some 0 => throw .tooManyHops
    | some value => pure value
    | none => pure config.defaultMaxForwards
  let cookieInput := CookieInput.fromRequest K request
  let expected := cookieInput.cookie K config.cookieKey
  if isLoop K request config expected then
    throw .loopDetected
  let maxBreadth ← match headerNumber K u32Max request .maxBreadth with
    | some 0 => throw .maxBreadthExceeded
    | some value => pure value
    | none => pure config.defaultMaxBreadth
  let unsupported := (optionTags K request .proxyRequire).filter fun tag => !config.supports tag
  if unsupported ≠ [] then
    throw (.badExtension unsupported)
  return { maxForwards, maxBreadth, cookieInput }

/-- Only a respondable request validates. -/
theorem isRespondable_of_validate {request : Request K.Uri} {config : ProxyConfig}
    {validated : Validated} (accepted : validate K request config = .ok validated) :
    isRespondable K request = true := by
  by_contra refused
  simp only [Bool.not_eq_true] at refused
  simp [validate, refused, throw, throwThe, MonadExceptOf.throw, bind, Except.bind] at accepted

end SipxClstr.Proxy
