import SipxClstr.Registrar.Binding

/-!
# The REGISTER command

What a REGISTER asks, the tenant policy it is judged against, and what deciding on
it yields.
-/

namespace SipxClstr.Registrar

open SipxClstr.Sip

/-- A canonical address-of-record, compared by equality. -/
structure CanonicalAor where
  key : Text
  deriving DecidableEq

/-- One `Contact` value a REGISTER asks about. -/
structure ContactOp (K : Kernel) where
  /-- The contact URI as parsed. -/
  uri : K.Uri
  /-- The contact URI's bytes, which is what gets stored and later forwarded. -/
  verbatim : Bytes
  /-- The bytes are a spelling of the URI. -/
  spells : K.parseUri verbatim = some uri
  /-- The `;expires` parameter. -/
  expires : Option Nat
  /-- The `;q` parameter, in thousandths. -/
  q : Option Nat
  instanceId : Option Bytes
  regId : Option Nat
  push : Option Push

/-- What a REGISTER asks to be done to the binding set. -/
inductive ContactOps (K : Kernel) where
  /-- Explicit `Contact` values; an empty list is a query. -/
  | explicit (ops : List (ContactOp K))
  /-- `Contact: *`. -/
  | wildcard

/-- A validated REGISTER, ready to be decided on. -/
structure RegisterCommand (K : Kernel) where
  tenant : Text
  aor : CanonicalAor
  /-- Half of the ordering token. -/
  callId : Bytes
  /-- The other half. -/
  cseq : Nat
  contacts : ContactOps K
  /-- The `Expires` header. -/
  expiresHeader : Option Nat
  /-- The `Path` URIs, topmost first. -/
  path : List Bytes
  /-- Whether the UAC advertised `Supported: path`. -/
  supportsPath : Bool
  /-- `Require` option tags. -/
  require : List Text
  received : Option SourceAddr
  flowRef : Option Bytes
  principal : Option Bytes
  now : Timestamp

/-- The numbers a tenant configures. -/
structure TenantPolicy where
  /-- Granted when no expiry is stated anywhere. -/
  defaultExpires : Nat
  /-- The shortest registration this tenant accepts. -/
  minExpires : Nat
  /-- The longest. -/
  maxExpires : Nat
  /-- How many active bindings one address-of-record may hold. -/
  maxBindingsPerAor : Nat
  /-- How many contact operations one REGISTER may carry. -/
  maxContactOps : Nat
  deriving DecidableEq, Repr

/-- `TenantPolicy::default`. -/
def TenantPolicy.default : TenantPolicy where
  defaultExpires := 3600
  minExpires := 60
  maxExpires := 86400
  maxBindingsPerAor := 10
  maxContactOps := 64

/-- One `Contact` value of a `200 OK`. -/
structure ContactValue where
  contact : Bytes
  /-- Remaining granted lifetime, in seconds. -/
  expires : Nat
  q : Nat
  deriving DecidableEq

/-- The facts of a `200 OK`: the complete active set, and the stored Path. -/
structure Accepted where
  contacts : List ContactValue
  path : List Bytes
  deriving DecidableEq

/-- `Accepted::default`. -/
def Accepted.empty : Accepted :=
  ⟨[], []⟩

/-- Why a REGISTER was refused. -/
inductive Rejection where
  | notFound
  | badRequest (reason : Text)
  | forbidden (reason : Text)
  | badExtension (tags : List Text)
  | intervalTooBrief (min : Nat)
  | extensionRequired (tag : Text)
  | staleSequence
  | unavailable
  deriving DecidableEq

def Rejection.status : Rejection → Nat
  | .notFound => 404
  | .badRequest _ => 400
  | .forbidden _ => 403
  | .badExtension _ => 420
  | .intervalTooBrief _ => 423
  | .extensionRequired _ => 421
  | .staleSequence => 500
  | .unavailable => 503

/-- What processing decided. -/
inductive Outcome where
  /-- The set changed, and must be committed under the revision read. -/
  | commit (set : BindingSet) (response : Accepted)
  /-- Nothing changed: an idempotent retry, or a query. -/
  | noop (response : Accepted)
  | reject (rejection : Rejection)
  deriving DecidableEq

namespace Outcome

/-- The set that must be written, if the store must be. -/
def committed : Outcome → Option BindingSet
  | .commit set _ => some set
  | _ => none

end Outcome

/-- Whole seconds, rounded up. -/
def secondsOf (duration : Nat) : Nat :=
  let seconds := duration / nanosPerSecond
  min (if 0 < duration % nanosPerSecond then seconds + 1 else seconds) u32Max

/-- The `200 OK` facts of a set: every active binding, with what it was granted. -/
def describe (set : BindingSet) (now : Timestamp) : Accepted where
  contacts := (set.active now).map fun binding =>
    ⟨binding.contact, secondsOf (binding.expiresIn now), binding.q⟩
  path := ((set.active now).head?.map Binding.path).getD []

/-- The binding a contact operation would produce. -/
def bindingFor {K : Kernel} (op : ContactOp K) (cmd : RegisterCommand K) (granted : Nat)
    (registeredAt : Timestamp) : Binding where
  contact := op.verbatim
  q := op.q.getD 1000
  callId := cmd.callId
  cseq := cmd.cseq
  expiresAt := cmd.now.saturatingAdd (granted * nanosPerSecond)
  registeredAt := registeredAt
  refreshedAt := cmd.now
  path := cmd.path
  received := cmd.received
  instanceId := op.instanceId
  regId := op.regId
  flowRef := cmd.flowRef
  push := op.push
  principal := cmd.principal

end SipxClstr.Registrar
