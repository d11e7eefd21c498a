import SipxClstr.Registrar.Aor
import SipxClstr.Registrar.Auth

/-!
# From a REGISTER to a command

Authentication and the admission policy stand in front of parsing.  The tenant of a
command is the authenticator's, its principal is what the decision produced, and policy
judges the request's authority, the principal's right to the address-of-record, and the
authority of the address-of-record, in this order.
-/

namespace SipxClstr.Registrar

open SipxClstr.Sip

/-! ## Policy -/

/-- The authority of a SIP URI. -/
structure RequestAuthority where
  host : Host
  port : Option Nat
  deriving DecidableEq, Repr

/-- `RequestAuthority::from_uri`. -/
def RequestAuthority.fromUri {K : Kernel} (P : UriParts K) (uri : K.Uri) :
    Option RequestAuthority :=
  if K.scheme uri = bytes "sip" ∨ K.scheme uri = bytes "sips" then
    (P.host uri).map fun host => ⟨host, K.port uri⟩
  else
    none

/-- The two decisions at the admission boundary. -/
structure RegistrationPolicy where
  /-- Whether a tenant serves an authority. -/
  serves : Text → RequestAuthority → Bool
  /-- Whether the principal may write the address-of-record. -/
  authorizes : Text → Option Bytes → CanonicalAor → Bool

/-- One byte-exact grant. -/
structure RegistrationGrant where
  principal : Bytes
  aor : CanonicalAor
  deriving DecidableEq

/-- Principal-to-address-of-record grants of one tenant. -/
inductive RegistrationAuthorizations where
  | openTenant
  | restricted (grants : List RegistrationGrant)
  deriving DecidableEq

namespace RegistrationAuthorizations

def authorizes (authorizations : RegistrationAuthorizations) (principal : Option Bytes)
    (aor : CanonicalAor) : Bool :=
  match authorizations with
  | .openTenant => principal.isNone
  | .restricted grants =>
      principal.any fun principal =>
        grants.any fun grant => grant.principal = principal && grant.aor = aor

end RegistrationAuthorizations

/-- `OpenRegistrationPolicy`. -/
def openRegistrationPolicy : RegistrationPolicy where
  serves _ _ := true
  authorizes _ principal _ := principal.isNone

/-! ## The audit record -/

/-- One entry of the authentication audit trail. -/
inductive AuthOutcome where
  | authenticated (principal : Bytes)
  | unauthenticated
  | challenged (status : Nat)
  | refused (status : Nat) (stale : Bool) (because : Option Reason)
  | forbidden
  deriving DecidableEq

/-- `Decision::outcome`. -/
def Decision.outcome : Decision → AuthOutcome
  | .proceed (some principal) => .authenticated principal
  | .proceed none => .unauthenticated
  | .challenge response =>
      if response.because.isNone && !response.stale then .challenged response.status
      else .refused response.status response.stale response.because
  | .forbidden => .forbidden

/-! ## Parsing -/

/-- `HeaderName::Contact`. -/
def contactHeader : HeaderName :=
  .other (text "contact")

/-- `HeaderName::Expires`. -/
def expiresHeader : HeaderName :=
  .other (text "expires")

/-- `HeaderName::Path`. -/
def pathHeader : HeaderName :=
  .other (text "path")

/-- `HeaderName::Supported`. -/
def supportedHeader : HeaderName :=
  .other (text "supported")

/-- `HeaderName::Require`. -/
def requireHeader : HeaderName :=
  .other (text "require")

/-- One value of an address list: its URI, which its bytes spell, and its parameters. -/
structure ContactAddress (K : Kernel) where
  uri : K.Uri
  spells : K.parseUri (K.uriBytes uri) = some uri
  /-- `Address::param`. -/
  param : Text → Option Bytes

/-- What the edge knows that the message does not. -/
structure EdgeContext where
  tenant : Text
  received : Option SourceAddr
  flowRef : Option Bytes

/-- `u8::is_ascii_whitespace`. -/
def isAsciiWhitespace (byte : UInt8) : Bool :=
  byte ∈ [0x20, 0x09, 0x0A, 0x0C, 0x0D]

/-- `trim`, of bytes. -/
def trimBytes (value : Bytes) : Bytes :=
  (value.dropWhile isAsciiWhitespace).rdropWhile isAsciiWhitespace

/-- `String::from_utf8_lossy(raw).trim().parse::<u32>()`. -/
def parseNumber (raw : Bytes) : Option Nat :=
  parseUnsigned u32Max (trim (fromUtf8Lossy raw))

/-- `parse_q`: a preference in thousandths. -/
def parseQ (raw : Bytes) : Option Nat :=
  let value := trim (fromUtf8Lossy raw)
  let whole := value.takeWhile (· ≠ '.')
  let fraction := value.drop (whole.length + 1)
  if 3 < (utf8 fraction).length ∨ !fraction.all Char.isDigit then
    none
  else match parseUnsigned 65535 whole with
    | none => none
    | some whole =>
        if 1 < whole then
          none
        else if whole = 1 then
          if (fraction.rdropWhile (· = '0')).isEmpty then some 1000 else none
        else
          parseUnsigned 65535 (fraction ++ List.replicate (3 - fraction.length) '0')

/-- `push_params`: kept only when the pair that identifies a device is complete. -/
def pushParams {K : Kernel} (address : ContactAddress K) : Option Push := do
  let provider ← address.param (text "pn-provider")
  let prid ← address.param (text "pn-prid")
  some ⟨provider, prid, address.param (text "pn-param")⟩

/-- `ok_or`. -/
def okOr {α : Type} (value : Option α) (rejection : Rejection) : Except Rejection α :=
  match value with
  | some value => .ok value
  | none => .error rejection

/-- `contact_op`. -/
def contactOp {K : Kernel} (address : ContactAddress K) : Except Rejection (ContactOp K) := do
  let q ← match address.param (text "q") with
    | none => .ok none
    | some raw => (okOr (parseQ raw) (.badRequest (text "a malformed Contact ;q"))).map some
  .ok
    { uri := address.uri
      verbatim := K.uriBytes address.uri
      spells := address.spells
      expires := (address.param (text "expires")).bind parseNumber
      q := q
      instanceId := address.param (text "+sip.instance")
      regId := (address.param (text "reg-id")).bind parseNumber
      push := pushParams address }

/-- `option_tags`. -/
def optionTags {Uri : Type} (request : Request Uri) (name : HeaderName) : List Text :=
  (Headers.getAll request.headers name).flatMap fun header =>
    (((fromUtf8Lossy header.value).splitOn ',').map fun tag => toAsciiLowercase (trim tag)).filter
      fun tag => tag ≠ []

section Requests

variable {K : Kernel} (P : UriParts K) (parseList : Bytes → Option (List (ContactAddress K)))

/-- `route_values`: the verbatim URIs of a route-style header, topmost first. -/
def routeValues (request : Request K.Uri) (name : HeaderName) : List Bytes :=
  ((Headers.getAll request.headers name).filterMap fun header => parseList header.value).flatten.map
    fun address => K.uriBytes address.uri

/-- The operations of the `Contact` rows, in order. -/
def explicitOps : List Bytes → Except Rejection (List (ContactOp K))
  | [] => .ok []
  | value :: rest => do
      let addresses ← okOr (parseList value) (.badRequest (text "a malformed Contact"))
      let ops ← addresses.mapM contactOp
      let later ← explicitOps rest
      .ok (ops ++ later)

/-- `contact_ops`: a wildcard may not share the request with a URI. -/
def contactOps (request : Request K.Uri) : Except Rejection (ContactOps K) :=
  let raw := (Headers.getAll request.headers contactHeader).map Header.value
  if raw.any fun value => trimBytes value = bytes "*" then
    if 1 < raw.length then
      .error (.badRequest (text "a wildcard Contact cannot appear alongside another Contact"))
    else
      .ok .wildcard
  else
    (explicitOps parseList raw).map .explicit

/-- `command`: build a command, or say why it cannot be built. -/
def command (request : Request K.Uri) (edge : EdgeContext) (principal : Option Bytes)
    (policy : RegistrationPolicy) (now : Timestamp) : Except Rejection (RegisterCommand K) := do
  let callId ← okOr (Headers.value request.headers .callId)
    (.badRequest (text "a REGISTER needs a Call-ID"))
  let cseq ← okOr
    (((Headers.value request.headers .cSeq).bind fun value => firstWord (fromUtf8Lossy value)).bind
      (parseUnsigned u32Max))
    (.badRequest (text "a REGISTER needs a numeric CSeq"))
  let value ← okOr (Headers.value request.headers .toHeader)
    (.badRequest (text "a REGISTER needs a To header"))
  let address ← okOr (K.parseAddress value) (.badRequest (text "a malformed To"))
  let aor ← (CanonicalAor.fromUri P address.uri).mapError fun _ =>
    .badRequest (text "the To URI is not an address-of-record")
  if !policy.authorizes edge.tenant principal aor then
    .error (.forbidden (text "the principal is not authorized for the address-of-record"))
  else
    let toAuthority ← okOr (RequestAuthority.fromUri P address.uri)
      (.badRequest (text "the To URI has no SIP authority"))
    if !policy.serves edge.tenant toAuthority then
      .error .notFound
    else
      let contacts ← contactOps parseList request
      .ok
        { tenant := edge.tenant
          aor := aor
          callId := callId
          cseq := cseq
          contacts := contacts
          expiresHeader := (Headers.value request.headers expiresHeader).bind parseNumber
          path := routeValues parseList request pathHeader
          supportsPath := decide (text "path" ∈ optionTags request supportedHeader)
          require := optionTags request requireHeader
          received := edge.received
          flowRef := edge.flowRef
          principal := principal
          now := now }

/-! ## Admission -/

/-- What an edge does with a REGISTER. -/
inductive Admission (K : Kernel) where
  | command (cmd : RegisterCommand K)
  | challenge (response : ChallengeResponse)
  | reject (rejection : Rejection)

/-- Whole seconds of a timestamp. -/
def Timestamp.asSecs (instant : Timestamp) : Nat :=
  instant / nanosPerSecond

variable {D : DigestKernel K.Uri}

/-- `admit_audited`: the authenticator that is left, what the edge does, and the audit
record of what authentication decided. -/
def admitAudited (request : Request K.Uri) (auth : TenantAuth D) (credentials : CredentialStore)
    (policy : RegistrationPolicy) (edge : EdgeContext) (now : Timestamp) :
    TenantAuth D × Admission K × Option AuthOutcome :=
  match RequestAuthority.fromUri P request.uri with
  | none => (auth, .reject .notFound, none)
  | some authority =>
      if !policy.serves auth.tenant authority then
        (auth, .reject .notFound, none)
      else
        let (auth, decision) := auth.decide request credentials now.asSecs
        -- Taken before the decision is consumed.
        let outcome := decision.outcome
        let admission := match decision with
          | .challenge response => .challenge response
          | .forbidden =>
              .reject (.forbidden (text "the credentials name another protection space"))
          | .proceed principal =>
              match command P parseList request { edge with tenant := auth.tenant } principal policy
                  now with
              | .ok cmd => .command cmd
              | .error rejection => .reject rejection
        (auth, admission, some outcome)

end Requests

end SipxClstr.Registrar
