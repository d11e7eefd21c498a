import SipxClstr.Sip.Digest

/-!
# Whether this edge believes who a request says it is

The policy above the kernel's digest primitives: which tenants require
authentication and in which realm, where credentials come from, what a refusal
says, and the identity a success is recorded under.
-/

namespace SipxClstr.Registrar

open SipxClstr.Sip

/-- Where the passwords of a tenant come from: the password a tenant holds for
a username, if it holds one. -/
structure CredentialStore where
  password : Text → Text → Option Text

/-- A credential store in memory: its tenants, each with its users. -/
abbrev InMemoryCredentials := List (Text × List (Text × Text))

namespace InMemoryCredentials

/-- `entry(user).or_insert(password)`: the first password recorded wins. -/
def insertUser (users : List (Text × Text)) (username password : Text) : List (Text × Text) :=
  if (users.lookup username).isSome then users else users ++ [(username, password)]

/-- `with`: record a password for a user of a tenant. -/
def record : InMemoryCredentials → Text → Text → Text → InMemoryCredentials
  | [], tenant, username, password => [(tenant, insertUser [] username password)]
  | (name, users) :: rest, tenant, username, password =>
      if tenant = name then
        (name, insertUser users username password) :: rest
      else
        (name, users) :: record rest tenant username password

/-- The store these credentials are. -/
def store (credentials : InMemoryCredentials) : CredentialStore where
  password tenant username := (credentials.lookup tenant).bind (List.lookup username)

end InMemoryCredentials

/-- The challenge to put in a response. -/
structure ChallengeResponse where
  /-- `401` for a registrar, `407` for a proxy. -/
  status : Nat
  header : HeaderName
  value : Text
  /-- Why; `none` when nothing was offered yet. -/
  because : Option Reason
  stale : Bool
  deriving DecidableEq

/-- What the edge decided about a request. -/
inductive Decision where
  /-- Go on, as this principal; `none` when the tenant does not authenticate. -/
  | proceed (principal : Option Bytes)
  | challenge (response : ChallengeResponse)
  /-- The credentials named a protection space that is not this one. -/
  | forbidden
  deriving DecidableEq

/-- Stands in for the password of a username the store does not hold. -/
def absentUserPlaceholder : Text :=
  text "\x00no such user\x00"

/-- One tenant's policy and the kernel authenticator that enforces it. -/
structure TenantAuth {Uri : Type} (D : DigestKernel Uri) where
  tenant : Text
  authenticator : D.Authenticator
  required : Bool
  proxy : Bool

namespace TenantAuth

variable {Uri : Type} {D : DigestKernel Uri}

/-- `<tenant>:<username>`. -/
def principal (auth : TenantAuth D) (username : Text) : Bytes :=
  utf8 (auth.tenant ++ [':'] ++ username)

/-- A challenge with a fresh nonce. -/
def challenge (auth : TenantAuth D) (stale : Bool) (because : Option Reason) (now : Nat) :
    ChallengeResponse where
  status := if auth.proxy then 407 else 401
  header := challengeHeader auth.proxy
  value := D.challengeAt auth.authenticator stale now
  because := because
  stale := stale

/-- The password verification runs against: the stored one, or the placeholder. -/
def passwordFor (auth : TenantAuth D) (store : CredentialStore) (username : Text) : Text :=
  (store.password auth.tenant username).getD absentUserPlaceholder

/-- Decide a request, and the policy the decision leaves. -/
def decide (auth : TenantAuth D) (request : Request Uri) (store : CredentialStore) (now : Nat) :
    TenantAuth D × Decision :=
  -- A1
  if !auth.required then
    (auth, .proceed none)
  -- A2
  else match D.fromRequest request auth.proxy with
    | none => (auth, .challenge (auth.challenge false none now))
    | some presented =>
        -- A3
        if presented.realm ≠ D.realm auth.authenticator then
          (auth, .forbidden)
        else
          -- A4: an unknown username is verified like a known one.
          let password := auth.passwordFor store presented.username
          let (authenticator, verdict) :=
            D.verifyAt auth.authenticator presented request.method.token password now
          let verified := { auth with authenticator }
          match verdict with
          -- A5
          | .authenticated => (verified, .proceed (some (auth.principal presented.username)))
          -- A7
          | .stale => (verified, .challenge (verified.challenge true none now))
          -- A6
          | .rejected reason => (verified, .challenge (verified.challenge false (some reason) now))

end TenantAuth

end SipxClstr.Registrar
