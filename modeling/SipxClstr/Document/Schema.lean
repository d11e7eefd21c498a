import SipxClstr.Document.Report
import Mathlib.Data.Finset.Basic
import Mathlib.Data.Finset.Dedup

/-!
# The typed configuration

What one document says of the whole cluster, and what it says of one node.
-/

namespace SipxClstr.Document

open SipxClstr.Sip

def apiVersion : Text :=
  text "sipx.dev/v1alpha1"

/-! ## Roles -/

/-- The closed role set. -/
inductive Role where
  | edge
  | registrar
  | inboundProxy
  | outboundProxy
  | e2eTester
  | echo
  deriving DecidableEq, Repr

namespace Role

/-- Every role, in the order of the set. -/
def all : List Role :=
  [.edge, .registrar, .inboundProxy, .outboundProxy, .e2eTester, .echo]

/-- The document's spelling. -/
def asStr : Role → Text
  | .edge => text "edge"
  | .registrar => text "registrar"
  | .inboundProxy => text "inbound-proxy"
  | .outboundProxy => text "outbound-proxy"
  | .e2eTester => text "e2e-tester"
  | .echo => text "echo"

def parse (spelled : Text) : Option Role :=
  all.find? fun role => role.asStr = spelled

/-- The four roles that put a node on the call path. -/
def isCallPath : Role → Bool
  | .edge | .registrar | .inboundProxy | .outboundProxy => true
  | .e2eTester | .echo => false

/-- The three roles that carry somebody else's request onward. -/
def isProxying : Role → Bool
  | .edge | .inboundProxy | .outboundProxy => true
  | .registrar | .e2eTester | .echo => false

end Role

/-- Names joined by a comma and a space. -/
def joined (names : List Text) : Text :=
  (names.intersperse (text ", ")).flatten

/-- A set of roles. -/
abbrev Roles := Finset Role

namespace Roles

/-- The members, in the order of the closed set. -/
def members (roles : Roles) : List Role :=
  Role.all.filter fun role => role ∈ roles

def spell (roles : Roles) : Text :=
  joined (roles.members.map Role.asStr)

/-- Whether any of them puts a node on the call path. -/
def onCallPath (roles : Roles) : Bool :=
  roles.members.any Role.isCallPath

end Roles

/-! ## Sections -/

/-- What a node is, supplied from outside the document. -/
structure NodeIdentity where
  node : Nat
  zone : Text
  roles : Roles
  deriving DecidableEq

/-- A listener as the document declares it. -/
structure ListenerSpec where
  roles : Roles
  transport : Text
  bind : Text
  advertise : Option Text
  deriving DecidableEq

/-- Where a node's incarnation counter comes from. -/
inductive IncarnationSource where
  | bootSecond
  | persistedCounter
  deriving DecidableEq

namespace IncarnationSource

def asStr : IncarnationSource → Text
  | .bootSecond => text "boot-second"
  | .persistedCounter => text "persisted-counter"

def parse (spelled : Text) : Option IncarnationSource :=
  [.bootSecond, .persistedCounter].find? fun source => asStr source = spelled

end IncarnationSource

/-- One node's entry in the cluster's membership. -/
structure MemberSpec where
  node : Nat
  name : Text
  zone : Text
  roles : Roles
  rpc : Option Text
  incarnationSource : IncarnationSource
  incarnationRef : Option Text
  deriving DecidableEq

/-- The construction a key selects. -/
inductive KeyAlgorithm where
  | chaCha20Poly1305
  | hmacSha256_96
  deriving DecidableEq

namespace KeyAlgorithm

def asStr : KeyAlgorithm → Text
  | .chaCha20Poly1305 => text "chacha20-poly1305"
  | .hmacSha256_96 => text "hmac-sha256-96"

def parse (spelled : Text) : Option KeyAlgorithm :=
  [.chaCha20Poly1305, .hmacSha256_96].find? fun algorithm => asStr algorithm = spelled

end KeyAlgorithm

/-- One entry of `keys`.  The window is in UNIX seconds. -/
structure KeySpec where
  id : Nat
  algorithm : KeyAlgorithm
  secretRef : Text
  verifyFrom : Int
  verifyUntil : Int
  mint : Bool
  deriving DecidableEq

/-- One shard of the key space, and the member that accepts writes for it. -/
structure ShardSpec where
  id : Nat
  owner : Text
  deriving DecidableEq

structure ShardMapSpec where
  drainTimeoutMs : Nat
  shards : List ShardSpec
  deriving DecidableEq

/-- Where registrations live. -/
structure LocationStoreSpec where
  backend : Text
  dsnRef : Option Text
  deriving DecidableEq

/-- Per-tenant expiry and quota, as the document states them. -/
structure TenantPolicySpec where
  defaultExpires : Nat
  minExpires : Nat
  maxExpires : Nat
  maxBindingsPerAor : Nat
  deriving DecidableEq

/-- `TenantPolicySpec::default`. -/
def TenantPolicySpec.default : TenantPolicySpec :=
  ⟨3600, 60, 86400, 10⟩

/-- A tenant that requires digest authentication. -/
structure AuthSpec where
  realm : Text
  secretRef : Text
  deriving DecidableEq

structure TenantSpec where
  name : Text
  id : Nat
  /-- The domains this tenant serves; empty means any. -/
  domains : List Text
  policy : TenantPolicySpec
  auth : Option AuthSpec
  deriving DecidableEq

/-- The security posture: the value given to a request without `Max-Forwards`. -/
structure SecuritySpec where
  maxForwards : Nat
  deriving DecidableEq

/-- `SecuritySpec::default`. -/
def SecuritySpec.default : SecuritySpec :=
  ⟨70⟩

/-- How many proxied transactions may be in flight at once. -/
structure AdmissionSpec where
  maxInFlightTransactions : Nat
  deriving DecidableEq

/-- `AdmissionSpec::default`. -/
def AdmissionSpec.default : AdmissionSpec :=
  ⟨1024⟩

structure TimersSpec where
  t1Ms : Nat
  timerBMs : Nat
  timerFMs : Nat
  timerCMs : Nat
  deriving DecidableEq

/-- `TimersSpec::default`. -/
def TimersSpec.default : TimersSpec :=
  ⟨500, 64 * 500, 64 * 500, 240000⟩

/-- The whole cluster, as one document says it. -/
structure Config where
  apiVersion : Text
  version : Nat
  name : Text
  environment : Text
  zones : List Text
  listeners : List ListenerSpec
  membership : List MemberSpec
  keys : List KeySpec
  shardMap : Option ShardMapSpec
  locationStore : Option LocationStoreSpec
  tenants : List TenantSpec
  security : SecuritySpec
  admission : AdmissionSpec
  timers : TimersSpec
  /-- Every path declared that is recognised and not applied. -/
  unapplied : List Path
  /-- Every section as the document spells it, canonically rendered, by its name. -/
  sections : List (Text × Text)
  deriving DecidableEq

/-- One node's view of the cluster. -/
structure ProjectedConfig where
  identity : NodeIdentity
  version : Nat
  listeners : List ListenerSpec
  /-- Present only when this node runs the registrar. -/
  locationStore : Option LocationStoreSpec
  tenants : List TenantSpec
  security : SecuritySpec
  admission : AdmissionSpec
  timers : TimersSpec

/-- Project a cluster document onto one node. -/
def project (config : Config) (identity : NodeIdentity) : ProjectedConfig where
  identity := identity
  version := config.version
  listeners := config.listeners.filter fun listener => ¬ Disjoint listener.roles identity.roles
  locationStore := if .registrar ∈ identity.roles then config.locationStore else none
  tenants := config.tenants
  security := config.security
  admission := config.admission
  timers := config.timers

end SipxClstr.Document
