import SipxClstr.Document.Load
import SipxClstr.Node.Listen
import SipxClstr.Proxy.Config
import SipxClstr.Registrar.Auth
import SipxClstr.Registrar.Command

/-!
# Starting a node

A projected document becomes the configuration a driver runs.  What the document only
names, a database or a secret, is resolved here against the environment.
-/

namespace SipxClstr.Startup

open SipxClstr.Sip SipxClstr.Document SipxClstr.Node

/-- What stops a node from starting, once its document has loaded. -/
inductive StartupError where
  | listener (error : ListenerError)
  | unresolvedReference (path reference variableName : Text)
  | missingIdentity (why : Text)
  | roleNotServed (role why : Text)
  deriving DecidableEq

/-- The decision paths a node's roles wire up. -/
structure Capabilities where
  registrar : Bool
  proxy : Bool
  deriving DecidableEq

def Capabilities.callPath : Capabilities :=
  ⟨true, true⟩

def Capabilities.of (roles : Roles) : Capabilities :=
  ⟨.registrar ∈ roles, roles.members.any Role.isProxying⟩

/-- Which location service backs this node. -/
inductive StoreChoice where
  | inMemory
  | postgres (dsn : Text)
  deriving DecidableEq

/-- How a tenant authenticates. -/
structure AuthConfig where
  realm : Text
  /-- The nonce key. -/
  secret : Bytes
  credentials : Registrar.InMemoryCredentials
  deriving DecidableEq

/-- The driver's configuration. -/
structure NodeConfig where
  listeners : Listeners
  capabilities : Capabilities
  tenant : Text
  auth : Option AuthConfig
  policy : Registrar.TenantPolicy
  /-- The domains this tenant serves; empty means any. -/
  domains : List Text
  store : StoreChoice
  maxInFlightTransactions : Nat
  timerC : Nat

/-- A node declared in code. -/
def NodeConfig.listening (listeners : Listeners) : NodeConfig where
  listeners := listeners
  capabilities := .callPath
  tenant := text "default"
  auth := none
  policy := .default
  domains := []
  store := .inMemory
  maxInFlightTransactions := AdmissionSpec.default.maxInFlightTransactions
  timerC := Proxy.defaultTimerC

/-! ## References -/

/-- The environment variable a reference names. -/
def variableFor (reference : Text) : Text :=
  reference.map fun c => if c = '-' ∨ c = '.' ∨ c = '/' then '_' else c.toUpper

def dsnRefPath : Text :=
  text "cluster.locationStore.dsnRef"

/-- Resolve the location store into something the driver opens. -/
def storeChoice (projected : ProjectedConfig) (env : Env) : Except StartupError StoreChoice :=
  match projected.locationStore with
  | none => .ok .inMemory
  | some declared =>
      if declared.backend = text "memory" then
        .ok .inMemory
      else
        match declared.dsnRef with
        | none => .error (.unresolvedReference dsnRefPath [] [])
        | some reference =>
            match env (variableFor reference) with
            | none => .error (.unresolvedReference dsnRefPath reference (variableFor reference))
            | some dsn => .ok (.postgres dsn)

/-- The nonce key of a tenant whose secret does not resolve. -/
def zeroedSecret : Bytes :=
  List.replicate 32 0

/-- Build the digest policy the document asks for. -/
def authConfig (tenant : Text) (projected : ProjectedConfig) (env : Env) :
    Except StartupError (Option AuthConfig) :=
  match projected.tenants.findSome? TenantSpec.auth with
  | none => .ok none
  | some auth =>
      match env (variableFor auth.secretRef) with
      | some _ =>
          .error (.missingIdentity (text "tenant `" ++ tenant ++ text "` requires authentication, but this build has no credential store to check users against (RG-7 owns that). A `secretRef` that resolves would produce a registrar that answers 401 to every REGISTER while appearing protected. Remove `tenant[].auth` to run an open tenant deliberately, or supply credentials once RG-7 lands. Secret `" ++ auth.secretRef ++ text "` was named by reference, never read into the document."))
      | none => .ok (some ⟨auth.realm, zeroedSecret, []⟩)

/-! ## The configuration -/

/-- A role this build has no path for, and why. -/
def unserved : Role → Option Text
  | .edge | .registrar | .inboundProxy | .outboundProxy => none
  | .echo =>
      some (text "the echo endpoint is a UAS (e2e-probe §9) that this driver does not run, and `cluster.echo` is not a section this loader reads. Until it does, a node given this role can only answer as something it is not")
  | .e2eTester =>
      some (text "the probe engine is not driven by this binary, and `cluster.probe` is not a section this loader reads. Until it is, a node given this role would probe nothing")

/-- The first role this build cannot serve. -/
def checkServed (roles : Roles) : Except StartupError Unit :=
  match roles.members.findSome? fun role => (unserved role).map fun why => (role, why) with
  | none => .ok ()
  | some (role, why) => .error (.roleNotServed role.asStr why)

/-- A listener as the document declares it. -/
def buildListener (declared : ListenerSpec) : Except StartupError Listener := do
  let bind ← match parseSocketAddr declared.bind with
    | some bind => .ok bind
    | none => .error (.listener .emptyHost)
  let transport ←
    if declared.transport = text "udp" then
      .ok TransportKind.udp
    else if declared.transport = text "tcp" then
      .ok TransportKind.tcp
    else
      .error (.missingIdentity (text "cluster.listener declares transport `" ++ declared.transport ++
        text "`, which this build cannot serve"))
  match declared.advertise with
  | some advertise => do
      let advertise ← (Advertised.parse advertise).mapError .listener
      (Listener.new transport bind advertise).mapError .listener
  | none => (Listener.bound transport bind).mapError .listener

/-- The registrar's policy for a tenant.  No document key carries the bound on contact
operations, so it is the registrar's own default. -/
def policyOf (tenant : TenantSpec) : Registrar.TenantPolicy where
  defaultExpires := tenant.policy.defaultExpires
  minExpires := tenant.policy.minExpires
  maxExpires := tenant.policy.maxExpires
  maxBindingsPerAor := tenant.policy.maxBindingsPerAor
  maxContactOps := Registrar.TenantPolicy.default.maxContactOps

/-- One tenant a node is what this build serves. -/
def checkTenants (tenants : List TenantSpec) : Except StartupError Unit :=
  if 1 < tenants.length then
    .error (.missingIdentity (text "this build serves one tenant per node and the document declares " ++ decimal tenants.length ++ text ". Honouring the first and ignoring the rest would be a silent partial apply; split them across nodes, or wait for multi-tenancy."))
  else
    .ok ()

/-- The listeners this node runs. -/
def buildListeners (declared : List ListenerSpec) : Except StartupError Listeners := do
  let listeners ← declared.mapM buildListener
  (Listeners.new listeners).mapError .listener

/-- Turn a projected document into the driver's configuration. -/
def nodeConfig (projected : ProjectedConfig) (env : Env) : Except StartupError NodeConfig := do
  checkServed projected.identity.roles
  let listeners ← buildListeners projected.listeners
  let base := NodeConfig.listening listeners
  let tenant := (projected.tenants.head?.map TenantSpec.name).getD base.tenant
  let auth ← authConfig tenant projected env
  checkTenants projected.tenants
  let store ← storeChoice projected env
  .ok
    { listeners
      capabilities := .of projected.identity.roles
      tenant, auth, store
      policy := (projected.tenants.head?.map policyOf).getD base.policy
      domains := (projected.tenants.head?.map TenantSpec.domains).getD base.domains
      maxInFlightTransactions := projected.admission.maxInFlightTransactions
      timerC := projected.timers.timerCMs * 1000000 }

end SipxClstr.Startup
