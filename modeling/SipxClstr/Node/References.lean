import SipxClstr.Data.Traverse
import SipxClstr.Node.Startup

/-!
# References at start-up

A node that starts depends on what its document names.  The database's address is resolved
or the node does not start; a tenant's nonce secret is resolved by another rule.
-/

namespace SipxClstr.Startup

open SipxClstr.Sip SipxClstr.Document SipxClstr.Node

/-- The node's store is the database its document names, at the address the environment
gives. -/
def StoreResolved (config : Config) (identity : NodeIdentity) (env : Env) (node : NodeConfig) : Prop :=
  ∀ declared, config.locationStore = some declared → .registrar ∈ identity.roles →
    declared.backend ≠ text "memory" →
    ∃ reference dsn, declared.dsnRef = some reference ∧ env (variableFor reference) = some dsn ∧
      node.store = .postgres dsn

/-- Every tenant's nonce secret is made from the value the environment gives. -/
def AuthResolved (derive : Text → Bytes) (config : Config) (env : Env) (node : NodeConfig) : Prop :=
  ∀ tenant ∈ config.tenants, ∀ auth, tenant.auth = some auth →
    ∃ value policy, env (variableFor auth.secretRef) = some value ∧ node.auth = some policy ∧
      policy.secret = derive value

/-- A node that starts has every reference it depends on resolved, and carries the values. -/
def FailsClosed (derive : Text → Bytes) (config : Config) (identity : NodeIdentity) (env : Env) :
    Prop :=
  ∀ node, nodeConfig (project config identity) env = .ok node →
    StoreResolved config identity env node ∧ AuthResolved derive config env node

/-- The store names a database whose address the environment does not give. -/
def StoreUnresolved (projected : ProjectedConfig) (env : Env) : Prop :=
  ∃ declared, projected.locationStore = some declared ∧ declared.backend ≠ text "memory" ∧
    ∀ reference, declared.dsnRef = some reference → env (variableFor reference) = none

/-- A lone tenant that authenticates names a secret the environment gives, or the node does
not start for its store or its listeners. -/
def SecretGiven (config : Config) (identity : NodeIdentity) (env : Env) : Prop :=
  ∀ tenant auth, config.tenants = [tenant] → tenant.auth = some auth →
    (env (variableFor auth.secretRef)).isSome ∨ StoreUnresolved (project config identity) env ∨
      ∀ listeners, buildListeners (project config identity).listeners ≠ .ok listeners

/-! ## The steps of starting -/

theorem checkServed_eq_ok {roles : Roles} (served : ∀ role ∈ roles, unserved role = none) :
    checkServed roles = .ok () := by
  have none : (roles.members.findSome? fun role => (unserved role).map fun why => (role, why)) =
      none := by
    rw [List.findSome?_eq_none_iff]
    intro role member
    rw [served role (List.mem_filter.mp member |>.2 |> of_decide_eq_true), Option.map_none]
  rw [checkServed, none]

theorem checkTenants_eq_ok {tenants : List TenantSpec} :
    checkTenants tenants = .ok () ↔ tenants.length ≤ 1 := by
  unfold checkTenants
  split
  · next several => simp [several]
  · next few => simpa using few

/-- What a store that is chosen was chosen from. -/
theorem storeChoice_eq_ok {projected : ProjectedConfig} {env : Env} {store : StoreChoice}
    (chosen : storeChoice projected env = .ok store) {declared : LocationStoreSpec}
    (isDeclared : projected.locationStore = some declared) (shared : declared.backend ≠ text "memory") :
    ∃ reference dsn, declared.dsnRef = some reference ∧ env (variableFor reference) = some dsn ∧
      store = .postgres dsn := by
  unfold storeChoice at chosen
  simp only [isDeclared, if_neg shared] at chosen
  split at chosen
  · simp at chosen
  · next reference isReference =>
      split at chosen
      · simp at chosen
      · next dsn isDsn =>
          exact ⟨reference, dsn, isReference, isDsn, (Except.ok.inj chosen).symm⟩

theorem exists_storeChoice {projected : ProjectedConfig} {env : Env}
    (resolved : ¬ StoreUnresolved projected env) : ∃ store, storeChoice projected env = .ok store := by
  unfold storeChoice
  cases isDeclared : projected.locationStore with
  | none => exact ⟨_, rfl⟩
  | some declared =>
      dsimp only
      by_cases memory : declared.backend = text "memory"
      · exact ⟨_, by rw [if_pos memory]⟩
      · rw [if_neg memory]
        by_contra stuck
        apply resolved
        refine ⟨declared, isDeclared, memory, ?_⟩
        intro reference isReference
        by_contra given
        obtain ⟨dsn, isDsn⟩ := Option.ne_none_iff_exists'.mp given
        exact stuck ⟨.postgres dsn, by simp [isReference, isDsn]⟩

/-- A configuration is built from a listener set, an authentication, one tenant at most and
a store. -/
theorem nodeConfig_eq_ok {projected : ProjectedConfig} {env : Env} {node : NodeConfig}
    (started : nodeConfig projected env = .ok node) :
    buildListeners projected.listeners = .ok node.listeners ∧
      authConfig node.tenant projected env = .ok node.auth ∧
      projected.tenants.length ≤ 1 ∧ storeChoice projected env = .ok node.store ∧
      node.policy = (projected.tenants.head?.map policyOf).getD .default := by
  unfold nodeConfig at started
  simp only [bind, Except.bind] at started
  split at started
  · simp at started
  split at started
  · simp at started
  next listeners isListeners =>
  split at started
  · simp at started
  next auth isAuth =>
  split at started
  · simp at started
  next few =>
  split at started
  · simp at started
  next store isStore =>
  obtain rfl := Except.ok.inj started
  exact ⟨isListeners, isAuth, checkTenants_eq_ok.mp few, isStore, rfl⟩

theorem exists_nodeConfig {projected : ProjectedConfig} {env : Env} {listeners : Listeners}
    {store : StoreChoice} (served : ∀ role ∈ projected.identity.roles, unserved role = none)
    (isListeners : buildListeners projected.listeners = .ok listeners)
    (isAuth : ∀ name, ∃ auth, authConfig name projected env = .ok auth)
    (few : projected.tenants.length ≤ 1) (isStore : storeChoice projected env = .ok store) :
    ∃ node, nodeConfig projected env = .ok node := by
  unfold nodeConfig
  simp only [bind, Except.bind, checkServed_eq_ok served, isListeners, checkTenants_eq_ok.mpr few,
    isStore]
  obtain ⟨auth, isAuth⟩ := isAuth ((projected.tenants.head?.map TenantSpec.name).getD
    (NodeConfig.listening listeners).tenant)
  rw [isAuth]
  exact ⟨_, rfl⟩

/-- A node whose one tenant authenticates starts only where the secret is not given. -/
theorem secret_unresolved_of_authConfig {name : Text} {projected : ProjectedConfig} {env : Env}
    {tenant : TenantSpec} {auth : AuthSpec} {policy : Option AuthConfig}
    (isTenant : projected.tenants = [tenant]) (isAuth : tenant.auth = some auth)
    (built : authConfig name projected env = .ok policy) :
    env (variableFor auth.secretRef) = none := by
  unfold authConfig at built
  simp only [isTenant, List.findSome?_cons, isAuth] at built
  split at built
  · simp at built
  · assumption

theorem authConfig_of_unresolved (name : Text) {projected : ProjectedConfig} {env : Env}
    {tenant : TenantSpec} {auth : AuthSpec} (isTenant : projected.tenants = [tenant])
    (isAuth : tenant.auth = some auth) (unresolved : env (variableFor auth.secretRef) = none) :
    ∃ policy, authConfig name projected env = .ok policy := by
  unfold authConfig
  simp only [isTenant, List.findSome?_cons, isAuth, unresolved]
  exact ⟨_, rfl⟩

/-- However nonce keys are made from secrets, start-up resolves references fail-closed exactly
where a lone tenant that authenticates names a secret that is given. -/
theorem failsClosed_iff (derive : Text → Bytes) (config : Config) (identity : NodeIdentity)
    (env : Env) (served : ∀ role ∈ identity.roles, unserved role = none) :
    FailsClosed derive config identity env ↔ SecretGiven config identity env := by
  constructor
  · intro resolves tenant auth isTenant isAuth
    by_contra starts
    simp only [not_or, Option.not_isSome_iff_eq_none, not_forall, not_not] at starts
    obtain ⟨unresolved, storeResolved, listeners, isListeners⟩ := starts
    obtain ⟨store, isStore⟩ := exists_storeChoice storeResolved
    have alone : (project config identity).tenants = [tenant] := isTenant
    obtain ⟨node, started⟩ := exists_nodeConfig served isListeners
      (fun name => authConfig_of_unresolved name alone isAuth unresolved)
      (by rw [alone]; rfl) isStore
    obtain ⟨value, _, given, -⟩ := (resolves node started).2 tenant (by rw [isTenant]; simp) auth isAuth
    rw [unresolved] at given
    simp at given
  · intro given node started
    obtain ⟨isListeners, isAuth, few, isStore, -⟩ := nodeConfig_eq_ok started
    constructor
    · intro declared isDeclared registrar shared
      have projected : (project config identity).locationStore = some declared := by
        simp [project, registrar, isDeclared]
      exact storeChoice_eq_ok isStore projected shared
    · intro tenant member auth hasAuth
      have alone : config.tenants = [tenant] := by
        change config.tenants.length ≤ 1 at few
        obtain ⟨only, isOnly⟩ := List.length_eq_one_iff.mp
          (le_antisymm few (List.length_pos_of_mem member))
        rw [isOnly, List.mem_singleton] at member
        rw [isOnly, member]
      have unresolved := secret_unresolved_of_authConfig alone hasAuth isAuth
      rcases given tenant auth alone hasAuth with isGiven | storeUnresolved | noListeners
      · simp [unresolved] at isGiven
      · obtain ⟨declared, isDeclared, shared, unset⟩ := storeUnresolved
        obtain ⟨reference, dsn, isReference, isDsn, -⟩ := storeChoice_eq_ok isStore isDeclared shared
        rw [unset reference isReference] at isDsn
        simp at isDsn
      · exact absurd isListeners (noListeners _)

/-- A tenant that authenticates. -/
def authTenant : List (String × Value) :=
  [("tenant", .sequence [mappingOf [("name", scalar "t"), ("id", .number (.posInt 1)),
    ("auth", mappingOf [("realm", scalar "r"), ("secretRef", scalar "nonce")])]])]

def authTenantLines : String :=
  "  tenant:\n  - name: t\n    id: 1\n    auth:\n      realm: r\n      secretRef: nonce\n"

/-- The same beside a store that names a database. -/
def sharedTenant : List (String × Value) :=
  ("locationStore", mappingOf [("backend", scalar "postgres"), ("dsnRef", scalar "location-dsn")]) ::
    authTenant

def sharedTenantLines : String :=
  "  locationStore:\n    backend: postgres\n    dsnRef: location-dsn\n  tenant:\n  - name: t\n    id: 1\n    auth:\n      realm: r\n      secretRef: nonce\n"

/-- An environment with the database's address and the tenant's secret. -/
def secretsEnv : Env := fun name =>
  if name = text "LOCATION_DSN" then some (text "postgres://db")
  else if name = text "NONCE" then some (text "salt")
  else none

set_option maxRecDepth 4000 in
/-- A tenant that authenticates beside a database, where both are given. -/
theorem failsClosed_secretsEnv : ∃ config,
    loadLeastIn secretsEnv (onlyLeast 1 sharedTenant sharedTenantLines) 1 sharedTenantLines =
        .ok config ∧
      config.tenants.map TenantSpec.auth = [some ⟨text "r", text "nonce"⟩] ∧
        FailsClosed utf8 config leastIdentity secretsEnv := by
  have read : (loadLeastIn secretsEnv (onlyLeast 1 sharedTenant sharedTenantLines) 1
      sharedTenantLines).toOption.map (fun config => config.tenants.map TenantSpec.auth) =
        some [some ⟨text "r", text "nonce"⟩] := by
    rw [loadLeast_eq _ _ sharedTenantLines (find_onlyLeast _ _ _) rfl (by decide +kernel)]
    decide +kernel
  obtain ⟨config, loaded, tenants⟩ := Data.exists_ok_of_map read
  refine ⟨config, loaded, tenants,
    (failsClosed_iff utf8 config leastIdentity secretsEnv (by decide)).mpr ?_⟩
  intro tenant auth isTenant hasAuth
  rw [isTenant, List.map_singleton, List.singleton_inj, hasAuth, Option.some.injEq] at tenants
  rw [tenants]
  exact .inl (by decide +kernel)

/-- With its nonce secret missing, a tenant that authenticates yields a node that runs, and
whose nonce key is all zeroes. -/
theorem not_failsClosed :
    ¬ ∃ derive : Text → Bytes, ∀ (lib : Libraries) (raw : Bytes) (identity : NodeIdentity)
      (env : Env) (config : Config), load lib raw identity env = .ok config →
        (∀ role ∈ identity.roles, unserved role = none) →
          FailsClosed derive config identity env := by
  rintro ⟨derive, closed⟩
  have read : (loadLeast (onlyLeast 1 authTenant authTenantLines) 1 authTenantLines).toOption.map
      (fun config => (config.tenants, (nodeConfig (project config leastIdentity)
        fun _ => none).toOption.map NodeConfig.auth)) =
      some ([⟨text "t", 1, [], .default, some ⟨text "r", text "nonce"⟩⟩],
        some (some ⟨text "r", zeroedSecret, []⟩)) := by
    rw [loadLeast, loadLeast_eq _ _ authTenantLines (find_onlyLeast _ _ _) rfl (by decide +kernel)]
    decide +kernel
  obtain ⟨config, loaded, parts⟩ := Data.exists_ok_of_map read
  obtain ⟨tenants, starts⟩ := Prod.mk.inj parts
  obtain ⟨node, started, -⟩ := Data.exists_ok_of_map starts
  obtain ⟨_, _, given, -⟩ := (closed _ _ _ _ config loaded (by decide) node started).2 _
    (by rw [tenants]; exact List.mem_singleton_self _) _ rfl
  simp at given

end SipxClstr.Startup
