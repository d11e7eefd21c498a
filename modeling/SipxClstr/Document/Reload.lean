import SipxClstr.Document.Load

/-!
# Reloading

A new document is judged against the active one: by its version, by the class of every
section that changed, by what became of a node's id, and by what became of the keys.
-/

namespace SipxClstr.Document

open SipxClstr.Sip

variable (lib : Libraries)

/-- The two classes of change to a section. -/
inductive ReloadClass where
  | rollout
  | reloadable
  deriving DecidableEq, Repr

/-- Every section and its class. -/
def reloadClasses : List (Text × ReloadClass) :=
  [(text "name", .rollout), (text "environment", .rollout), (text "zones", .rollout),
    (text "profile", .rollout), (text "listener", .rollout), (text "management", .rollout),
    (text "membership", .reloadable), (text "keys", .reloadable), (text "shardMap", .reloadable),
    (text "locationStore", .rollout), (text "registrar", .rollout), (text "tenant", .reloadable),
    (text "normalisation", .reloadable), (text "trunk", .reloadable), (text "domain", .reloadable),
    (text "destinationSet", .reloadable), (text "routeRule", .reloadable),
    (text "ingress", .reloadable), (text "rateLimit", .reloadable), (text "timers", .reloadable),
    (text "security", .reloadable), (text "admission", .reloadable), (text "nat", .reloadable),
    (text "mediaPool", .rollout), (text "observability", .reloadable), (text "probe", .reloadable),
    (text "echo", .reloadable)]

/-- The class of a section.  One that is not in the table is the fail-closed answer. -/
def reloadClass (name : Text) : ReloadClass :=
  ((reloadClasses.find? fun entry => entry.1 = name).map Prod.snd).getD .rollout

/-- The sections whose content a reload would change. -/
structure ReloadPlan where
  changed : List Path
  deriving DecidableEq

/-- The names of the sections of either document, in order and each once. -/
def sectionNames (active next : Config) : List Text :=
  Data.sortedDistinct (active.sections.map Prod.fst ++ next.sections.map Prod.fst)

/-- The sections whose renderings differ. -/
def changedSections (active next : Config) : List Text :=
  (sectionNames active next).filter fun name =>
    sectionOf active.sections name ≠ sectionOf next.sections name

/-- The paths, or the section's own when there is none. -/
def orSection (paths : List Path) (here : Path) : List Path :=
  if paths = [] then [here] else paths

/-- The fields in which two listeners differ. -/
def listenerChanges (here : Path) (before after : ListenerSpec) : List Path :=
  (if before.roles ≠ after.roles then [here.field (text "roles")] else []) ++
  (if before.transport ≠ after.transport then [here.field (text "transport")] else []) ++
  (if before.bind ≠ after.bind then [here.field (text "bind")] else []) ++
  (if before.advertise ≠ after.advertise then [here.field (text "advertise")] else [])

/-- The paths a changed rollout section is named by: as deep as this loader's own reading. -/
def rolloutPaths (name : Text) (active next : Config) (here : Path) : List Path :=
  if name = text "listener" ∧ active.listeners.length = next.listeners.length then
    orSection
      ((List.zip active.listeners next.listeners).mapIdx fun index pair =>
        listenerChanges (here.index index) pair.1 pair.2).flatten
      here
  else if name = text "locationStore" then
    match active.locationStore, next.locationStore with
    | some before, some after =>
        orSection
          ((if before.backend ≠ after.backend then [here.field (text "backend")] else []) ++
            (if before.dsnRef ≠ after.dsnRef then [here.field (text "dsnRef")] else []))
          here
    | _, _ => [here]
  else
    [here]

def rolloutRefused (path : Path) : ConfigError :=
  .new path "CC-RL2" (some (text "a rollout-class change"))
    (text "no change to a rollout-class field; applying one is a restart, staged by the operator (KO-8), and the node keeps running the active version")

/-- A version is above the active one. -/
def checkVersion (active next : Config) : List ConfigError :=
  if next.version ≤ active.version then
    [.new (Path.root.field (text "version")) "CC-D10" (some (decimal next.version))
      (text "a configuration version above the active " ++ decimal active.version ++
        text "; a rollback is a new, higher version carrying the old content")]
  else
    []

/-- The errors of the rollout sections that changed. -/
def checkSections (active next : Config) : List ConfigError :=
  (changedSections active next).flatMap fun name =>
    match reloadClass name with
    | .reloadable => []
    | .rollout => (rolloutPaths name active next (clusterPath.field name)).map rolloutRefused

/-- An id is not re-pointed to another name. -/
def checkIdReassignment (active next : Config) : List ConfigError :=
  (next.membership.mapIdx fun index member =>
    match active.membership.find? fun held => held.node = member.node with
    | none => []
    | some previous =>
        if previous.name = member.name then
          []
        else
          [ConfigError.new
            (((clusterPath.field (text "membership")).index index).field (text "node")) "CC-I3"
            (some (text "id " ++ decimal member.node ++ text " re-pointed from \"" ++ previous.name ++
              text "\" to \"" ++ member.name ++ text "\""))
            (text "an id that still names what it named at the active version; a retired id waits max(L, E_max) + S before it names something else (cluster-membership §7.2 RB11)")]).flatten

/-! ## Keys -/

def tokenLifetimeSeconds : Int :=
  86400

def skewAllowanceSeconds : Int :=
  30

/-- The largest `maxExpires` of the tenants, and the default where there are none. -/
def largestMaxExpires (tenants : List TenantSpec) : Nat :=
  ((tenants.map fun tenant => tenant.policy.maxExpires).max?).getD
    TenantPolicySpec.default.maxExpires

/-- `max(L, E_max) + S`, from the incoming document. -/
def overlapWindow (next : Config) : Int :=
  max tokenLifetimeSeconds (largestMaxExpires next.tenants : Nat) + skewAllowanceSeconds

def keysPath : Path :=
  clusterPath.field (text "keys")

/-- `to_string` of a signed integer. -/
def decimalInt : Int → Text
  | .ofNat value => decimal value
  | .negSucc below => '-' :: decimal (below + 1)

/-- An entry with its place in the list. -/
def findKey (keys : List KeySpec) (wanted : KeySpec → Bool) : Option (Nat × KeySpec) :=
  (keys.mapIdx fun index key => (index, key)).find? fun entry => wanted entry.2

/-- The incoming mint key was distributed at the active version. -/
def checkDistributed (active next : Config) : List ConfigError :=
  match findKey next.keys KeySpec.mint with
  | none => []
  | some (index, minting) =>
      if active.keys.any fun held => held.id = minting.id then
        []
      else
        [.new ((keysPath.index index).field (text "mint")) "CC-RL10"
          (some (text "key id " ++ decimal minting.id ++ text " minting at version " ++
            decimal next.version ++ text ", absent from version " ++ decimal active.version))
          (text "a mint key already distributed at the active version; flipping mint to a key no peer holds produces records a healthy node cannot verify (affinity-token §6 K1, K3)")]

/-- The incoming mint key's window is wide enough. -/
def checkMintWindow (next : Config) : List ConfigError :=
  match findKey next.keys KeySpec.mint with
  | none => []
  | some (index, minting) =>
      if minting.verifyUntil - minting.verifyFrom < overlapWindow next then
        [.new ((keysPath.index index).field (text "verifyUntil")) "CC-RL11"
          (some (text "a verify window of " ++ decimalInt (minting.verifyUntil - minting.verifyFrom) ++
            text " s for minting key id " ++ decimal minting.id))
          (text "a window at least max(L, E_max) + S = " ++ decimalInt (overlapWindow next) ++
            text " s wide; a key mints for as long as it is the mint key, and every record it mints must still verify that long afterwards (cluster-membership §7.1 RB2, affinity-token §6 K4)")]
      else
        []

/-- The outgoing mint key is neither removed nor closed early. -/
def checkOutgoing (active next : Config) : List ConfigError :=
  match active.keys.find? KeySpec.mint with
  | none => []
  | some outgoing =>
      match findKey next.keys fun key => key.id = outgoing.id with
      | none =>
          [.new keysPath "CC-RL11"
            (some (text "key id " ++ decimal outgoing.id ++ text " removed while it was minting"))
            (text "a document that keeps the outgoing mint key verify-valid for max(L, E_max) + S after the flip; retiring it sooner is a rolling restart (cluster-membership §7.1 RB9)")]
      | some (index, incoming) =>
          if incoming.verifyUntil < outgoing.verifyUntil then
            [.new ((keysPath.index index).field (text "verifyUntil")) "CC-RL11"
              (some (text "the verify window of key id " ++ decimal outgoing.id ++
                text " brought forward"))
              (text "a verifyUntil no earlier than the active version's; a key that stops verifying early strands every record minted under it inside max(L, E_max) + S")]
          else
            []

def checkKeyTransition (active next : Config) : List ConfigError :=
  checkDistributed active next ++ checkMintWindow next ++ checkOutgoing active next

/-! ## The judgement -/

/-- Every reason the next document cannot replace the active one. -/
def transitionErrors (active next : Config) : List ConfigError :=
  checkVersion active next ++ checkSections active next ++ checkIdReassignment active next ++
    checkKeyTransition active next

/-- The plan of the reload from one configuration to the next. -/
def planOf (active next : Config) : ReloadPlan :=
  ⟨((changedSections active next).filter fun name => reloadClass name = .reloadable).map
    clusterPath.field⟩

/-- Judge a loaded document against the active one. -/
def judge (active next : Config) : Except (List ConfigError) (Config × ReloadPlan) :=
  if transitionErrors active next = [] then
    .ok (next, planOf active next)
  else
    .error (ordered (transitionErrors active next))

/-- Judge a new document against the active one. -/
def reload (active : Config) (raw : Bytes) (identity : NodeIdentity) (env : Env) :
    Except (List ConfigError) (Config × ReloadPlan) :=
  match load lib raw identity env with
  | .error errors => .error errors
  | .ok next => judge active next

/-- The least document of one version, and the reload of another onto it. -/
def reloadLeast (known : List (Text × Value)) (version : UInt64) (lines : String)
    (version' : UInt64) (lines' : String) :
    Except (List ConfigError) (Config × Config × ReloadPlan) := do
  let active ← loadLeast known version lines
  let (next, plan) ← reload (readsAs known) active (utf8 (leastText version' lines')) leastIdentity
    fun _ => none
  pure (active, next, plan)

theorem reloadLeast_eq_ok {known : List (Text × Value)} {version version' : UInt64}
    {lines lines' : String} {active next : Config} {plan : ReloadPlan}
    (reloads : reloadLeast known version lines version' lines' = .ok (active, next, plan)) :
    loadLeast known version lines = .ok active ∧
      reload (readsAs known) active (utf8 (leastText version' lines')) leastIdentity (fun _ => none) =
        .ok (next, plan) := by
  unfold reloadLeast at reloads
  cases isActive : loadLeast known version lines with
  | error errors => simp [isActive, bind, Except.bind] at reloads
  | ok found =>
      simp only [isActive, bind, Except.bind] at reloads
      split at reloads
      · simp at reloads
      · next pair isNext =>
          cases reloads
          exact ⟨rfl, isNext⟩

/-- Both are loaded as the trees their texts are known to be. -/
theorem reloadLeast_eq {known : List (Text × Value)} {version version' : UInt64}
    {lines lines' : String} {before after : Except (List ConfigError) Config}
    (isBefore : loadLeast known version lines = before)
    (isAfter : loadLeast known version' lines' = after) :
    reloadLeast known version lines version' lines' = (do
      let active ← before
      let next ← after
      let (next, plan) ← judge active next
      pure (active, next, plan)) := by
  subst isBefore isAfter
  have judged : ∀ active, reload (readsAs known) active (utf8 (leastText version' lines'))
      leastIdentity (fun _ => none) = loadLeast known version' lines' >>= judge active := by
    intro active
    rw [reload, ← loadLeastIn, loadLeast]
    cases loadLeastIn (fun _ => none) known version' lines' <;> rfl
  unfold reloadLeast
  simp only [judged, bind_assoc]

end SipxClstr.Document
