import SipxClstr.Document.Typed

/-!
# What an accepted section holds

A reader that reports nothing read what the schema says is written.
-/

namespace SipxClstr.Document

open SipxClstr.Sip Reading

variable {lib : Libraries}

/-! ## The shared readers -/

theorem reads_closedWorld {map : Mapping} {known : List Text} {path : Path} {done : Unit} :
    (closedWorld lib map known path).Reads done ↔
      ∀ entry ∈ map, ∃ name ∈ known, entry.1.asStr = some name := by
  rw [closedWorld, reads_report, List.filterMap_eq_nil_iff]
  refine forall_congr' fun entry => imp_congr_right fun _ => ?_
  rcases entry with ⟨key, item⟩
  dsimp only
  cases spelled : key.asStr with
  | none => simp
  | some name =>
      by_cases known : name ∈ known
      · simp [known]
      · simp [known]

theorem reads_asMapping {value : Value} {path : Path} {found : Option Mapping} :
    (asMapping value path).Reads found ↔ ∃ map, value.asMapping = some map ∧ found = some map := by
  unfold asMapping
  cases value.asMapping with
  | none => simp
  | some map => simp [eq_comm]

theorem reads_requiredStr {map : Mapping} {key : Text} {path : Path} {rule : String}
    {found : Option Text} :
    (requiredStr map key path rule).Reads found ↔
      ∃ name, (map.get key).bind strOf = some name ∧ found = some name := by
  unfold requiredStr strOf
  cases map.get key with
  | none => simp
  | some value =>
      dsimp only [Option.bind_some]
      cases value.asStr with
      | none => simp
      | some name =>
          cases name with
          | nil => simp [Option.filter]
          | cons first rest => simp [Option.filter, eq_comm]

theorem reads_requiredUint {map : Mapping} {key : Text} {path : Path} {rule : String} {max : Nat}
    {found : Option Nat} :
    (requiredUint map key path rule max).Reads found ↔
      ∃ number, (map.get key).bind (uintOf max) = some number ∧ found = some number := by
  unfold requiredUint uintOf
  cases map.get key with
  | none => simp
  | some value =>
      dsimp only [Option.bind_some]
      cases value.asU64 with
      | none => simp
      | some number =>
          by_cases fits : number ≤ max
          · simp [fits, Option.filter, eq_comm]
          · simp [fits, Option.filter]

theorem reads_readAlgorithm {map : Mapping} {path : Path} {algorithm : KeyAlgorithm} :
    (readAlgorithm map path).Reads algorithm ↔
      orDefault algorithmOf .chaCha20Poly1305 (map.get (text "algorithm")) = some algorithm := by
  unfold readAlgorithm
  cases map.get (text "algorithm") with
  | none => simp [orDefault]
  | some value =>
      dsimp only [orDefault, algorithmOf]
      cases value.asStr.bind KeyAlgorithm.parse <;> simp

theorem reads_readBool {map : Mapping} {key : Text} {path : Path} {found : Option Bool} :
    (readBool map key path).Reads found →
      orDefault Value.asBool false (map.get key) = some (found.getD false) := by
  unfold readBool orDefault
  cases map.get key with
  | none => rintro ⟨_, rfl⟩; rfl
  | some value =>
      dsimp only
      cases value.asBool with
      | none => simp
      | some flag =>
          rw [reads_pure]
          rintro rfl
          rfl

theorem reads_readInstant {map : Mapping} {key : Text} {path : Path} {found : Option Int} :
    (readInstant map key path).Reads found ↔
      ∃ seconds, (map.get key).bind instantOf = some seconds ∧ found = some seconds := by
  unfold readInstant instantOf
  cases map.get key with
  | none => simp
  | some value =>
      dsimp only [Option.bind_some]
      cases value.asStr with
      | none => simp
      | some spelling =>
          dsimp only [Option.bind_some]
          cases parseRfc3339Utc spelling with
          | none => simp
          | some seconds => simp [eq_comm]

/-! ## Keys -/

theorem reads_readKeyEntry {item : Value} {here : Path} {found : Option KeySpec}
    (accepted : (readKeyEntry lib item here).Reads found) :
    ∃ key, keyOf item = some key ∧ found = some key ∧ key.verifyFrom < key.verifyUntil := by
  unfold readKeyEntry at accepted
  rw [reads_bind] at accepted
  obtain ⟨_, asked, accepted⟩ := accepted
  obtain ⟨map, isMapping, rfl⟩ := reads_asMapping.mp asked
  dsimp only at accepted
  rw [reads_bind] at accepted
  obtain ⟨_, -, accepted⟩ := accepted
  split at accepted
  · simp at accepted
  · simp only [reads_bind, reads_requiredUint, reads_requiredStr, reads_readAlgorithm,
      reads_readInstant, reads_report, reads_pure] at accepted
    obtain ⟨_, ⟨id, isId, rfl⟩, _, ⟨secretRef, isRef, rfl⟩, algorithm, isAlgorithm,
      _, ⟨verifyFrom, isFrom, rfl⟩, _, ⟨verifyUntil, isUntil, rfl⟩, mint, isMint, _, opens, rfl⟩ :=
      accepted
    refine ⟨⟨id, algorithm, secretRef, verifyFrom, verifyUntil, mint.getD false⟩, ?_, rfl, ?_⟩
    · simp [keyOf, isMapping, isId, isRef, isAlgorithm, isFrom, isUntil, reads_readBool isMint]
    · dsimp only
      by_contra never
      simp [checkWindow, not_lt.mp never] at opens

theorem reads_readKey {path : Path} {held : List KeySpec} {index : Nat} {item : Value}
    {found : Option KeySpec} (accepted : (readKey lib path held index item).Reads found) :
    ∃ key, keyOf item = some key ∧ found = some key ∧ key.verifyFrom < key.verifyUntil ∧
      ∀ other ∈ held, other.overlaps key = false := by
  unfold readKey at accepted
  rw [reads_bind] at accepted
  obtain ⟨_, entry, accepted⟩ := accepted
  obtain ⟨key, isKey, rfl, opens⟩ := reads_readKeyEntry entry
  simp only [reads_bind, reads_report, reads_pure] at accepted
  obtain ⟨_, apart, rfl⟩ := accepted
  refine ⟨key, isKey, rfl, opens, ?_⟩
  intro other member
  rw [Bool.eq_false_iff]
  intro overlaps
  unfold checkKeyOverlap at apart
  split at apart
  · next none =>
      exact List.find?_eq_none.mp none other member overlaps
  · simp at apart

/-- What holds of the keys of an accepted document. -/
structure AcceptedKeys (keys : List KeySpec) : Prop where
  fits : ∀ key ∈ keys, key.id ≤ u8Max
  opens : ∀ key ∈ keys, key.verifyFrom < key.verifyUntil
  apart : keys.Pairwise fun key entry => key.overlaps entry = false
  oneMints : keys ≠ [] → (keys.filter KeySpec.mint).length = 1

theorem id_le_of_keyOf {item : Value} {key : KeySpec} (isKey : keyOf item = some key) :
    key.id ≤ u8Max := by
  simp only [keyOf, Option.bind_eq_bind, Option.bind_eq_some_iff] at isKey
  obtain ⟨map, -, id, ⟨value, -, isId⟩, _, -, _, -, _, -, _, -, _, -, isKey⟩ := isKey
  obtain rfl := Option.some.inj isKey
  simpa using (Option.filter_eq_some_iff.mp isId).2

theorem checkMinting_eq_nil {keys : List KeySpec} {here : Path} :
    checkMinting keys here = [] ↔ (keys ≠ [] → (keys.filter KeySpec.mint).length = 1) := by
  unfold checkMinting
  dsimp only
  split
  · next several => simp [several]
  · next fine =>
      simp only [true_iff]
      intro nonempty
      by_contra several
      exact fine ⟨several, nonempty⟩

theorem acceptedKeys_nil : AcceptedKeys [] :=
  ⟨by simp, by simp, List.Pairwise.nil, fun nonempty => absurd rfl nonempty⟩

/-- The keys of an accepted section, read from a sequence of entries. -/
theorem acceptedKeys_of_each {here : Path} {items : List Value} {keys : List KeySpec}
    (accepted : (each (readKey lib here) [] 0 items).Reads keys)
    (minting : checkMinting keys here = []) : AcceptedKeys keys := by
  obtain ⟨length, -, placed⟩ := reads_each
    (fun _ _ _ _ read => by obtain ⟨_, _, rfl, _⟩ := reads_readKey read; rfl) accepted
  simp only [List.length_nil, Nat.zero_add] at length placed
  have atPlace : ∀ place (bound : place < keys.length), ∃ item, keyOf item = some keys[place] ∧
      keys[place].verifyFrom < keys[place].verifyUntil ∧
      ∀ other ∈ keys.take place, other.overlaps keys[place] = false := by
    intro place bound
    obtain ⟨found, isFound, read⟩ := placed place items[place] (List.getElem?_eq_getElem (by omega))
    obtain ⟨key, isKey, same, opens, apart⟩ := reads_readKey read
    rw [List.getElem?_eq_getElem bound] at isFound
    obtain rfl := Option.some.inj same
    obtain rfl := Option.some.inj isFound
    exact ⟨items[place], isKey, opens, apart⟩
  constructor
  · intro key member
    obtain ⟨place, bound, rfl⟩ := List.getElem_of_mem member
    obtain ⟨item, isKey, -⟩ := atPlace place bound
    exact id_le_of_keyOf isKey
  · intro key member
    obtain ⟨place, bound, rfl⟩ := List.getElem_of_mem member
    obtain ⟨-, -, opens, -⟩ := atPlace place bound
    exact opens
  · rw [List.pairwise_iff_getElem]
    intro first second firstBound secondBound before
    obtain ⟨-, -, -, apart⟩ := atPlace second secondBound
    exact apart _ (List.mem_take_iff_getElem.mpr ⟨first, by omega, rfl⟩)
  · exact checkMinting_eq_nil.mp minting

theorem acceptedKeys_of_reads {cluster : Mapping} {path : Path} {keys : List KeySpec}
    (accepted : (readKeys lib cluster path).Reads keys) : AcceptedKeys keys := by
  unfold readKeys at accepted
  dsimp only at accepted
  split at accepted
  · obtain rfl := reads_pure.mp accepted
    exact acceptedKeys_nil
  · rw [reads_bind] at accepted
    obtain ⟨_, -, accepted⟩ := accepted
    split at accepted
    · simp at accepted
    · simp only [reads_bind, reads_report, reads_pure] at accepted
      obtain ⟨_, -, keys, read, _, minting, rfl⟩ := accepted
      exact acceptedKeys_of_each read minting

/-! ## The document -/

/-- The cluster section of a document. -/
def clusterOf (document : Value) : Option Mapping :=
  ((document.asMapping.bind fun top => top.get (text "cluster"))).bind Value.asMapping

/-- What an accepted document says of its configuration: every section was read, and the
configuration is what was read. -/
structure Accepts (lib : Libraries) (document : Value) (identity : NodeIdentity) (config : Config)
    (cluster : Mapping) (sections : ReadSections) : Prop where
  isCluster : clusterOf document = some cluster
  recognised : ∀ entry ∈ cluster, ∃ name ∈ clusterKeys ++ deferredSections, entry.1.asStr = some name
  read : (readSections lib cluster clusterPath).Reads sections
  agrees : (crossChecks sections identity clusterPath).Reads ()
  built : configOf (some config.apiVersion) (some config.version) sections
    (canonicalSections lib cluster) = some { config with unapplied := [] }
  walked : ∀ path ∈ (readSections lib cluster clusterPath).unapplied, path ∈ config.unapplied

theorem readCluster_accepted {apiVersion : Option Text} {version : Option Nat} {cluster : Mapping}
    {path : Path} {identity : NodeIdentity} {found : Option Config}
    (accepted : (readCluster lib apiVersion version cluster path identity).Reads found) :
    ∃ sections, (∀ entry ∈ cluster, ∃ name ∈ clusterKeys ++ deferredSections,
        entry.1.asStr = some name) ∧
      (readSections lib cluster path).Reads sections ∧
      (crossChecks sections identity path).Reads () ∧
      found = configOf apiVersion version sections (canonicalSections lib cluster) := by
  simp only [readCluster, reads_bind, reads_closedWorld, reads_pure] at accepted
  obtain ⟨_, recognised, _, -, _, -, sections, read, _, agrees, rfl⟩ := accepted
  exact ⟨sections, recognised, read, agrees, rfl⟩

theorem subset_unapplied_readCluster {apiVersion : Option Text} {version : Option Nat}
    {cluster : Mapping} {path : Path} {identity : NodeIdentity} :
    (readSections lib cluster path).unapplied ⊆
      (readCluster lib apiVersion version cluster path identity).unapplied := by
  simp only [readCluster, unapplied_bind]
  intro place member
  simp [member]

/-- A document of this schema version that is accepted has a cluster section, and that
was read. -/
theorem readTop_accepted {apiVersion : Option Text} {top : Mapping} {identity : NodeIdentity}
    {found : Option Config} (accepted : (readTop lib apiVersion top identity).Reads found) :
    ∃ version cluster, (top.get (text "cluster")).bind Value.asMapping = some cluster ∧
      (readCluster lib apiVersion version cluster clusterPath identity).Reads found ∧
      (readCluster lib apiVersion version cluster clusterPath identity).unapplied ⊆
        (readTop lib apiVersion top identity).unapplied := by
  unfold readTop at accepted ⊢
  simp only [reads_bind] at accepted
  obtain ⟨_, -, version, isVersion, accepted⟩ := accepted
  simp only [unapplied_bind, isVersion.2]
  cases isValue : top.get (text "cluster") with
  | none => simp [isValue] at accepted
  | some value =>
      simp only [isValue, reads_bind] at accepted
      obtain ⟨_, asked, accepted⟩ := accepted
      obtain ⟨cluster, isCluster, rfl⟩ := reads_asMapping.mp asked
      refine ⟨version, cluster, isCluster, accepted, ?_⟩
      simp only [unapplied_bind, asked.2]
      intro place member
      simp [member]

theorem configOf_eq_some {apiVersion : Option Text} {version : Option Nat} {sections : ReadSections}
    {rendered : Sections} {config : Config}
    (built : configOf apiVersion version sections rendered = some config) :
    apiVersion = some config.apiVersion ∧ version = some config.version ∧ config.unapplied = [] := by
  simp only [configOf, Option.bind_eq_bind, Option.bind_eq_some_iff] at built
  obtain ⟨_, rfl, _, rfl, _, -, _, -, built⟩ := built
  obtain rfl := Option.some.inj built
  exact ⟨rfl, rfl, rfl⟩

theorem readDocument_accepted {document : Value} {identity : NodeIdentity} {errors : List ConfigError}
    {config : Config} (accepted : readDocument lib document identity errors = (some config, [])) :
    ∃ cluster sections, Accepts lib document identity config cluster sections := by
  unfold readDocument at accepted
  split at accepted
  · simp at accepted
  · next top isTop =>
      dsimp only at accepted
      split at accepted
      · simp at accepted
      · generalize (requiredStr top (text "apiVersion") .root "CC-D6").value = apiVersion at accepted
        simp only [Prod.mk.injEq, List.append_eq_nil_iff, Option.map_eq_some_iff] at accepted
        obtain ⟨⟨base, isBase, rfl⟩, -, noErrors⟩ := accepted
        obtain ⟨version, cluster, isCluster, read, atTop⟩ := readTop_accepted ⟨noErrors, isBase⟩
        obtain ⟨sections, recognised, isRead, agrees, built⟩ := readCluster_accepted read
        obtain ⟨rfl, rfl, unapplied⟩ := configOf_eq_some built.symm
        refine ⟨cluster, sections, ?_, recognised, isRead, agrees, ?_, ?_⟩
        · simp only [clusterOf, isTop, Option.bind_some]
          exact isCluster
        · rw [← built]
          cases base
          subst unapplied
          rfl
        · intro path member
          exact Data.mem_sortedDistinct.mpr (atTop (subset_unapplied_readCluster member))

/-- An accepted tree is accepted for what its sections say. -/
theorem loadTree_accepted {document : Value} {unresolved : List Text} {identity : NodeIdentity}
    {config : Config} (accepted : loadTree lib document unresolved identity = .ok config) :
    ∃ cluster sections, Accepts lib document identity config cluster sections := by
  unfold loadTree at accepted
  split at accepted
  · next found read =>
      obtain rfl := Except.ok.inj accepted
      exact readDocument_accepted read
  · simp at accepted
  · simp at accepted

/-- An accepted document is accepted for the tree it parses to. -/
theorem load_accepted {raw : Bytes} {identity : NodeIdentity} {env : Env} {config : Config}
    (accepted : load lib raw identity env = .ok config) :
    ∃ document unresolved, loadTree lib document unresolved identity = .ok config := by
  unfold load at accepted
  split at accepted
  · simp at accepted
  · dsimp only at accepted
    split at accepted
    · simp at accepted
    · next document _ => exact ⟨document, _, accepted⟩

/-- What the readers of the sections answered, each without a fault. -/
structure SectionsRead (lib : Libraries) (cluster : Mapping) (path : Path) (sections : ReadSections) :
    Prop where
  name : (requiredStr cluster (text "name") path "CC-7").Reads sections.name
  environment : (requiredStr cluster (text "environment") path "CC-7").Reads sections.environment
  zones : (readZones cluster path).Reads sections.zones
  listeners : (readListeners lib cluster path).Reads sections.listeners
  membership : (readMembership lib cluster path).Reads sections.membership
  keys : (readKeys lib cluster path).Reads sections.keys
  shardMap : (readShardMap lib cluster path).Reads sections.shardMap
  locationStore : (readLocationStore lib cluster path).Reads sections.locationStore
  tenants : (readTenants lib cluster path).Reads sections.tenants
  security : (readSecurity lib cluster path).Reads sections.security
  admission : (readAdmission lib cluster path).Reads sections.admission
  timers : (readTimers lib cluster path).Reads sections.timers

theorem reads_readSections {cluster : Mapping} {path : Path} {sections : ReadSections}
    (accepted : (readSections lib cluster path).Reads sections) :
    SectionsRead lib cluster path sections := by
  simp only [readSections, reads_bind, reads_pure] at accepted
  obtain ⟨_, name, _, environment, _, zones, _, listeners, _, membership, _, keys, _, shardMap,
    _, locationStore, _, tenants, _, security, _, admission, _, timers, rfl⟩ := accepted
  exact ⟨name, environment, zones, listeners, membership, keys, shardMap, locationStore, tenants,
    security, admission, timers⟩

namespace Accepts

variable {document : Value} {identity : NodeIdentity} {config : Config} {cluster : Mapping}
  {sections : ReadSections}

/-- Every field of the configuration is the section it is read from. -/
theorem fields (accepts : Accepts lib document identity config cluster sections) :
    sections.name = some config.name ∧ sections.environment = some config.environment ∧
      config = { config with
        zones := sections.zones, listeners := sections.listeners
        membership := sections.membership, keys := sections.keys
        shardMap := sections.shardMap, locationStore := sections.locationStore
        tenants := sections.tenants, security := sections.security
        admission := sections.admission, timers := sections.timers
        sections := canonicalSections lib cluster } := by
  have built := accepts.built
  simp only [configOf, Option.bind_eq_bind, Option.bind_some, Option.bind_eq_some_iff] at built
  obtain ⟨name, isName, environment, isEnvironment, built⟩ := built
  rw [Option.some_inj] at built
  cases config
  simp only [Config.mk.injEq] at built
  obtain ⟨-, -, rfl, rfl, rfl, rfl, rfl, rfl, rfl, rfl, rfl, rfl, rfl, rfl, -, rfl⟩ := built
  exact ⟨isName, isEnvironment, rfl⟩

theorem sectionsRead (accepts : Accepts lib document identity config cluster sections) :
    SectionsRead lib cluster clusterPath sections :=
  reads_readSections accepts.read

end Accepts

/-- A tree of which no reader reports a fault. -/
structure ReadsCleanly (lib : Libraries) (document : Value) (identity : NodeIdentity)
    (cluster : Mapping) (sections : ReadSections) : Prop where
  top : ∃ top version, document.asMapping = some top ∧
    (requiredStr top (text "apiVersion") .root "CC-D6").Reads (some apiVersion) ∧
    (closedWorld lib top (keysOf ["apiVersion", "version", "cluster"]) .root).Reads () ∧
    (requiredUint top (text "version") .root "CC-D9" u32Max).Reads (some version) ∧
    (top.get (text "cluster")).bind Value.asMapping = some cluster
  recognised : (closedWorld lib cluster (clusterKeys ++ deferredSections) clusterPath).Reads ()
  managed : checkManagement cluster clusterPath = []
  sectionsRead : SectionsRead lib cluster clusterPath sections
  name : sections.name.isSome
  environment : sections.environment.isSome
  agrees : (crossChecks sections identity clusterPath).Reads ()

/-- It is accepted. -/
theorem ReadsCleanly.loadTree_eq {document : Value} {identity : NodeIdentity} {cluster : Mapping}
    {sections : ReadSections} (reads : ReadsCleanly lib document identity cluster sections) :
    ∃ config, loadTree lib document [] identity = .ok config ∧
      config.membership = sections.membership ∧ config.shardMap = sections.shardMap := by
  rcases reads.top with ⟨top, version, isTop, isVersion, recognisedTop, numbered, isCluster⟩
  rcases Option.isSome_iff_exists.mp reads.name with ⟨name, isName⟩
  rcases Option.isSome_iff_exists.mp reads.environment with ⟨environment, isEnvironment⟩
  rcases Option.bind_eq_some_iff.mp isCluster with ⟨value, isValue, isMapping⟩
  have sectionsRead : (readSections lib cluster clusterPath).Reads sections := by
    simp only [readSections, reads_bind, reads_pure]
    have read := reads.sectionsRead
    exact ⟨_, read.name, _, read.environment, _, read.zones, _, read.listeners, _, read.membership,
      _, read.keys, _, read.shardMap, _, read.locationStore, _, read.tenants, _, read.security,
      _, read.admission, _, read.timers, rfl⟩
  have built : ∃ config, configOf (some apiVersion) (some version) sections
      (canonicalSections lib cluster) = some config ∧
      config.membership = sections.membership ∧ config.shardMap = sections.shardMap := by
    simp only [configOf, isName, isEnvironment, Option.bind_eq_bind, Option.bind_some]
    exact ⟨_, rfl, rfl, rfl⟩
  rcases built with ⟨config, isConfig, membership, shardMap⟩
  have body : (readTop lib (some apiVersion) top identity).Reads (some config) := by
    unfold readTop
    simp only [reads_bind, isValue]
    refine ⟨_, recognisedTop, _, numbered, _, reads_asMapping.mpr ⟨_, isMapping, rfl⟩, ?_⟩
    simp only [readCluster, reads_bind, reads_pure]
    exact ⟨(), reads.recognised, (), reads_ignore.mpr trivial, (), reads_report.mpr reads.managed, _,
      sectionsRead, (), reads.agrees, isConfig⟩
  refine ⟨{ config with unapplied := orderedPaths (readTop lib (some apiVersion) top identity).unapplied },
    ?_, membership, shardMap⟩
  have read : readDocument lib document identity [] = (some { config with
      unapplied := orderedPaths (readTop lib (some apiVersion) top identity).unapplied }, []) := by
    unfold readDocument
    simp only [isTop, isVersion.2, isVersion.1, body.1, body.2]
    simp
  unfold loadTree
  rw [reportUnresolved_nil, read]

/-- The keys of an accepted document. -/
theorem acceptedKeys_of_load {raw : Bytes} {identity : NodeIdentity} {env : Env} {config : Config}
    (accepted : load lib raw identity env = .ok config) : AcceptedKeys config.keys := by
  obtain ⟨document, unresolved, accepted⟩ := load_accepted accepted
  obtain ⟨cluster, sections, accepts⟩ := loadTree_accepted accepted
  rw [accepts.fields.2.2]
  exact acceptedKeys_of_reads accepts.sectionsRead.keys

end SipxClstr.Document
