import SipxClstr.Document.Rules

/-!
# Documents without their inline secrets

A secret has no place in a document.  Where one is written all the same, the readers look
only whether something stands there.
-/

namespace SipxClstr.Document

open SipxClstr.Sip Reading

/-! ## Changing what is written under a key -/

/-- Change what stands under the keys that spell this name. -/
def Mapping.atKey (name : Text) (change : Value → Value) (map : Mapping) : Mapping :=
  map.map fun entry => (entry.1, if entry.1.asStr = some name then change entry.2 else entry.2)

namespace Value

/-- The same, behind any tags. -/
def atKey (name : Text) (change : Value → Value) : Value → Value
  | .mapping entries => .mapping (Mapping.atKey name change entries)
  | .tagged tag value => .tagged tag (value.atKey name change)
  | value => value

/-- Change every item of a sequence, behind any tags. -/
def eachItem (change : Value → Value) : Value → Value
  | .sequence items => .sequence (items.map change)
  | .tagged tag value => .tagged tag (value.eachItem change)
  | value => value

end Value

/-! ## What the document says without its secrets -/

def hide (_ : Value) : Value :=
  .null

def redactTls : Value → Value :=
  .atKey (text "tls") (.atKey (text "key") hide)

def redactAuth : Value → Value :=
  .atKey (text "auth") (.atKey (text "secret") hide)

/-- The five places of a cluster where a secret may be written inline. -/
def redactCluster (cluster : Mapping) : Mapping :=
  ((((cluster.atKey (text "locationStore") (.atKey (text "dsn") hide)).atKey
    (text "tenant") (.eachItem redactAuth)).atKey
    (text "keys") (.eachItem (.atKey (text "secret") hide))).atKey
    (text "listener") (.eachItem redactTls)).atKey
    (text "management") redactTls

/-- Behind any tags, a change of a mapping. -/
def Value.onMapping (change : Mapping → Mapping) : Value → Value
  | .mapping entries => .mapping (change entries)
  | .tagged tag value => .tagged tag (value.onMapping change)
  | value => value

/-- The document, with nothing in the places of its inline secrets. -/
def redact : Value → Value :=
  .atKey (text "cluster") (.onMapping redactCluster)

section Accessors

variable {name other : Text} {change : Value → Value} {map : Mapping}

theorem get_atKey : (map.atKey name change).get name = (map.get name).map change := by
  induction map with
  | nil => rfl
  | cons entry rest ih =>
      rw [Mapping.atKey, List.map_cons, get_cons, get_cons]
      by_cases isKey : entry.1.isKey name = true
      · rw [if_pos isKey, if_pos isKey, isKey_iff.mp isKey]
        exact congrArg some (if_pos rfl)
      · rw [if_neg isKey, if_neg isKey]
        exact ih

theorem get_atKey_of_ne (differs : name ≠ other) :
    (map.atKey name change).get other = map.get other := by
  induction map with
  | nil => rfl
  | cons entry rest ih =>
      rw [Mapping.atKey, List.map_cons, get_cons, get_cons]
      by_cases isKey : entry.1.isKey other = true
      · rw [if_pos isKey, if_pos isKey, isKey_iff.mp isKey, if_neg]
        intro same
        exact differs (Option.some.inj same).symm
      · rw [if_neg isKey, if_neg isKey]
        exact ih

@[simp]
theorem has_atKey : (map.atKey name change).has other = map.has other := by
  by_cases differs : name = other
  · rw [Mapping.has, Mapping.has, ← differs, get_atKey, Option.isSome_map]
  · rw [Mapping.has, Mapping.has, get_atKey_of_ne differs]

theorem asMapping_onMapping {change : Mapping → Mapping} (value : Value) :
    (value.onMapping change).asMapping = value.asMapping.map change := by
  induction value using Value.untag.induct with
  | case1 tag value ih => exact ih
  | case2 value untagged =>
      cases value with
      | tagged tag value => exact absurd rfl (untagged tag value)
      | _ => rfl

theorem asMapping_atKey (value : Value) :
    (value.atKey name change).asMapping = value.asMapping.map (Mapping.atKey name change) := by
  induction value using Value.untag.induct with
  | case1 tag value ih => exact ih
  | case2 value untagged =>
      cases value with
      | tagged tag value => exact absurd rfl (untagged tag value)
      | _ => rfl

theorem asSequence_eachItem (value : Value) :
    (value.eachItem change).asSequence = value.asSequence.map (List.map change) := by
  induction value using Value.untag.induct with
  | case1 tag value ih => exact ih
  | case2 value untagged =>
      cases value with
      | tagged tag value => exact absurd rfl (untagged tag value)
      | _ => rfl

@[simp]
theorem typeOf_onMapping {change : Mapping → Mapping} (value : Value) :
    typeOf (value.onMapping change) = typeOf value := by
  cases value <;> rfl

@[simp]
theorem typeOf_atKey (value : Value) : typeOf (value.atKey name change) = typeOf value := by
  cases value <;> rfl

@[simp]
theorem typeOf_eachItem (value : Value) : typeOf (value.eachItem change) = typeOf value := by
  cases value <;> rfl

end Accessors

/-! ## Readers that do not look -/

variable {lib : Libraries}

section Shared

variable {name key : Text} {change : Value → Value} {map : Mapping} {path : Path}

@[simp]
theorem closedWorld_atKey {known : List Text} :
    closedWorld lib (map.atKey name change) known path = closedWorld lib map known path := by
  simp only [closedWorld, Mapping.atKey, List.filterMap_map]
  rfl

theorem declared_atKey {names : List Text} :
    declared (map.atKey name change) names path = declared map names path := by
  have same : (map.atKey name change).has = map.has := funext fun _ => has_atKey
  rw [declared, declared, same]

theorem requiredStr_atKey {rule : String} (differs : name ≠ key) :
    requiredStr (map.atKey name change) key path rule = requiredStr map key path rule := by
  rw [requiredStr, requiredStr, get_atKey_of_ne differs]

theorem requiredUint_atKey {rule : String} {max : Nat} (differs : name ≠ key) :
    requiredUint (map.atKey name change) key path rule max = requiredUint map key path rule max := by
  rw [requiredUint, requiredUint, get_atKey_of_ne differs]

theorem optionalStr_atKey (differs : name ≠ key) :
    optionalStr (map.atKey name change) key = optionalStr map key := by
  rw [optionalStr, optionalStr, get_atKey_of_ne differs]

/-- A mapping that is asked for is the changed one, or the same refusal. -/
theorem asMapping_atKey_bind {α : Type} {value : Value} {rest : Option Mapping → Reading α}
    (same : ∀ map, rest (some (map.atKey name change)) = rest (some map)) :
    (asMapping (value.atKey name change) path >>= rest) = (asMapping value path >>= rest) := by
  unfold asMapping
  rw [asMapping_atKey, typeOf_atKey]
  cases value.asMapping with
  | none => rfl
  | some map =>
      apply ext_of
      all_goals simp [same]

end Shared

/-- A key is refused, and it is not said what for. -/
theorem refuseTlsOf_redactTls {map : Mapping} {path : Path} :
    refuseTlsOf (map.atKey (text "tls") (.atKey (text "key") hide)) path = refuseTlsOf map path := by
  unfold refuseTlsOf
  rw [get_atKey]
  cases map.get (text "tls") with
  | none => rfl
  | some tls =>
      simp only [Option.map_some, refuseInlineTlsKey, asMapping_atKey]
      cases tls.asMapping with
      | none => rfl
      | some block => simp

theorem readListener_redact {path : Path} {index : Nat} {item : Value} :
    readListener lib path index (redactTls item) = readListener lib path index item := by
  unfold readListener redactTls
  apply asMapping_atKey_bind
  intro map
  simp only [closedWorld_atKey, declared_atKey, refuseTlsOf_redactTls]
  simp (disch := decide) only [get_atKey_of_ne, requiredStr_atKey, optionalStr_atKey]

theorem readKeyEntry_redact {item : Value} {here : Path} :
    readKeyEntry lib (item.atKey (text "secret") hide) here = readKeyEntry lib item here := by
  unfold readKeyEntry
  apply asMapping_atKey_bind
  intro map
  simp only [closedWorld_atKey, has_atKey]
  simp (disch := decide) only [requiredStr_atKey, requiredUint_atKey, readAlgorithm, readInstant,
    readBool, get_atKey_of_ne]

theorem readKey_redact {path : Path} {held : List KeySpec} {index : Nat} {item : Value} :
    readKey lib path held index (item.atKey (text "secret") hide) = readKey lib path held index item := by
  rw [readKey, readKey, readKeyEntry_redact]

theorem readAuth_redact {map : Mapping} {path : Path} :
    readAuth lib (map.atKey (text "auth") (.atKey (text "secret") hide)) path =
      readAuth lib map path := by
  unfold readAuth
  rw [get_atKey]
  cases map.get (text "auth") with
  | none => rfl
  | some value =>
      dsimp only [Option.map_some]
      apply asMapping_atKey_bind
      intro block
      simp only [closedWorld_atKey, has_atKey, readAuthOf]
      simp (disch := decide) only [requiredStr_atKey]

theorem readTenant_redact {path : Path} {held : List TenantSpec} {index : Nat} {item : Value} :
    readTenant lib path held index (redactAuth item) = readTenant lib path held index item := by
  unfold readTenant redactAuth
  apply asMapping_atKey_bind
  intro map
  simp only [closedWorld_atKey, readAuth_redact]
  simp (disch := decide) only [requiredStr_atKey, requiredUint_atKey, readTenantPolicy, readQuota,
    readDomains, get_atKey_of_ne]

theorem readLocationStore_redact (cluster : Mapping) {path : Path} :
    readLocationStore lib (cluster.atKey (text "locationStore") (.atKey (text "dsn") hide)) path =
      readLocationStore lib cluster path := by
  unfold readLocationStore
  rw [get_atKey]
  cases cluster.get (text "locationStore") with
  | none => rfl
  | some value =>
      dsimp only [Option.map_some]
      apply asMapping_atKey_bind
      intro map
      simp only [closedWorld_atKey, has_atKey, declared_atKey, readStoreOf]
      simp (disch := decide) only [requiredStr_atKey, optionalStr_atKey]

/-! ## Sections -/

section Sections

variable (cluster : Mapping) {path : Path}

theorem readListeners_redact :
    readListeners lib (cluster.atKey (text "listener") (.eachItem redactTls)) path =
      readListeners lib cluster path := by
  unfold readListeners
  rw [get_atKey]
  cases cluster.get (text "listener") with
  | none => rfl
  | some value =>
      simp only [Option.map_some, asSequence_eachItem, typeOf_eachItem]
      cases value.asSequence with
      | none => rfl
      | some items => exact each_map (fun _ _ _ => readListener_redact) [] 0 items

theorem readKeys_redact :
    readKeys lib (cluster.atKey (text "keys") (.eachItem (.atKey (text "secret") hide))) path =
      readKeys lib cluster path := by
  unfold readKeys
  rw [get_atKey]
  cases cluster.get (text "keys") with
  | none => rfl
  | some value =>
      simp only [Option.map_some, asSequence_eachItem, typeOf_eachItem]
      cases value.asSequence with
      | none => rfl
      | some items =>
          simp only [Option.map_some, List.length_map,
            each_map (fun _ _ _ => readKey_redact) [] 0 items]

theorem readTenants_redact :
    readTenants lib (cluster.atKey (text "tenant") (.eachItem redactAuth)) path =
      readTenants lib cluster path := by
  unfold readTenants
  rw [get_atKey]
  cases cluster.get (text "tenant") with
  | none => rfl
  | some value =>
      simp only [Option.map_some, asSequence_eachItem, typeOf_eachItem]
      cases value.asSequence with
      | none => rfl
      | some items => exact each_map (fun _ _ _ => readTenant_redact) [] 0 items

theorem checkManagement_redact :
    checkManagement (cluster.atKey (text "management") redactTls) path =
      checkManagement cluster path := by
  unfold checkManagement
  rw [get_atKey]
  cases cluster.get (text "management") with
  | none => rfl
  | some value =>
      simp only [Option.map_some, Option.bind_some, redactTls, asMapping_atKey]
      cases value.asMapping with
      | none => rfl
      | some management => exact refuseTlsOf_redactTls

end Sections

/-- A cluster's own keys are those it had. -/
theorem get_redactCluster {cluster : Mapping} {name : Text}
    (isOther : name ∉ [text "locationStore", text "tenant", text "keys", text "listener",
      text "management"]) : (redactCluster cluster).get name = cluster.get name := by
  simp only [List.mem_cons, List.not_mem_nil, or_false, not_or] at isOther
  rcases isOther with ⟨store, tenant, keys, listener, management⟩
  unfold redactCluster
  rw [get_atKey_of_ne (Ne.symm management), get_atKey_of_ne (Ne.symm listener),
    get_atKey_of_ne (Ne.symm keys), get_atKey_of_ne (Ne.symm tenant), get_atKey_of_ne (Ne.symm store)]

theorem readSections_redact {cluster : Mapping} {path : Path} :
    readSections lib (redactCluster cluster) path = readSections lib cluster path := by
  have listeners : readListeners lib (redactCluster cluster) path = readListeners lib cluster path := by
    rw [← readListeners_redact cluster]
    unfold readListeners redactCluster
    simp (disch := decide) only [get_atKey_of_ne, get_atKey]
  have keys : readKeys lib (redactCluster cluster) path = readKeys lib cluster path := by
    rw [← readKeys_redact cluster]
    unfold readKeys redactCluster
    simp (disch := decide) only [get_atKey_of_ne, get_atKey]
  have tenants : readTenants lib (redactCluster cluster) path = readTenants lib cluster path := by
    rw [← readTenants_redact cluster]
    unfold readTenants redactCluster
    simp (disch := decide) only [get_atKey_of_ne, get_atKey]
  have store : readLocationStore lib (redactCluster cluster) path =
      readLocationStore lib cluster path := by
    rw [← readLocationStore_redact cluster]
    unfold readLocationStore redactCluster
    simp (disch := decide) only [get_atKey_of_ne, get_atKey]
  simp only [readSections, listeners, keys, tenants, store]
  simp (disch := decide) only [requiredStr, readZones, readMembership, readShardMap, readSecurity,
    readAdmission, readTimers, readTimersSection, get_redactCluster]

theorem closedWorld_redactCluster {cluster : Mapping} {known : List Text} {path : Path} :
    closedWorld lib (redactCluster cluster) known path = closedWorld lib cluster known path := by
  simp only [redactCluster, closedWorld_atKey]

theorem declared_redactCluster {cluster : Mapping} {names : List Text} {path : Path} :
    declared (redactCluster cluster) names path = declared cluster names path := by
  simp only [redactCluster, declared_atKey]

theorem checkManagement_redactCluster {cluster : Mapping} {path : Path} :
    checkManagement (redactCluster cluster) path = checkManagement cluster path := by
  rw [← checkManagement_redact cluster]
  unfold checkManagement redactCluster
  simp (disch := decide) only [get_atKey_of_ne, get_atKey]

/-! ## Two runs -/

/-- What a reading says besides its configuration: the faults, and whether there is one. -/
def Reading.saysOf {α : Type} (reading : Reading (Option α)) : List ConfigError × Bool :=
  (reading.errors, reading.value.isSome)

theorem isSome_configOf {apiVersion : Option Text} {version : Option Nat} {sections : ReadSections}
    (rendered other : Sections) :
    (configOf apiVersion version sections rendered).isSome =
      (configOf apiVersion version sections other).isSome := by
  unfold configOf
  cases apiVersion with
  | none => rfl
  | some _ =>
      cases version with
      | none => rfl
      | some _ =>
          cases sections.name with
          | none => rfl
          | some _ => cases sections.environment <;> rfl

section Runs

variable {apiVersion : Option Text} {identity : NodeIdentity}

theorem readCluster_redact {version : Option Nat} {cluster : Mapping} {path : Path} :
    (readCluster lib apiVersion version (redactCluster cluster) path identity).saysOf =
      (readCluster lib apiVersion version cluster path identity).saysOf := by
  unfold readCluster
  rw [closedWorld_redactCluster, declared_redactCluster, checkManagement_redactCluster,
    readSections_redact]
  unfold Reading.saysOf
  simp only [errors_bind, value_bind, errors_pure, value_pure]
  rw [isSome_configOf]

/-- The faults of two readings that begin alike. -/
theorem saysOf_bind {α β : Type} {first : Reading α} {rest other : α → Reading (Option β)}
    (same : ∀ value, (rest value).saysOf = (other value).saysOf) :
    (first >>= rest).saysOf = (first >>= other).saysOf := by
  have later := same first.value
  simp only [Reading.saysOf, Prod.mk.injEq] at later ⊢
  simp only [errors_bind, value_bind, later.1, later.2, and_self]

theorem readTop_redact (lib : Libraries) (identity : NodeIdentity) (apiVersion : Option Text)
    (top : Mapping) :
    (readTop lib apiVersion (top.atKey (text "cluster") (.onMapping redactCluster)) identity).saysOf =
      (readTop lib apiVersion top identity).saysOf := by
  unfold readTop
  rw [closedWorld_atKey, requiredUint_atKey (by decide), get_atKey]
  apply saysOf_bind
  intro _
  apply saysOf_bind
  intro version
  cases top.get (text "cluster") with
  | none => rfl
  | some value =>
      simp only [Option.map_some, asMapping, asMapping_onMapping, typeOf_onMapping]
      cases value.asMapping with
      | none => rfl
      | some cluster =>
          have same : (readCluster lib apiVersion version (redactCluster cluster) clusterPath
              identity).saysOf =
              (readCluster lib apiVersion version cluster clusterPath identity).saysOf :=
            readCluster_redact
          simp only [Reading.saysOf, Prod.mk.injEq] at same
          simp only [Option.map_some, Reading.saysOf, errors_bind, value_bind, errors_pure,
            value_pure, List.nil_append, same.1, same.2]

end Runs

/-- Whether a document is of another schema version, and refused for that alone. -/
def isForeign (document : Value) : Bool :=
  match document.asMapping with
  | none => false
  | some top => (requiredStr top (text "apiVersion") .root "CC-D6").value.any (· ≠ apiVersion)

/-- What the readers say of a document, before anything is said of its references. -/
def readersSay (lib : Libraries) (document : Value) (identity : NodeIdentity) :
    List ConfigError × Bool :=
  ((readDocument lib document identity []).2, (readDocument lib document identity []).1.isSome)

theorem asMapping_redact (document : Value) :
    (redact document).asMapping =
      document.asMapping.map (Mapping.atKey (text "cluster") (.onMapping redactCluster)) :=
  asMapping_atKey document

theorem isForeign_redact {document : Value} : isForeign (redact document) = isForeign document := by
  unfold isForeign
  rw [asMapping_redact]
  cases document.asMapping with
  | none => rfl
  | some top =>
      dsimp only [Option.map_some]
      rw [requiredStr_atKey (by decide)]

theorem readersSay_redact {document : Value} {identity : NodeIdentity} :
    readersSay lib (redact document) identity = readersSay lib document identity := by
  unfold readersSay readDocument
  rw [asMapping_redact]
  cases document.asMapping with
  | none => simp [redact]
  | some top =>
      dsimp only [Option.map_some]
      rw [requiredStr_atKey (by decide)]
      split
      · rfl
      · have same := readTop_redact lib identity
          (requiredStr top (text "apiVersion") .root "CC-D6").value top
        simp only [Reading.saysOf, Prod.mk.injEq] at same
        simp only [Option.isSome_map, same.1, same.2]

/-- The readers say the same whatever is reported beside. -/
theorem readDocument_eq (lib : Libraries) {document : Value} (identity : NodeIdentity)
    (errors : List ConfigError)
    (native : isForeign document = false) :
    (readDocument lib document identity errors).2 = errors ++ (readersSay lib document identity).1 ∧
      (readDocument lib document identity errors).1.isSome =
        (readersSay lib document identity).2 := by
  unfold readersSay readDocument
  unfold isForeign at native
  cases isTop : document.asMapping with
  | none => simp
  | some top =>
      simp only [isTop] at native
      simp only [native, Bool.false_eq_true, if_false, Option.isSome_map, List.nil_append,
        List.append_assoc, and_self]

theorem readDocument_foreign {document : Value} {identity : NodeIdentity} (errors : List ConfigError)
    (foreign : isForeign document = true) :
    readDocument lib document identity errors = readDocument lib document identity [] := by
  unfold readDocument
  unfold isForeign at foreign
  cases isTop : document.asMapping with
  | none => simp [isTop] at foreign
  | some top =>
      simp only [isTop] at foreign
      simp only [foreign, if_true]

/-- The readers never speak of references. -/
theorem notOfReferences_readersSay {document : Value} {identity : NodeIdentity} :
    NotOfReferences (readersSay lib document identity).1 := by
  have single : ∀ {path : Path} {rule : String} {errors : List ConfigError},
      Within path [rule] errors → rule ≠ "CC-V4" → NotOfReferences errors := by
    intro path rule errors within differs
    apply within.notOfReferences
    rw [List.mem_singleton]
    exact differs.symm
  unfold readersSay readDocument
  split
  · exact single (within_singleton.mpr ⟨Path.covers_self, List.mem_cons_self⟩) (by decide)
  · next top _ =>
      dsimp only
      split
      · exact single (within_singleton.mpr ⟨Path.covers_self, List.mem_cons_self⟩) (by decide)
      · have version : NotOfReferences (requiredStr top (text "apiVersion") .root "CC-D6").errors :=
          single within_requiredStr_field (by decide)
        intro error member
        rw [List.nil_append, List.mem_append] at member
        rcases member with member | member
        · exact version error member
        · exact notOfReferences_readTop error member

end SipxClstr.Document
