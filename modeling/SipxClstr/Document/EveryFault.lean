import SipxClstr.Document.LogicalIds
import SipxClstr.Document.Rivals
import SipxClstr.Document.Secrets

/-!
# Every fault of a document

A refusal lists the faults of every section.  Of a repetition, of the number of keys that mint and of
a store without its reference it lists what the entries with other faults leave to be seen.
-/

namespace SipxClstr.Document

open SipxClstr.Sip Reading

variable {lib : Libraries} {document : Value} {cluster : Mapping} {identity : NodeIdentity}

/-! ## From a refusal to a section -/

/-- The rules that are reported outside the sections. -/
def outerRules : List String :=
  topRules ++ ["CC-D6", "CC-V4", "CC-V10"]

/-- The names of the sections, of which none begins another. -/
theorem eq_of_prefix {lib : Libraries} {cluster : Mapping} {path : Path}
    {entry other : String × List ConfigError}
    (isEntry : entry ∈ sectionFaults lib cluster path)
    (isOther : other ∈ sectionFaults lib cluster path) (begins : text entry.1 <+: text other.1) :
    entry = other := by
  have names : (sectionFaults lib cluster path).map Prod.fst =
      ["management", "name", "environment", "zones", "listener", "membership", "keys",
        "shardMap", "locationStore", "tenant", "security", "admission", "timers"] := rfl
  have apart : ∀ first ∈ ["management", "name", "environment", "zones", "listener", "membership",
        "keys", "shardMap", "locationStore", "tenant", "security", "admission", "timers"],
      ∀ second ∈ ["management", "name", "environment", "zones", "listener", "membership", "keys",
        "shardMap", "locationStore", "tenant", "security", "admission", "timers"],
      text first <+: text second → first = second := by
    decide +kernel
  have distinct : ((sectionFaults lib cluster path).map Prod.fst).Nodup := by
    rw [names]
    decide +kernel
  apply List.inj_on_of_nodup_map distinct isEntry isOther
  apply apart
  · rw [← names]
    exact List.mem_map_of_mem isEntry
  · rw [← names]
    exact List.mem_map_of_mem isOther
  · exact begins

/-- What is reported at the path of a section is reported of that section. -/
theorem mem_sectionFaults_iff {path : Path} {entry : String × List ConfigError}
    (isEntry : entry ∈ sectionFaults lib cluster path) {error : ConfigError}
    (covers : (path.field (text entry.1)).Covers error.path) :
    (∃ other ∈ sectionFaults lib cluster path, error ∈ other.2) ↔ error ∈ entry.2 := by
  constructor
  · rintro ⟨other, isOther, reported⟩
    rcases within_sectionFaults isOther with ⟨rules, -, within⟩
    have below := (within error reported).1
    rcases List.prefix_or_prefix_of_prefix covers below with begins | begins
    · cases eq_of_prefix isEntry isOther (Path.covers_field_field.mp begins)
      exact reported
    · cases eq_of_prefix isOther isEntry (Path.covers_field_field.mp begins)
      exact reported
  · intro reported
    exact ⟨entry, isEntry, reported⟩

/-- What the readers say at the path of a section is what its reader reports. -/
theorem mem_readersSay_iff (native : isForeign document = false)
    (isCluster : clusterOf document = some cluster) {entry : String × List ConfigError}
    (isEntry : entry ∈ sectionFaults lib cluster clusterPath) {error : ConfigError}
    (covers : (clusterPath.field (text entry.1)).Covers error.path)
    (foreign : ∀ rule ∈ outerRules, error.rule ≠ text rule) :
    error ∈ (readersSay lib document identity).1 ↔ error ∈ entry.2 := by
  cases isTop : document.asMapping with
  | none => simp [clusterOf, isTop] at isCluster
  | some top =>
      have atTop : (top.get (text "cluster")).bind Value.asMapping = some cluster := by
        rw [clusterOf, isTop] at isCluster
        exact isCluster
      have version : error ∉ (requiredStr top (text "apiVersion") .root "CC-D6").errors := by
        intro member
        rcases within_requiredStr_field error member with ⟨-, rule, isRule, same⟩
        cases List.mem_singleton.mp isRule
        exact foreign "CC-D6" (by simp [outerRules]) same
      have sections := @mem_errors_readTop lib top
        (requiredStr top (text "apiVersion") .root "CC-D6").value identity error
        fun rule isRule => foreign rule (List.mem_append_left _ isRule)
      rw [← mem_sectionFaults_iff isEntry covers]
      unfold readersSay readDocument
      unfold isForeign at native
      rw [isTop] at native ⊢
      dsimp only at native ⊢
      rw [if_neg (by rw [native]; exact Bool.false_ne_true)]
      simp only [List.nil_append, List.mem_append, version, false_or, sections, atTop,
        Option.some.injEq, exists_eq_left']

/-- A load reads the document its bytes are. -/
theorem load_eq_loadTree {raw : Bytes} {env : Env}
    (isDocument : documentOf lib raw env = some document) (identity : NodeIdentity) :
    ∃ unresolved, load lib raw identity env = loadTree lib document unresolved identity := by
  rcases Option.bind_eq_some_iff.mp isDocument with ⟨input, isText, isDocument⟩
  unfold load
  cases decoded : fromUtf8 raw with
  | error valid => simp [decoded, Except.toOption] at isText
  | ok found =>
      simp only [decoded, Except.toOption, Option.some.injEq] at isText
      rw [isText]
      cases parsed : parseDocument lib (substitute input env).1 with
      | error why => simp [parsed, Except.toOption] at isDocument
      | ok tree =>
          simp only [parsed, Except.toOption, Option.some.injEq] at isDocument
          rw [isDocument] at parsed
          refine ⟨(substitute input env).2, ?_⟩
          dsimp only
          rw [parsed]

/-- What a refusal says at the path of a section is what its reader reports. -/
theorem mem_refusals_section {raw : Bytes} {env : Env}
    (isDocument : documentOf lib raw env = some document) (native : isForeign document = false)
    (isCluster : clusterOf document = some cluster) {entry : String × List ConfigError}
    (isEntry : entry ∈ sectionFaults lib cluster clusterPath) {error : ConfigError}
    (covers : (clusterPath.field (text entry.1)).Covers error.path)
    (foreign : ∀ rule ∈ outerRules, error.rule ≠ text rule) :
    error ∈ refusals (load lib raw identity env) ↔ error ∈ entry.2 := by
  rcases load_eq_loadTree isDocument identity with ⟨unresolved, same⟩
  have reference : error ∉ reportUnresolved document unresolved := by
    rw [reportUnresolved_eq, List.mem_map]
    rintro ⟨mention, -, rfl⟩
    exact foreign "CC-V4" (by simp [outerRules]) rfl
  have read : error ∉ (if (readersSay lib document identity).2 then [] else [incomplete]) := by
    split
    · exact List.not_mem_nil
    · rw [List.mem_singleton]
      rintro rfl
      exact foreign "CC-V10" (by simp [outerRules]) rfl
  rw [same, refusals_loadTree native, ← mem_readersSay_iff native isCluster isEntry covers foreign]
  split
  · next none =>
      have empty := (List.append_eq_nil_iff.mp none).2
      constructor
      · exact fun member => absurd member read
      · intro member
        rw [empty] at member
        contradiction
  · rw [ordered, Data.mem_sortedDistinct, List.mem_append]
    exact or_iff_right reference

/-! ## The sections that are lists -/

section Lists

variable {items : List Value}

/-- Where a section lists something, there is a cluster, and this is its list. -/
theorem section_of_item {name : String} {place : Nat} {item : Value}
    (isItem : (sectionItems name document)[place]? = some item) :
    ∃ cluster value, clusterOf document = some cluster ∧ cluster.get (text name) = some value ∧
      value.asSequence = some (sectionItems name document) := by
  unfold sectionItems at isItem ⊢
  cases isCluster : clusterOf document with
  | none => simp [isCluster] at isItem
  | some cluster =>
      cases written : cluster.get (text name) with
      | none => simp [isCluster, written] at isItem
      | some value =>
          cases isList : value.asSequence with
          | none => simp [isCluster, written, isList] at isItem
          | some items => exact ⟨cluster, value, rfl, written, by simp [written, isList]⟩

/-- What a refusal says of a list is what its reader does. -/
theorem reports_of_refusals {α : Type} {kind : Distinction α} {name : String} {raw : Bytes}
    {env : Env} (isDocument : documentOf lib raw env = some document)
    (native : isForeign document = false) (own : kind.rule ∉ outerRules)
    (reports : ∀ cluster value, clusterOf document = some cluster →
      cluster.get (text name) = some value →
      value.asSequence = some (sectionItems name document) →
      ∃ errors, (name, errors) ∈ sectionFaults lib cluster clusterPath ∧
        kind.Reports errors (clusterPath.field (text name)) (sectionItems name document)) :
    kind.Reports (refusals (load lib raw identity env)) (clusterPath.field (text name))
      (sectionItems name document) := by
  intro place item value isItem written
  rcases section_of_item isItem with ⟨cluster, found, isCluster, isFound, isList⟩
  rcases reports cluster found isCluster isFound isList with ⟨errors, isEntry, reports⟩
  rw [← reports place item value isItem written]
  unfold Distinction.Reported
  apply exists_congr
  intro holder
  apply mem_refusals_section isDocument native isCluster isEntry
  · exact Path.covers_field (Path.covers_index Path.covers_self)
  · intro rule isRule same
    cases text_inj.mp same
    exact own isRule

theorem errors_readMembership {path : Path} {value : Value}
    (written : cluster.get (text "membership") = some value)
    (isList : value.asSequence = some items) :
    (readMembership lib cluster path).errors =
      (each (readMember lib (path.field (text "membership"))) [] 0 items).errors := by
  unfold readMembership
  simp only [written, isList]

theorem errors_readTenants {path : Path} {value : Value}
    (written : cluster.get (text "tenant") = some value) (isList : value.asSequence = some items) :
    (readTenants lib cluster path).errors =
      (each (readTenant lib (path.field (text "tenant"))) [] 0 items).errors := by
  unfold readTenants
  simp only [written, isList]

/-- A fault of another rule than those of the list as a whole is one of its entries. -/
theorem mem_errors_readKeys {path : Path} {value : Value}
    (written : cluster.get (text "keys") = some value) (isList : value.asSequence = some items)
    {here : Path} {rule : String} {found : Option Text} {expected : Text}
    (foreign : rule ∉ ["CC-V8", "CC-KY5"]) :
    .new here rule found expected ∈ (readKeys lib cluster path).errors ↔
      .new here rule found expected ∈
        (each (readKey lib (path.field (text "keys"))) [] 0 items).errors := by
  simp only [List.mem_cons, List.not_mem_nil, or_false, not_or] at foreign
  have count : ∀ {held below}, .new here rule found expected ∉ checkMinting held below := by
    intro held below
    unfold checkMinting
    dsimp only
    split <;> simp [ConfigError.new, text_inj, foreign]
  unfold readKeys
  simp only [written, isList, errors_bind, errors_ignore, errors_report, errors_pure,
    List.nil_append, List.append_nil, List.mem_append, count, or_false]
  split <;> simp [ConfigError.new, text_inj, foreign]

section Documents

variable {raw : Bytes} {env : Env} (isDocument : documentOf lib raw env = some document)
  (native : isForeign document = false)

include isDocument native

/-- The faults between members that a refusal lists. -/
theorem reports_membership {α : Type} {kind : Distinction α} (own : kind.rule ∉ outerRules)
    (reports : ∀ path items,
      kind.Reports (each (readMember lib path) [] 0 items).errors path items) :
    kind.Reports (refusals (load lib raw identity env)) (clusterPath.field (text "membership"))
      (sectionItems "membership" document) := by
  apply reports_of_refusals isDocument native own
  intro cluster value isCluster written isList
  refine ⟨(readMembership lib cluster clusterPath).errors, by simp [sectionFaults], ?_⟩
  rw [errors_readMembership written isList]
  exact reports _ _

/-- The faults between tenants that a refusal lists. -/
theorem reports_tenants {α : Type} {kind : Distinction α} (own : kind.rule ∉ outerRules)
    (reports : ∀ path items,
      kind.Reports (each (readTenant lib path) [] 0 items).errors path items) :
    kind.Reports (refusals (load lib raw identity env)) (clusterPath.field (text "tenant"))
      (sectionItems "tenant" document) := by
  apply reports_of_refusals isDocument native own
  intro cluster value isCluster written isList
  refine ⟨(readTenants lib cluster clusterPath).errors, by simp [sectionFaults], ?_⟩
  rw [errors_readTenants written isList]
  exact reports _ _

/-- The faults between keys that a refusal lists. -/
theorem reports_keys :
    keyWindow.Reports (refusals (load lib raw identity env)) (clusterPath.field (text "keys"))
      (sectionItems "keys" document) := by
  apply reports_of_refusals isDocument native
  · simp [keyWindow, outerRules, topRules, crossRules]
  · intro cluster value isCluster written isList
    refine ⟨(readKeys lib cluster clusterPath).errors, by simp [sectionFaults], ?_⟩
    intro place item window isItem isWindow
    rw [← @reports_keyWindow lib _ _ place item window isItem isWindow]
    unfold Distinction.Reported
    apply exists_congr
    intro holder
    exact mem_errors_readKeys written isList (by simp [keyWindow])

end Documents

end Lists

/-! ## Keys that mint -/

/-- The list of keys, where there is one. -/
def declaredKeys (document : Value) : Option (List Value) :=
  ((clusterOf document).bind fun cluster => cluster.get (text "keys")).bind Value.asSequence

/-- The fault of a list in which not one key mints. -/
def mintFault (found : Option Text) : ConfigError :=
  .new (clusterPath.field (text "keys")) "CC-KY5" found
    (text "exactly one minting key at any configuration version (affinity-token §6)")

theorem exists_mintFault {keys : List KeySpec} :
    (∃ found, mintFault found ∈ checkMinting keys (clusterPath.field (text "keys"))) ↔
      keys ≠ [] ∧ (keys.filter KeySpec.mint).length ≠ 1 := by
  unfold checkMinting
  dsimp only
  split
  · next counts =>
      simp only [List.mem_singleton]
      exact iff_of_true ⟨_, rfl⟩ counts.symm
  · next single =>
      simp only [List.not_mem_nil, exists_false, false_iff]
      exact fun counts => single counts.symm

theorem exists_mintFault_refusals {raw : Bytes} {env : Env} {items : List Value}
    (isDocument : documentOf lib raw env = some document) (native : isForeign document = false)
    (isDeclared : declaredKeys document = some items) :
    (∃ found, mintFault found ∈ refusals (load lib raw identity env)) ↔
      items.any isKey = true ∧ (items.countP fun item => isKey item && writesMint item) ≠ 1 := by
  rcases Option.bind_eq_some_iff.mp isDeclared with ⟨value, isValue, isList⟩
  rcases Option.bind_eq_some_iff.mp isValue with ⟨cluster, isCluster, written⟩
  have isEntry : ("keys", (readKeys lib cluster clusterPath).errors) ∈
      sectionFaults lib cluster clusterPath := by
    simp [sectionFaults]
  have refused : ∀ found, mintFault found ∈ refusals (load lib raw identity env) ↔
      mintFault found ∈ (readKeys lib cluster clusterPath).errors := by
    intro found
    apply mem_refusals_section isDocument native isCluster isEntry Path.covers_self
    intro rule isRule same
    cases text_inj.mp same
    simp [outerRules, topRules, crossRules] at isRule
  have ofEntries : ∀ found, mintFault found ∉
      (each (readKey lib (clusterPath.field (text "keys"))) [] 0 items).errors := fun found =>
    Within.not_mem (within_each (fun _ _ _ => within_readKey) [] 0 items) (by simp)
  have kept : (each (readKey lib (clusterPath.field (text "keys"))) [] 0 items).value =
      items.filterMap keptKey :=
    @value_each _ (readKey lib (clusterPath.field (text "keys"))) keptKey
      (fun _ _ _ => value_readKey) [] 0 items
  rw [← filterMap_keptKey_ne_nil, ← length_minting, ← exists_mintFault]
  apply exists_congr
  intro found
  rw [refused]
  unfold readKeys
  simp only [written, isList, errors_bind, errors_ignore, errors_report, errors_pure,
    List.nil_append, List.append_nil, List.mem_append, ofEntries, false_or, kept]
  apply or_iff_right
  split <;> simp [mintFault, ConfigError.new, text_inj]

/-! ## The store's reference -/

/-- What stands under `locationStore`. -/
def storeOf (document : Value) : Option Value :=
  (clusterOf document).bind fun cluster => cluster.get (text "locationStore")

/-- The fault of a store that needs a reference and has none. -/
def dsnFault : ConfigError :=
  .new ((clusterPath.field (text "locationStore")).field (text "dsnRef")) "CC-V9" none
    (text "a dsnRef; a store that is not in-process needs one")

/-- The document with another store. -/
def withStore (store : Value) : Value → Value :=
  .atKey (text "cluster") (.onMapping (Mapping.atKey (text "locationStore") fun _ => store))

/-- A store is another without its other faults: what it says of the backend is kept, and whether
there is a reference. -/
structure Repairs (lib : Libraries) (written repaired : Value) : Prop where
  backend : ∀ backend, writtenName "backend" written = some backend →
    writtenName "backend" repaired = some backend
  dsnRef : writtenStr "dsnRef" repaired = writtenStr "dsnRef" written
  others : ∀ error ∈ (readLocationStore lib [(scalar "locationStore", repaired)] clusterPath).errors,
    error = dsnFault

theorem mem_errors_readLocationStore {value : Value}
    (written : cluster.get (text "locationStore") = some value) :
    dsnFault ∈ (readLocationStore lib cluster clusterPath).errors ↔
      (∃ backend, writtenName "backend" value = some backend ∧ backend ≠ text "memory") ∧
        writtenStr "dsnRef" value = none := by
  have apart : ∀ {errors : List ConfigError}, Within .root ["CC-D3", "CC-V2", "CC-7"] errors →
      dsnFault ∉ errors :=
    fun within => within.not_mem (by simp)
  unfold readLocationStore asMapping writtenName writtenStr
  rw [written]
  dsimp only
  cases value.asMapping with
  | none => simp [dsnFault, ConfigError.new, text_inj]
  | some map =>
      have unknown : dsnFault ∉ (closedWorld lib map (keysOf ["backend", "dsnRef", "ha"])
          (clusterPath.field (text "locationStore"))).errors :=
        apart (within_closedWorld Path.covers_root (by simp))
      have backend : dsnFault ∉ (requiredStr map (text "backend")
          (clusterPath.field (text "locationStore")) "CC-7").errors :=
        apart (within_requiredStr Path.covers_root (by simp))
      have inline : ∀ {found expected}, dsnFault ≠
          .new ((clusterPath.field (text "locationStore")).field (text "dsn")) "CC-V9" found
            expected := by
        intro found expected same
        have atField := congrArg ConfigError.path same
        simp [dsnFault, ConfigError.new, Path.field_inj, text_inj] at atField
      simp only [errors_bind, errors_pure, errors_ignore, errors_report, value_pure,
        List.nil_append, List.mem_append, unknown, false_or, readStoreOf, backend,
        value_requiredStr, Option.bind_some]
      have declared : dsnFault ∉ (if map.has (text "dsn") then
          [ConfigError.new ((clusterPath.field (text "locationStore")).field (text "dsn")) "CC-V9"
            (some (text "an inline DSN")) (noInlineSecret (text "dsnRef"))] else []) := by
        split
        · exact fun member => inline (List.mem_singleton.mp member)
        · exact List.not_mem_nil
      simp only [declared, false_or]
      cases (map.get (text "backend")).bind strOf with
      | none => simp
      | some backend =>
          simp only [errors_bind, errors_report, errors_pure, List.append_nil, checkDsnRef,
            Option.some.injEq, exists_eq_left']
          rw [List.mem_ite_nil_right]
          exact and_iff_left (List.mem_singleton.mpr rfl)

theorem clusterOf_withStore (store : Value) (isCluster : clusterOf document = some cluster) :
    clusterOf (withStore store document) =
      some (cluster.atKey (text "locationStore") fun _ => store) := by
  rcases Option.bind_eq_some_iff.mp isCluster with ⟨value, isValue, isMapping⟩
  rcases Option.bind_eq_some_iff.mp isValue with ⟨top, isTop, written⟩
  rw [clusterOf, withStore, asMapping_atKey, isTop, Option.map_some, Option.bind_some, get_atKey,
    written, Option.map_some, Option.bind_some, asMapping_onMapping, isMapping, Option.map_some]

theorem isForeign_withStore (store : Value) :
    isForeign (withStore store document) = isForeign document := by
  unfold isForeign withStore
  rw [asMapping_atKey]
  cases document.asMapping with
  | none => rfl
  | some top =>
      dsimp only [Option.map_some]
      rw [requiredStr_atKey (by decide)]

/-- A store of which nothing is known but that it is elsewhere. -/
def bareStore : Value :=
  mappingOf [("backend", scalar "redis")]

theorem repairs_bareStore {written : Value} (backend : writtenName "backend" written = none)
    (dsnRef : writtenStr "dsnRef" written = none) : Repairs lib written bareStore where
  backend := by
    intro found isBackend
    rw [backend] at isBackend
    exact absurd isBackend.symm (Option.some_ne_none found)
  dsnRef := by
    rw [dsnRef]
    rfl
  others := by
    have reported : (readLocationStore lib [(scalar "locationStore", bareStore)]
        clusterPath).errors = [dsnFault] := by
      rfl
    rw [reported]
    exact fun error member => List.mem_singleton.mp member

/-! ## Every fault -/

/-- The uniqueness, mint-count and reference faults of a document that are to be reported, whatever
else is wrong with it. -/
structure ReportsEvery (lib : Libraries) (identity : NodeIdentity) (document : Value)
    (errors : List ConfigError) : Prop where
  nodes : memberNode.ReportsAll errors (clusterPath.field (text "membership"))
    (sectionItems "membership" document)
  names : memberName.ReportsAll errors (clusterPath.field (text "membership"))
    (sectionItems "membership" document)
  endpoints : memberRpc.ReportsAll errors (clusterPath.field (text "membership"))
    (sectionItems "membership" document)
  tenantIds : tenantId.ReportsAll errors (clusterPath.field (text "tenant"))
    (sectionItems "tenant" document)
  tenantNames : tenantName.ReportsAll errors (clusterPath.field (text "tenant"))
    (sectionItems "tenant" document)
  windows : keyWindow.ReportsAll errors (clusterPath.field (text "keys"))
    (sectionItems "keys" document)
  minting : ∀ items, declaredKeys document = some items →
    ((∃ found, mintFault found ∈ errors) ↔ items.countP writesMint ≠ 1)
  store : ∀ written, storeOf document = some written → ∀ repaired, Repairs lib written repaired →
    (dsnFault ∈ errors ↔ dsnFault ∈ (readersSay lib (withStore repaired document) identity).1)

/-- The keys that mint are counted among the complete ones, where there is a complete one. -/
def CountsMints (items : List Value) : Prop :=
  if items.countP writesMint = 1 then
    (items.countP fun item => isKey item && writesMint item) = 1 ∨ items.any isKey = false
  else
    (items.countP fun item => isKey item && writesMint item) ≠ 1 ∧ items.any isKey = true

/-- No fault of a document hides another of these. -/
structure Unobscured (document : Value) : Prop where
  nodes : memberNode.Compares (sectionItems "membership" document)
  names : memberName.Compares (sectionItems "membership" document)
  endpoints : memberRpc.Compares (sectionItems "membership" document)
  tenantIds : tenantId.Compares (sectionItems "tenant" document)
  tenantNames : tenantName.Compares (sectionItems "tenant" document)
  windows : keyWindow.Compares (sectionItems "keys" document)
  minting : ∀ items, declaredKeys document = some items → CountsMints items
  store : ∀ written, storeOf document = some written →
    (writtenName "backend" written).isSome ∨ (writtenStr "dsnRef" written).isSome

theorem countsMints_iff {items : List Value} :
    CountsMints items ↔ ((items.any isKey = true ∧
      (items.countP fun item => isKey item && writesMint item) ≠ 1) ↔
        items.countP writesMint ≠ 1) := by
  unfold CountsMints
  cases items.any isKey with
  | false => split <;> simp_all
  | true => split <;> simp_all

section Store

variable {raw : Bytes} {env : Env} {written : Value}
  (isDocument : documentOf lib raw env = some document) (native : isForeign document = false)
  (isStore : storeOf document = some written)

include isDocument native isStore

/-- When the fault of a missing reference is reported, and when it is once the store is repaired. -/
theorem mem_dsnFault_iff :
    (dsnFault ∈ refusals (load lib raw identity env) ↔
      (∃ backend, writtenName "backend" written = some backend ∧ backend ≠ text "memory") ∧
        writtenStr "dsnRef" written = none) ∧
    ∀ repaired, (dsnFault ∈ (readersSay lib (withStore repaired document) identity).1 ↔
      (∃ backend, writtenName "backend" repaired = some backend ∧ backend ≠ text "memory") ∧
        writtenStr "dsnRef" repaired = none) := by
  rcases Option.bind_eq_some_iff.mp isStore with ⟨cluster, isCluster, isWritten⟩
  have isEntry : ∀ cluster, ("locationStore", (readLocationStore lib cluster clusterPath).errors) ∈
      sectionFaults lib cluster clusterPath := by
    intro cluster
    simp [sectionFaults]
  have covers : (clusterPath.field (text "locationStore")).Covers dsnFault.path :=
    Path.covers_field Path.covers_self
  have foreign : ∀ rule ∈ outerRules, dsnFault.rule ≠ text rule := by
    intro rule isRule same
    cases text_inj.mp same
    simp [outerRules, topRules, crossRules] at isRule
  constructor
  · rw [mem_refusals_section isDocument native isCluster (isEntry _) covers foreign]
    exact mem_errors_readLocationStore isWritten
  · intro repaired
    have native' := (isForeign_withStore repaired).trans native
    rw [mem_readersSay_iff native' (clusterOf_withStore repaired isCluster) (isEntry _) covers
      foreign]
    apply mem_errors_readLocationStore
    rw [get_atKey, isWritten, Option.map_some]

/-- A missing reference is reported as it is once the store is repaired exactly where the store
says of its backend, or has a reference. -/
theorem store_iff :
    (∀ repaired, Repairs lib written repaired → (dsnFault ∈ refusals (load lib raw identity env) ↔
      dsnFault ∈ (readersSay lib (withStore repaired document) identity).1)) ↔
      (writtenName "backend" written).isSome ∨ (writtenStr "dsnRef" written).isSome := by
  rcases @mem_dsnFault_iff lib document identity raw env written isDocument native isStore with
    ⟨refused, repairedRefused⟩
  simp only [refused, repairedRefused]
  constructor
  · intro same
    by_contra silent
    rw [not_or, Option.not_isSome_iff_eq_none, Option.not_isSome_iff_eq_none] at silent
    have found := (same bareStore (repairs_bareStore silent.1 silent.2)).mpr
      ⟨⟨text "redis", rfl, by decide⟩, rfl⟩
    rcases found with ⟨⟨backend, isBackend, -⟩, -⟩
    rw [silent.1] at isBackend
    exact absurd isBackend.symm (Option.some_ne_none backend)
  · intro told repaired repairs
    rw [repairs.dsnRef]
    rcases told with told | told
    · rcases Option.isSome_iff_exists.mp told with ⟨backend, isBackend⟩
      rw [isBackend, repairs.backend backend isBackend]
    · rcases Option.isSome_iff_exists.mp told with ⟨reference, isReference⟩
      simp [isReference]

end Store

/-- Every such fault is reported exactly where no other fault hides it. -/
theorem reportsEvery_iff (lib : Libraries) (raw : Bytes) (identity : NodeIdentity) (env : Env)
    (document : Value) (isDocument : documentOf lib raw env = some document)
    (native : isForeign document = false) :
    ReportsEvery lib identity document (refusals (load lib raw identity env)) ↔
      Unobscured document := by
  have nodes := (@reports_membership lib document identity raw env isDocument native _ memberNode
    (by simp [memberNode, outerRules, topRules, crossRules])
    fun _ _ => reports_memberNode).reportsAll_iff
  have names := (@reports_membership lib document identity raw env isDocument native _ memberName
    (by simp [memberName, outerRules, topRules, crossRules])
    fun _ _ => reports_memberName).reportsAll_iff
  have endpoints := (@reports_membership lib document identity raw env isDocument native _ memberRpc
    (by simp [memberRpc, outerRules, topRules, crossRules])
    fun _ _ => reports_memberRpc).reportsAll_iff
  have tenantIds := (@reports_tenants lib document identity raw env isDocument native _ tenantId
    (by simp [tenantId, outerRules, topRules, crossRules])
    fun _ _ => reports_tenantId).reportsAll_iff
  have tenantNames := (@reports_tenants lib document identity raw env isDocument native _ tenantName
    (by simp [tenantName, outerRules, topRules, crossRules])
    fun _ _ => reports_tenantName).reportsAll_iff
  have windows := (@reports_keys lib document identity raw env isDocument native).reportsAll_iff
  constructor
  · intro reports
    refine ⟨nodes.mp reports.nodes, names.mp reports.names, endpoints.mp reports.endpoints,
      tenantIds.mp reports.tenantIds, tenantNames.mp reports.tenantNames,
      windows.mp reports.windows, ?_, ?_⟩
    · intro items isDeclared
      rw [countsMints_iff, ← @exists_mintFault_refusals lib document identity raw env items isDocument
        native isDeclared]
      exact reports.minting items isDeclared
    · intro written isStore
      exact (store_iff isDocument native isStore).mp (reports.store written isStore)
  · intro visible
    refine ⟨nodes.mpr visible.nodes, names.mpr visible.names, endpoints.mpr visible.endpoints,
      tenantIds.mpr visible.tenantIds, tenantNames.mpr visible.tenantNames,
      windows.mpr visible.windows, ?_, ?_⟩
    · intro items isDeclared
      rw [exists_mintFault_refusals isDocument native isDeclared, ← countsMints_iff]
      exact visible.minting items isDeclared
    · intro written isStore
      exact (store_iff isDocument native isStore).mpr (visible.store written isStore)

/-! ## Two memberships -/

/-- A member of which every key is written, and its name. -/
def rival (name : String) : List (String × Value) :=
  [("node", .number (.posInt 2)), ("name", scalar name), ("roles", .sequence [scalar "registrar"]),
    ("rpc", scalar (name ++ ":7000"))]

/-- Two members of one id. -/
def rivals : List (String × Value) :=
  [("membership", .sequence [mappingOf (rival "a" ++ [("zone", scalar "z")]),
    mappingOf (rival "b" ++ [("zone", scalar "z")])])]

def rivalsLines : String :=
  "  membership:\n  - node: 2\n    name: a\n    roles: [registrar]\n    rpc: a:7000\n    zone: z\n  - node: 2\n    name: b\n    roles: [registrar]\n    rpc: b:7000\n    zone: z\n"

/-- The same, where the first is in no zone. -/
def hiddenRivals : List (String × Value) :=
  [("membership", .sequence [mappingOf (rival "a"),
    mappingOf (rival "b" ++ [("zone", scalar "z")])])]

def hiddenRivalsLines : String :=
  "  membership:\n  - node: 2\n    name: a\n    roles: [registrar]\n    rpc: a:7000\n  - node: 2\n    name: b\n    roles: [registrar]\n    rpc: b:7000\n    zone: z\n"

set_option maxRecDepth 4000 in
/-- Two complete entries of one id: the second is reported. -/
theorem reportsEvery_rivals :
    ReportsEvery (readsAs (onlyLeast 1 rivals rivalsLines)) leastIdentity (leastDocument 1 rivals)
      (refusals (loadLeast (onlyLeast 1 rivals rivalsLines) 1 rivalsLines)) := by
  have isDocument := @documentOf_leastText (fun _ => none) _ 1 rivals rivalsLines _
    (find_onlyLeast _ _ _) rfl (by decide +kernel)
  have complete : ∀ item ∈ sectionItems "membership" (leastDocument 1 rivals),
      isMember item = true ∧ isOnCallPath item = true := by
    decide +kernel
  have members : ∀ {α} (kind : Distinction α),
      (∀ item, isMember item = true → isOnCallPath item = true →
        kind.reaches item = true ∧ kind.keeps item = true) →
      kind.Compares (sectionItems "membership" (leastDocument 1 rivals)) := by
    intro α kind reaches
    apply Distinction.compares_of_forall
    intro item member
    exact reaches item (complete item member).1 (complete item member).2
  have writesNode : ∀ item, isMember item = true →
      (writtenUint u16Max "node" item).isSome = true := by
    intro item isMember
    rw [Document.isMember, Bool.and_eq_true, Bool.and_eq_true] at isMember
    exact isMember.1.1
  have noTenants : sectionItems "tenant" (leastDocument 1 rivals) = [] := rfl
  have noKeys : sectionItems "keys" (leastDocument 1 rivals) = [] := rfl
  have undeclared : declaredKeys (leastDocument 1 rivals) = none := rfl
  have noStore : storeOf (leastDocument 1 rivals) = none := rfl
  apply (reportsEvery_iff _ _ leastIdentity _ _ isDocument rfl).mpr
  constructor
  · exact members memberNode fun item isMember _ => ⟨rfl, isMember⟩
  · exact members memberName fun item isMember _ => ⟨writesNode item isMember, isMember⟩
  · apply members memberRpc
    intro item isMember onPath
    simp [memberRpc, writesNode item isMember, isMember, onPath]
  · rw [noTenants]
    exact Distinction.compares_of_forall (by simp)
  · rw [noTenants]
    exact Distinction.compares_of_forall (by simp)
  · rw [noKeys]
    exact Distinction.compares_of_forall (by simp)
  · intro items isDeclared
    rw [undeclared] at isDeclared
    exact absurd isDeclared.symm (Option.some_ne_none items)
  · intro written isStore
    rw [noStore] at isStore
    exact absurd isStore.symm (Option.some_ne_none written)

set_option maxRecDepth 4000 in
/-- The first of two entries of one id has no zone, so the second is not reported to repeat it. -/
theorem not_reportsEvery :
    ¬ ∀ (lib : Libraries) (raw : Bytes) (identity : NodeIdentity) (env : Env) (document : Value),
      documentOf lib raw env = some document → isForeign document = false →
        ReportsEvery lib identity document (refusals (load lib raw identity env)) := by
  intro reports
  have isDocument := @documentOf_leastText (fun _ => none) _ 1 hiddenRivals hiddenRivalsLines _
    (find_onlyLeast _ _ _) rfl (by decide +kernel)
  have items : sectionItems "membership" (leastDocument 1 hiddenRivals) =
      [mappingOf (rival "a"), mappingOf (rival "b" ++ [("zone", scalar "z")])] := rfl
  have reported := (reports _ _ leastIdentity _ _ isDocument rfl).nodes 1
    (mappingOf (rival "b" ++ [("zone", scalar "z")])) 2 (by rw [items]; rfl) (by rfl)
  rw [items] at reported
  rcases reported ⟨mappingOf (rival "a"), List.mem_cons_self, 2, by rfl, by decide⟩ with
    ⟨holder, member⟩
  have others : (refusals (loadLeast (onlyLeast 1 hiddenRivals hiddenRivalsLines) 1
      hiddenRivalsLines)).all (fun error => error.rule ≠ text "CC-I2") = true := by
    rw [loadLeast, loadLeast_eq 1 _ hiddenRivalsLines (find_onlyLeast _ _ _) rfl
      (by decide +kernel)]
    decide +kernel
  exact of_decide_eq_true (List.all_eq_true.mp others _ member) rfl

end SipxClstr.Document
