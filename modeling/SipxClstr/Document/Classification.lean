import SipxClstr.Document.KeyReload
import SipxClstr.Document.LogicalIds
import SipxClstr.Document.Reordering
import SipxClstr.Document.Secrets

/-!
# What a reload changes

The diff of a reload is made on renderings, and is the diff of the trees: a section is changed when
its tree is, by more than the order of its mappings.  What the rollout sections say is therefore the
same before and after every reload.
-/

namespace SipxClstr.Document

open SipxClstr.Sip SipxClstr.Data Reading Value

variable {lib : Libraries}

/-! ## Reading a tree up to the order of its mappings -/

namespace Value

theorem IsPlain.reorders {value other : Value} (reorders : value.Reorders other)
    (isPlain : value.IsPlain) : other.IsPlain := by
  induction reorders with
  | refl value => exact isPlain
  | trans _ _ first second => exact second (first isPlain)
  | item before after _ kept =>
      cases isPlain with
      | sequence all =>
          constructor
          intro item member
          rcases List.mem_append.mp member with before | after
          · exact all item (List.mem_append_left _ before)
          · rcases List.mem_cons.mp after with rfl | after
            · exact kept (all _ (by simp))
            · exact all item (List.mem_append_right _ (List.mem_cons_of_mem _ after))
  | @entry before after key item _ _ kept =>
      cases isPlain with
      | mapping named once all =>
          constructor
          · intro entry member
            rcases List.mem_append.mp member with before | after
            · exact named entry (List.mem_append_left _ before)
            · rcases List.mem_cons.mp after with rfl | after
              · exact named (key, item) (List.mem_append_right _ List.mem_cons_self)
              · exact named entry (List.mem_append_right _ (List.mem_cons_of_mem _ after))
          · simpa using once
          · intro entry member
            rcases List.mem_append.mp member with before | after
            · exact all entry (List.mem_append_left _ before)
            · rcases List.mem_cons.mp after with rfl | after
              · exact kept (all (key, item) (List.mem_append_right _ List.mem_cons_self))
              · exact all entry (List.mem_append_right _ (List.mem_cons_of_mem _ after))
  | mapping perm =>
      cases isPlain with
      | mapping named once all =>
          constructor
          · intro entry member
            exact named entry (perm.mem_iff.mpr member)
          · exact (perm.map Prod.fst).nodup_iff.mp once
          · intro entry member
            exact all entry (perm.mem_iff.mpr member)

/-- What is read of a tree does not depend on the order of its mappings. -/
def Respects {α : Type} (read : Value → α) : Prop :=
  ∀ value other, value.IsPlain → value.Reorders other → read value = read other

theorem respects_asStr : Respects asStr := by
  intro value other isPlain reorders
  induction reorders with
  | refl value => rfl
  | trans first _ same later => exact (same isPlain).trans (later (isPlain.reorders first))
  | item before after => rfl
  | entry before after key => rfl
  | mapping perm => rfl

theorem Respects.comp {α β : Type} {read : Value → α} (respects : Respects read) (view : α → β) :
    Respects (view ∘ read) :=
  fun value other isPlain reorders => congrArg view (respects value other isPlain reorders)

/-- The items of a sequence are read one by one. -/
theorem Respects.items {α : Type} {read : Value → α} (respects : Respects read) :
    Respects fun value => value.asSequence.map (List.map read) := by
  intro value other isPlain reorders
  induction reorders with
  | refl value => rfl
  | trans first _ same later => exact (same isPlain).trans (later (isPlain.reorders first))
  | item before after reorders =>
      cases isPlain with
      | sequence all =>
          have same := respects _ _ (all _ (by simp)) reorders
          simp [asSequence, untag, same]
  | entry before after key => rfl
  | mapping perm => rfl

end Value

/-- With each key once, a key is answered by its entry. -/
theorem get_eq_some_iff {entries : Mapping} (once : (entries.map Prod.fst).Nodup) {name : Text}
    {value : Value} : entries.get name = some value ↔ (.string name, value) ∈ entries := by
  constructor
  · exact mem_of_get
  · intro member
    induction entries with
    | nil => contradiction
    | cons entry rest ih =>
        rw [List.map_cons, List.nodup_cons] at once
        rw [get_cons]
        rcases List.mem_cons.mp member with rfl | later
        · rw [if_pos (isKey_iff.mpr rfl)]
        · rw [if_neg]
          · exact ih once.2 later
          · intro isKey
            apply once.1
            rw [isKey_iff.mp isKey]
            exact List.mem_map_of_mem (f := Prod.fst) later

theorem get_perm {entries others : Mapping} (once : (entries.map Prod.fst).Nodup)
    (perm : entries.Perm others) (name : Text) : entries.get name = others.get name := by
  have once' := (perm.map Prod.fst).nodup_iff.mp once
  apply Option.ext
  intro value
  rw [get_eq_some_iff once, get_eq_some_iff once', perm.mem_iff]

/-- Two mappings that answer alike. -/
def AnswersAlike (map map' : Mapping) : Prop :=
  ∀ {α : Type} {read : Value → Option α}, Respects read → ∀ name,
    (map.get name).bind read = (map'.get name).bind read

/-- A mapping and its reorderings answer alike. -/
theorem answersAlike_of_reorders {value other : Value} (isPlain : value.IsPlain)
    (reorders : value.Reorders other) :
    value.asMapping = none ∧ other.asMapping = none ∨
      ∃ map map', value.asMapping = some map ∧ other.asMapping = some map' ∧
        AnswersAlike map map' := by
  induction reorders with
  | refl value =>
      cases isMapping : value.asMapping with
      | none => exact .inl ⟨rfl, rfl⟩
      | some map => exact .inr ⟨map, map, rfl, rfl, fun _ _ => rfl⟩
  | trans first _ same later =>
      rcases same isPlain with ⟨none, none'⟩ | ⟨map, map', isMap, isMap', alike⟩ <;>
        rcases later (isPlain.reorders first) with
          ⟨none'', none'''⟩ | ⟨map'', map''', isMap'', isMap''', alike'⟩
      · exact .inl ⟨none, none'''⟩
      · exact absurd (none'.symm.trans isMap'') (Option.some_ne_none _).symm
      · exact absurd (none''.symm.trans isMap') (Option.some_ne_none _).symm
      · cases isMap'.symm.trans isMap''
        exact .inr ⟨map, map''', isMap, isMap''', fun respects name =>
          (alike respects name).trans (alike' respects name)⟩
  | item before after => exact .inl ⟨rfl, rfl⟩
  | @entry before after key item item' reorders =>
      refine .inr ⟨_, _, rfl, rfl, ?_⟩
      intro α read respects name
      cases isPlain with
      | mapping named once all =>
          have same := respects item item'
            (all (key, item) (List.mem_append_right _ List.mem_cons_self)) reorders
          clear named once all
          induction before with
          | nil =>
              rw [List.nil_append, List.nil_append, get_cons, get_cons]
              split
              · exact same
              · rfl
          | cons entry before ih =>
              rw [List.cons_append, List.cons_append, get_cons, get_cons]
              split
              · rfl
              · exact ih
  | mapping perm =>
      refine .inr ⟨_, _, rfl, rfl, ?_⟩
      intro α read _ name
      cases isPlain with
      | mapping named once all => rw [get_perm once perm]

/-! ## What the schema reads -/

theorem respects_strOf : Respects strOf :=
  respects_asStr.comp _

theorem respects_rolesOf : Respects rolesOf := by
  have roles : Respects roleOf := respects_asStr.comp fun spelled => spelled.bind Role.parse
  have same : rolesOf = (fun spelled : Option (List (Option Role)) =>
      spelled.bind fun items => (items.mapM id).bind fun roles => some roles.toFinset) ∘
        fun value => value.asSequence.map (List.map roleOf) := by
    funext value
    cases isSequence : value.asSequence <;> simp [rolesOf, isSequence, List.mapM_map]
  rw [same]
  exact roles.items.comp _

theorem respects_listenerOf : Respects listenerOf := by
  intro value other isPlain reorders
  rcases answersAlike_of_reorders isPlain reorders with
    ⟨none, none'⟩ | ⟨map, map', isMap, isMap', alike⟩
  · simp [listenerOf, none, none']
  · simp only [listenerOf, isMap, isMap', optionalStr, Option.bind_eq_bind, Option.bind_some,
      alike respects_rolesOf, alike respects_strOf, alike respects_asStr]

/-- The listeners a section declares. -/
def listenersOf (value : Value) : Option (List ListenerSpec) := do
  let items ← value.asSequence
  items.mapM listenerOf

/-- The store a section declares. -/
def locationStoreOf (value : Value) : Option LocationStoreSpec := do
  let map ← value.asMapping
  let backend ← (map.get (text "backend")).bind strOf
  some ⟨backend, optionalStr map (text "dsnRef")⟩

theorem respects_zonesOf : Respects zonesOf := by
  have same : zonesOf = (fun spelled : Option (List (Option Text)) =>
      spelled.bind fun items => items.mapM id) ∘
        fun value => value.asSequence.map (List.map strOf) := by
    funext value
    cases isSequence : value.asSequence <;> simp [zonesOf, isSequence, List.mapM_map]
  rw [same]
  exact respects_strOf.items.comp _

theorem respects_listenersOf : Respects listenersOf := by
  have same : listenersOf = (fun spelled : Option (List (Option ListenerSpec)) =>
      spelled.bind fun items => items.mapM id) ∘
        fun value => value.asSequence.map (List.map listenerOf) := by
    funext value
    cases isSequence : value.asSequence <;> simp [listenersOf, isSequence, List.mapM_map]
  rw [same]
  exact respects_listenerOf.items.comp _

theorem respects_locationStoreOf : Respects locationStoreOf := by
  intro value other isPlain reorders
  rcases answersAlike_of_reorders isPlain reorders with
    ⟨none, none'⟩ | ⟨map, map', isMap, isMap', alike⟩
  · simp [locationStoreOf, none, none']
  · simp only [locationStoreOf, isMap, isMap', optionalStr, Option.bind_eq_bind, Option.bind_some,
      alike respects_strOf, alike respects_asStr]

/-- An accepted sequence is what its items say, in order. -/
theorem mapM_of_each {α : Type} {read : List α → Nat → Value → Reading (Option α)}
    {items : List Value} {values : List α} {typed : Value → Option α}
    (isTyped : ∀ held index item found, (read held index item).Reads found →
      ∃ value, found = some value ∧ typed item = some value)
    (accepted : (each read [] 0 items).Reads values) : items.mapM typed = some values := by
  rw [mapM_eq_some_iff]
  exact map_of_each isTyped accepted

theorem reads_readRoles {written : Option Value} {path : Path} {roles : Roles}
    (accepted : (readRoles written path).Reads roles) :
    written.bind rolesOf = some roles := by
  unfold readRoles at accepted
  cases written with
  | none => simp at accepted
  | some value =>
      cases isSequence : value.asSequence with
      | none => simp [isSequence] at accepted
      | some items =>
          simp only [isSequence, reads_bind, reads_pure] at accepted
          rcases accepted with ⟨read, isRead, rfl⟩
          have typed : items.mapM roleOf = some read := by
            apply mapM_of_each _ isRead
            intro _ index item found isRole
            unfold readRole at isRole
            cases spelled : item.asStr.bind Role.parse with
            | none => simp [spelled] at isRole
            | some role =>
                rw [spelled, reads_pure] at isRole
                exact ⟨role, isRole.symm, spelled⟩
          simp [rolesOf, isSequence, typed]

theorem reads_checkTransport {declared : Text} {path : Path} {found : Option Text}
    (accepted : (checkTransport declared path).Reads found) : found = some declared := by
  unfold checkTransport at accepted
  split at accepted
  · rw [reads_pure] at accepted
    exact accepted.symm
  · split at accepted <;> simp at accepted

theorem reads_readListener {path : Path} {index : Nat} {item : Value}
    {found : Option ListenerSpec} (accepted : (readListener lib path index item).Reads found) :
    ∃ listener, found = some listener ∧ listenerOf item = some listener := by
  unfold readListener at accepted
  rw [reads_bind] at accepted
  obtain ⟨_, asked, accepted⟩ := accepted
  obtain ⟨map, isMapping, rfl⟩ := reads_asMapping.mp asked
  simp only [reads_bind, reads_requiredStr] at accepted
  obtain ⟨_, -, _, -, _, -, roles, isRoles, _, ⟨declared, isDeclared, rfl⟩, accepted⟩ := accepted
  simp only [reads_bind, reads_requiredStr] at accepted
  obtain ⟨transport, isTransport, _, ⟨bind, isBind, rfl⟩, accepted⟩ := accepted
  obtain rfl := reads_checkTransport isTransport
  rw [reads_pure] at accepted
  refine ⟨_, accepted.symm, ?_⟩
  simp [listenerOf, isMapping, reads_readRoles isRoles, isDeclared, isBind]

theorem reads_readListeners {cluster : Mapping} {path : Path} {listeners : List ListenerSpec}
    (accepted : (readListeners lib cluster path).Reads listeners) :
    (cluster.get (text "listener")).bind listenersOf = some listeners := by
  unfold readListeners at accepted
  cases written : cluster.get (text "listener") with
  | none => simp [written] at accepted
  | some value =>
      cases isSequence : value.asSequence with
      | none => simp [written, isSequence] at accepted
      | some items =>
          simp only [written, isSequence] at accepted
          have typed := mapM_of_each (fun _ _ _ _ isRead => reads_readListener isRead) accepted
          simp [listenersOf, isSequence, typed]

theorem reads_readZones {cluster : Mapping} {path : Path} {zones : List Text}
    (accepted : (readZones cluster path).Reads zones) :
    (cluster.get (text "zones")).bind zonesOf = some zones := by
  unfold readZones at accepted
  cases written : cluster.get (text "zones") with
  | none => simp [written] at accepted
  | some value =>
      cases isSequence : value.asSequence with
      | none => simp [written, isSequence] at accepted
      | some items =>
          simp only [written, isSequence, reads_bind] at accepted
          rcases accepted with ⟨_, -, accepted⟩
          have typed : items.mapM strOf = some zones := by
            apply mapM_of_each _ accepted
            intro _ index item found isZone
            unfold readZone at isZone
            split at isZone
            · next first rest spelled =>
                rw [reads_pure] at isZone
                exact ⟨_, isZone.symm, by simp [strOf, spelled, Option.filter]⟩
            · simp at isZone
          simp [zonesOf, isSequence, typed]

/-- The store is what its section says, where there is one. -/
theorem reads_readLocationStore {cluster : Mapping} {path : Path}
    {store : Option LocationStoreSpec} (accepted : (readLocationStore lib cluster path).Reads store) :
    store = (cluster.get (text "locationStore")).bind locationStoreOf := by
  unfold readLocationStore at accepted
  cases written : cluster.get (text "locationStore") with
  | none =>
      simp only [written, reads_pure] at accepted
      exact accepted.symm
  | some value =>
      simp only [written] at accepted
      rw [reads_bind] at accepted
      obtain ⟨_, asked, accepted⟩ := accepted
      obtain ⟨map, isMapping, rfl⟩ := reads_asMapping.mp asked
      simp only [reads_bind, readStoreOf, reads_requiredStr] at accepted
      obtain ⟨_, -, _, -, _, -, _, ⟨backend, isBackend, rfl⟩, accepted⟩ := accepted
      simp only [reads_bind, reads_pure] at accepted
      obtain ⟨_, -, rfl⟩ := accepted
      simp [locationStoreOf, isMapping, isBackend]

/-! ## Sections -/

theorem sectionOf_insertSection (sections : Sections) (name other rendered : Text) :
    sectionOf (insertSection sections name rendered) other =
      if name = other then some rendered else sectionOf sections other := by
  induction sections with
  | nil => simp [insertSection, sectionOf]
  | cons held rest ih =>
      rcases held with ⟨first, shown⟩
      have tail : ∀ found, sectionOf ((first, found) :: rest) other =
          if first = other then some found else sectionOf rest other := by
        intro found
        by_cases same : first = other <;> simp [sectionOf, same]
      unfold insertSection
      cases order : compare name first with
      | lt => by_cases same : name = other <;> simp [sectionOf, same]
      | eq =>
          obtain rfl := Std.LawfulEqOrd.eq_of_compare order
          simp only [tail]
          split <;> rfl
      | gt =>
          have differ : name ≠ first := by
            rintro rfl
            have self : compare name name = .eq := Std.ReflCmp.compare_self
            rw [self] at order
            contradiction
          have behind : sectionOf ((first, shown) :: insertSection rest name rendered) other =
              if first = other then some shown else
                sectionOf (insertSection rest name rendered) other := by
            by_cases same : first = other <;> simp [sectionOf, same]
          simp only [behind, ih, tail]
          by_cases same : first = other
          · rw [if_pos same, if_pos same, if_neg (fun isName => differ (isName.trans same.symm))]
          · rw [if_neg same, if_neg same]

/-- One entry of a cluster, as a section. -/
def insertEntry (lib : Libraries) (sections : Sections) (entry : Value × Value) : Sections :=
  match entry.1.asStr with
  | some name => insertSection sections name (canonical lib entry.2)
  | none => sections

theorem canonicalSections_eq (cluster : Mapping) :
    canonicalSections lib cluster = cluster.foldl (insertEntry lib) [] :=
  rfl

/-- A section is held as its tree is rendered. -/
theorem sectionOf_canonicalSections {cluster : Mapping}
    (isPlain : (Value.mapping cluster).IsPlain) (name : Text) :
    sectionOf (canonicalSections lib cluster) name = (cluster.get name).map (canonical lib) := by
  cases isPlain with
  | mapping named once all =>
      clear all
      have folded : ∀ sections, sectionOf (cluster.foldl (insertEntry lib) sections) name =
          ((cluster.get name).map (canonical lib)).or (sectionOf sections name) := by
        induction cluster with
        | nil => simp
        | cons entry rest ih =>
            intro sections
            rw [List.map_cons, List.nodup_cons] at once
            rcases entry with ⟨key, value⟩
            obtain ⟨isName, isString⟩ := named (key, value) List.mem_cons_self
            cases isString
            rw [List.foldl_cons, ih (fun entry member => named entry (List.mem_cons_of_mem _ member))
              once.2, get_cons]
            simp only [insertEntry, asStr, untag, sectionOf_insertSection, isKey_string,
              decide_eq_true_eq]
            by_cases same : isName = name
            · subst same
              have absent : Mapping.get rest isName = none := by
                rw [Option.eq_none_iff_forall_ne_some]
                intro found isFound
                exact once.1 (List.mem_map.mpr ⟨_, mem_of_get isFound, rfl⟩)
              simp [absent]
            · simp [same]
      rw [canonicalSections_eq, folded]
      simp [sectionOf]

/-! ## The judgement -/

/-- A section is in both clusters or in neither, and there it is the same tree but for the order of
its mappings. -/
def SameSection (cluster cluster' : Mapping) (name : Text) : Prop :=
  Option.Rel Reorders (cluster.get name) (cluster'.get name)

theorem sectionOf_eq_iff {cluster cluster' : Mapping} (isPlain : (Value.mapping cluster).IsPlain)
    (isPlain' : (Value.mapping cluster').IsPlain) (name : Text) :
    sectionOf (canonicalSections lib cluster) name = sectionOf (canonicalSections lib cluster') name ↔
      SameSection cluster cluster' name := by
  have plain : ∀ {cluster : Mapping} {value : Value}, (Value.mapping cluster).IsPlain →
      cluster.get name = some value → value.IsPlain := by
    intro cluster value isPlain found
    cases isPlain with
    | mapping named once all => exact all _ (mem_of_get found)
  rw [sectionOf_canonicalSections isPlain, sectionOf_canonicalSections isPlain', SameSection]
  cases found : cluster.get name with
  | none =>
      cases found' : cluster'.get name with
      | none => simp
      | some value' => simp
  | some value =>
      cases found' : cluster'.get name with
      | none => simp
      | some value' =>
          rw [Option.map_some, Option.map_some, Option.some_inj,
            canonical_eq_iff (plain isPlain found) (plain isPlain' found'), Option.rel_some_some]

theorem SameSection.bind_eq {cluster cluster' : Mapping} {name : Text}
    (same : SameSection cluster cluster' name) (isPlain : (Value.mapping cluster).IsPlain)
    {α : Type} {read : Value → Option α} (respects : Respects read) :
    (cluster.get name).bind read = (cluster'.get name).bind read := by
  unfold SameSection at same
  cases found : cluster.get name with
  | none =>
      cases found' : cluster'.get name with
      | none => rfl
      | some value' => simp [found, found'] at same
  | some value =>
      cases found' : cluster'.get name with
      | none => simp [found, found'] at same
      | some value' =>
          rw [found, found', Option.rel_some_some] at same
          cases isPlain with
          | mapping named once all => exact respects _ _ (all _ (mem_of_get found)) same

/-- The fields that no reload may change. -/
structure SameRollout (active next : Config) : Prop where
  name : next.name = active.name
  environment : next.environment = active.environment
  zones : next.zones = active.zones
  listeners : next.listeners = active.listeners
  locationStore : next.locationStore = active.locationStore

/-- A configuration is what the tree of one document says. -/
structure Declares (lib : Libraries) (cluster : Mapping) (config : Config) : Prop where
  isPlain : (Value.mapping cluster).IsPlain
  rendered : config.sections = canonicalSections lib cluster
  name : (cluster.get (text "name")).bind strOf = some config.name
  environment : (cluster.get (text "environment")).bind strOf = some config.environment
  zones : (cluster.get (text "zones")).bind zonesOf = some config.zones
  listeners : (cluster.get (text "listener")).bind listenersOf = some config.listeners
  locationStore : (cluster.get (text "locationStore")).bind locationStoreOf = config.locationStore

theorem declares_of_load {raw : Bytes} {identity : NodeIdentity} {env : Env} {config : Config}
    {document : Value} {cluster : Mapping} (isDocument : documentOf lib raw env = some document)
    (isCluster : clusterOf document = some cluster) (isPlain : (Value.mapping cluster).IsPlain)
    (accepted : load lib raw identity env = .ok config) : Declares lib cluster config := by
  obtain ⟨document', cluster', sections, isDocument', accepts⟩ := load_document accepted
  cases isDocument.symm.trans isDocument'
  cases isCluster.symm.trans accepts.isCluster
  have read := accepts.sectionsRead
  obtain ⟨isName, isEnvironment, fields⟩ := accepts.fields
  have name := read.name
  have environment := read.environment
  rw [reads_requiredStr, isName] at name
  rw [reads_requiredStr, isEnvironment] at environment
  obtain ⟨_, name, same⟩ := name
  cases same
  obtain ⟨_, environment, same⟩ := environment
  cases same
  refine ⟨isPlain, by rw [fields], name, environment, ?_, ?_, ?_⟩
  · rw [fields]
    exact reads_readZones read.zones
  · rw [fields]
    exact reads_readListeners read.listeners
  · rw [fields]
    exact (reads_readLocationStore read.locationStore).symm

/-- Where no rollout section differs, none of their fields does. -/
theorem sameRollout_of_sameSections {active next : Config} {cluster cluster' : Mapping}
    (before : Declares lib cluster active) (after : Declares lib cluster' next)
    (same : ∀ name, reloadClass name = .rollout → SameSection cluster cluster' name) :
    SameRollout active next := by
  constructor
  · apply Option.some_inj.mp
    rw [← after.name, ← before.name, (same _ (by decide)).bind_eq before.isPlain respects_strOf]
  · apply Option.some_inj.mp
    rw [← after.environment, ← before.environment,
      (same _ (by decide)).bind_eq before.isPlain respects_strOf]
  · apply Option.some_inj.mp
    rw [← after.zones, ← before.zones,
      (same _ (by decide)).bind_eq before.isPlain respects_zonesOf]
  · apply Option.some_inj.mp
    rw [← after.listeners, ← before.listeners,
      (same _ (by decide)).bind_eq before.isPlain respects_listenersOf]
  · rw [← after.locationStore, ← before.locationStore,
      (same _ (by decide)).bind_eq before.isPlain respects_locationStoreOf]

/-- The changed sections are those that are not the same. -/
theorem mem_changedSections_iff {active next : Config} {cluster cluster' : Mapping}
    (before : Declares lib cluster active) (after : Declares lib cluster' next) (name : Text) :
    name ∈ changedSections active next ↔ ¬ SameSection cluster cluster' name := by
  have differ : name ∈ changedSections active next ↔
      sectionOf active.sections name ≠ sectionOf next.sections name := by
    simp only [changedSections, List.mem_filter, decide_eq_true_eq, sectionNames,
      mem_sortedDistinct, List.mem_append, and_iff_right_iff_imp]
    intro differ
    have held : ∀ sections : Sections, sectionOf sections name ≠ none →
        name ∈ sections.map Prod.fst := by
      intro sections held
      unfold sectionOf at held
      rcases Option.ne_none_iff_exists'.mp held with ⟨shown, isShown⟩
      rcases Option.map_eq_some_iff.mp isShown with ⟨entry, isEntry, -⟩
      have isName := List.find?_some isEntry
      rw [decide_eq_true_eq] at isName
      exact List.mem_map.mpr ⟨entry, List.mem_of_find?_eq_some isEntry, isName⟩
    by_cases absent : sectionOf active.sections name = none
    · right
      apply held
      rw [absent] at differ
      exact differ.symm
    · exact .inl (held _ absent)
  rw [differ, before.rendered, after.rendered, ne_eq,
    sectionOf_eq_iff before.isPlain after.isPlain]

/-- The paths of a changed section are at or below it, and there is one. -/
theorem rolloutPaths_cover (active next : Config) (name : Text) (here : Path) :
    rolloutPaths name active next here ≠ [] ∧
      ∀ path ∈ rolloutPaths name active next here, here.Covers path := by
  have orSection_cover : ∀ paths : List Path, (∀ path ∈ paths, here.Covers path) →
      orSection paths here ≠ [] ∧ ∀ path ∈ orSection paths here, here.Covers path := by
    intro paths cover
    unfold orSection
    split
    · simp
    · next some => exact ⟨some, cover⟩
  have whole : ([here] : List Path) ≠ [] ∧ ∀ path ∈ [here], here.Covers path := by
    simp
  unfold rolloutPaths
  split
  · apply orSection_cover
    intro path member
    obtain ⟨paths, isPaths, isPath⟩ := List.mem_flatten.mp member
    obtain ⟨index, bound, rfl⟩ := List.mem_mapIdx.mp isPaths
    simp only [listenerChanges, List.mem_append] at isPath
    rcases isPath with ((isPath | isPath) | isPath) | isPath <;>
      split at isPath <;>
      simp only [List.mem_singleton, List.not_mem_nil] at isPath <;>
      simp [isPath]
  · split
    · split
      · apply orSection_cover
        intro path member
        rcases List.mem_append.mp member with isPath | isPath <;>
          split at isPath <;>
          simp only [List.mem_singleton, List.not_mem_nil] at isPath <;>
          simp [isPath]
      · exact whole
    · exact whole

/-- What a reload from one document to another is judged by. -/
structure ClassifiesExactly (active next : Config) (cluster cluster' : Mapping)
    (verdict : Except (List ConfigError) (Config × ReloadPlan)) : Prop where
  /-- It is accepted exactly when the version is higher, no rollout section is another tree, no id
  is re-pointed and no key is stranded. -/
  accepted_iff : (∃ plan, verdict = .ok (next, plan)) ↔ active.version < next.version ∧
    (∀ name, reloadClass name = .rollout → SameSection cluster cluster' name) ∧
      checkIdReassignment active next = [] ∧ checkKeyTransition active next = []
  /-- What it accepts is the document, under the plan that lists the sections that are another
  tree, each once and in order. -/
  planned : ∀ config plan, verdict = .ok (config, plan) → config = next ∧
    SameRollout active next ∧ plan.changed.Pairwise Before ∧
      ∀ path, path ∈ plan.changed ↔
        ∃ name, ¬ SameSection cluster cluster' name ∧ path = clusterPath.field name
  /-- A refusal has a reason, which is the version, an id, a key or a rollout section that is
  another tree. -/
  refused : ∀ errors, verdict = .error errors → errors ≠ [] ∧ ∀ error ∈ errors,
    error ∈ checkVersion active next ∨ error ∈ checkIdReassignment active next ∨
      error ∈ checkKeyTransition active next ∨
        ∃ name, reloadClass name = .rollout ∧ ¬ SameSection cluster cluster' name ∧
          (clusterPath.field name).Covers error.path

theorem compare_append_left (shared first second : Text) :
    compare (shared ++ first) (shared ++ second) = compare first second := by
  induction shared with
  | nil => rfl
  | cons c rest ih =>
      rw [List.cons_append, List.cons_append]
      have heads : compare c c = .eq := Std.ReflCmp.compare_self
      change List.compareLex compare _ _ = _
      rw [List.compareLex_cons_cons, heads]
      exact ih

/-- Sections are ordered as their paths are. -/
theorem before_field {name other : Text} (before : Before name other) :
    Before (clusterPath.field name) (clusterPath.field other) := by
  have shown : ∀ name, (clusterPath.field name).shown = text "cluster." ++ name := by
    intro name
    rfl
  constructor
  · have ordered : NotAfter (text "cluster." ++ name) (text "cluster." ++ other) := by
      unfold NotAfter
      rw [compare_append_left]
      exact before.1
    unfold NotAfter at ordered ⊢
    rw [← shown, ← shown] at ordered
    exact ordered
  · intro same
    have texts := congrArg Path.shown same
    rw [shown, shown] at texts
    exact before.2 (List.append_cancel_left texts)

theorem checkVersion_eq_nil {active next : Config} :
    checkVersion active next = [] ↔ active.version < next.version := by
  unfold checkVersion
  split
  · next old => simp [old]
  · next above => simpa using above

theorem checkSections_eq_nil {active next : Config} :
    checkSections active next = [] ↔
      ∀ name, name ∈ changedSections active next → reloadClass name = .reloadable := by
  unfold checkSections
  rw [List.flatMap_eq_nil_iff]
  refine forall_congr' fun name => imp_congr_right fun _ => ?_
  cases isClass : reloadClass name with
  | reloadable => simp
  | rollout =>
      simp only [reduceCtorEq, iff_false]
      intro none
      exact (rolloutPaths_cover active next name _).1 (List.map_eq_nil_iff.mp none)

/-- Where the trees of the two documents are plain, a reload is judged by what differs between the
trees, and by nothing that does not. -/
theorem judge_classifiesExactly {active next : Config} {cluster cluster' : Mapping}
    (before : Declares lib cluster active) (after : Declares lib cluster' next) :
    ClassifiesExactly active next cluster cluster' (judge active next) := by
  have unchanged : checkSections active next = [] ↔
      ∀ name, reloadClass name = .rollout → SameSection cluster cluster' name := by
    rw [checkSections_eq_nil]
    refine forall_congr' fun name => ?_
    rw [mem_changedSections_iff before after]
    cases isClass : reloadClass name with
    | reloadable => simp
    | rollout => simp
  have clean : transitionErrors active next = [] ↔ active.version < next.version ∧
      (∀ name, reloadClass name = .rollout → SameSection cluster cluster' name) ∧
        checkIdReassignment active next = [] ∧ checkKeyTransition active next = [] := by
    unfold transitionErrors
    simp only [List.append_eq_nil_iff, checkVersion_eq_nil, unchanged, and_assoc]
  constructor
  · rw [← clean]
    unfold judge
    split
    · next none => simp [none]
    · next some => simp [some]
  · intro config plan accepted
    unfold judge at accepted
    split at accepted
    · next none =>
        obtain ⟨rfl, rfl⟩ := Prod.mk.inj (Except.ok.inj accepted)
        have same := (clean.mp none).2.1
        have reloadable : ∀ name ∈ changedSections active next,
            reloadClass name = .reloadable := checkSections_eq_nil.mp (unchanged.mpr same)
        refine ⟨rfl, sameRollout_of_sameSections before after same, ?_, ?_⟩
        · rw [planOf, List.pairwise_map]
          exact (((pairwise_sortedDistinct _).filter _).filter _).imp before_field
        · intro path
          simp only [planOf, List.mem_map, List.mem_filter, decide_eq_true_eq,
            ← mem_changedSections_iff before after]
          constructor
          · rintro ⟨name, ⟨changed, -⟩, rfl⟩
            exact ⟨name, changed, rfl⟩
          · rintro ⟨name, changed, rfl⟩
            exact ⟨name, ⟨changed, reloadable name changed⟩, rfl⟩
    · simp at accepted
  · intro errors refused
    unfold judge at refused
    split at refused
    · simp at refused
    · next some =>
        obtain rfl := Except.error.inj refused
        refine ⟨fun none => some (ordered_eq_nil.mp none), ?_⟩
        intro error member
        have reported := mem_sortedDistinct.mp member
        unfold transitionErrors at reported
        simp only [List.mem_append] at reported
        rcases reported with ((version | changed) | id) | key
        · exact .inl version
        · right
          right
          right
          obtain ⟨name, isChanged, reported⟩ := List.mem_flatMap.mp changed
          cases isClass : reloadClass name with
          | reloadable => simp [isClass] at reported
          | rollout =>
              simp only [isClass] at reported
              obtain ⟨path, isPath, rfl⟩ := List.mem_map.mp reported
              exact ⟨name, isClass, (mem_changedSections_iff before after name).mp isChanged,
                (rolloutPaths_cover active next name _).2 path isPath⟩
        · exact .inr (.inl id)
        · exact .inr (.inr (.inl key))

/-- The document behind a configuration, where its trees are plain. -/
structure Publishes (lib : Libraries) (raw : Bytes) (env : Env) (cluster : Mapping) : Prop where
  isCluster : (documentOf lib raw env).bind clusterOf = some cluster
  isPlain : (Value.mapping cluster).IsPlain

theorem Publishes.declares {raw : Bytes} {identity : NodeIdentity} {env : Env} {config : Config}
    {cluster : Mapping} (publishes : Publishes lib raw env cluster)
    (accepted : load lib raw identity env = .ok config) : Declares lib cluster config := by
  obtain ⟨document, isDocument, isCluster⟩ := Option.bind_eq_some_iff.mp publishes.isCluster
  exact declares_of_load isDocument isCluster publishes.isPlain accepted

/-- The class of a reload is the class of what differs between the two trees. -/
theorem reload_classifiesExactly {active next : Config} {raw raw' : Bytes}
    {identity identity' : NodeIdentity} {env env' : Env} {cluster cluster' : Mapping}
    (isActive : load lib raw identity env = .ok active)
    (isNext : load lib raw' identity' env' = .ok next)
    (before : Publishes lib raw env cluster) (after : Publishes lib raw' env' cluster') :
    ClassifiesExactly active next cluster cluster' (reload lib active raw' identity' env') := by
  rw [reload, isNext]
  exact judge_classifiesExactly (before.declares isActive) (after.declares isNext)

/-! ## Chains of reloads -/

theorem SameRollout.trans {first second third : Config} (one : SameRollout first second)
    (other : SameRollout second third) : SameRollout first third where
  name := other.name.trans one.name
  environment := other.environment.trans one.environment
  zones := other.zones.trans one.zones
  listeners := other.listeners.trans one.listeners
  locationStore := other.locationStore.trans one.locationStore

/-- Through any chain of accepted reloads the versions go up, and what the rollout sections say
stays what the first document says. -/
theorem reloads_sameRollout {active : Config} {cluster : Mapping}
    (declares : Declares lib cluster active) {publications : List Publication}
    {later : List Config} (accepted : reloads lib active publications = some later)
    (plain : ∀ publication ∈ publications, ∃ cluster,
      Publishes lib publication.raw publication.env cluster) :
    ((active :: later).Pairwise fun before after => before.version < after.version) ∧
      ∀ version ∈ later, SameRollout active version := by
  induction publications generalizing active cluster later with
  | nil =>
      cases accepted
      simp
  | cons publication rest ih =>
      obtain ⟨next, later, plan, isNext, isLater, rfl⟩ := reloads_cons accepted
      obtain ⟨loaded, -, -⟩ := reload_accepted isNext
      obtain ⟨cluster', publishes⟩ := plain publication List.mem_cons_self
      have after := publishes.declares loaded
      have judgement := judge_classifiesExactly declares after
      have judged : judge active next = .ok (next, plan) := by
        rw [reload, loaded] at isNext
        exact isNext
      have newer := (judgement.accepted_iff.mp ⟨plan, judged⟩).1
      have same := (judgement.planned _ _ judged).2.1
      obtain ⟨ascending, kept⟩ := ih after isLater
        (fun other member => plain other (List.mem_cons_of_mem _ member))
      constructor
      · rw [List.pairwise_cons]
        refine ⟨?_, ascending⟩
        intro version member
        rcases List.mem_cons.mp member with rfl | member
        · exact newer
        · exact newer.trans ((List.pairwise_cons.mp ascending).1 version member)
      · intro version member
        rcases List.mem_cons.mp member with rfl | member
        · exact same
        · exact same.trans (kept version member)

/-! ## Two versions of the least document -/

theorem isPlain_mappingOf {entries : List (String × Value)} (once : (entries.map Prod.fst).Nodup)
    (all : ∀ entry ∈ entries, entry.2.IsPlain) : (mappingOf entries).IsPlain := by
  constructor
  · intro entry member
    obtain ⟨⟨key, item⟩, -, rfl⟩ := List.mem_map.mp member
    exact ⟨text key, rfl⟩
  · rw [List.map_map]
    have keys : (entries.map Prod.fst).map scalar = entries.map (scalar ∘ Prod.fst) := by
      rw [List.map_map]
    apply keys ▸ once.map
    intro key other same
    exact text_inj.mp (Value.string.inj same)
  · intro entry member
    obtain ⟨⟨key, item⟩, isEntry, rfl⟩ := List.mem_map.mp member
    exact all _ isEntry

/-- What the cluster of the least document declares. -/
def leastEntries (more : List (String × Value)) : List (String × Value) :=
  [("name", scalar "c"), ("environment", scalar "e"), ("zones", .sequence [scalar "z"]),
    ("listener", .sequence [mappingOf [("roles", .sequence [scalar "registrar"]),
      ("transport", scalar "udp"), ("bind", scalar "10.0.0.7:5060")]])] ++ more

def leastMapping (more : List (String × Value)) : Mapping :=
  (leastEntries more).map fun (key, item) => (scalar key, item)

/-- The trees of the least document are plain where those added to it are. -/
theorem publishes_least {env : Env} {known : List (Text × Value)} (version : UInt64)
    (more : List (String × Value)) (lines : String) {spelled : Text}
    (isKnown : known.find? (fun entry => entry.1 = leastText version lines) =
      some (leastText version lines, leastDocument version more))
    (same : lines = String.ofList spelled) (plain : '$' ∉ spelled)
    (once : ((leastEntries more).map Prod.fst).Nodup) (all : ∀ entry ∈ more, entry.2.IsPlain) :
    Publishes (readsAs known) (utf8 (leastText version lines)) env (leastMapping more) := by
  constructor
  · rw [documentOf_leastText version more lines isKnown same plain]
    rfl
  · have listener : Value.IsPlain (mappingOf [("roles", .sequence [scalar "registrar"]),
        ("transport", scalar "udp"), ("bind", scalar "10.0.0.7:5060")]) := by
      apply isPlain_mappingOf (by decide)
      simp only [List.forall_mem_cons, List.not_mem_nil, false_implies, implies_true, and_true]
      refine ⟨.sequence ?_, .string _, .string _⟩
      intro item member
      cases List.mem_singleton.mp member
      exact .string _
    apply isPlain_mappingOf once
    simp only [leastEntries, List.cons_append, List.nil_append, List.forall_mem_cons]
    refine ⟨.string _, .string _, .sequence ?_, .sequence ?_, all⟩
    · intro item member
      cases List.mem_singleton.mp member
      exact .string _
    · intro item member
      cases List.mem_singleton.mp member
      exact listener

theorem isPlain_tenantEntry (name : String) (id : UInt64) : (tenantEntry name id).IsPlain := by
  apply isPlain_mappingOf
  · simp
  · simp only [List.forall_mem_cons, List.not_mem_nil, false_implies, implies_true, and_true]
    exact ⟨.string _, .posInt id⟩

section AddedTenant

def oneTenant : List (String × Value) :=
  [("tenant", .sequence [tenantEntry "a" 1])]

def twoTenants : List (String × Value) :=
  [("tenant", .sequence [tenantEntry "a" 1, tenantEntry "b" 2])]

theorem publishes_oneTenant : Publishes (readsAs addedTenantVersions) (publish 1 oneTenantLines).raw
    (fun _ => none) (leastMapping oneTenant) := by
  apply publishes_least 1 oneTenant oneTenantLines (find_first _ _ _ _ _ _) rfl (by decide +kernel)
    (by decide)
  simpa [oneTenant] using Value.IsPlain.sequence (by simpa using isPlain_tenantEntry "a" 1)

theorem publishes_twoTenants : Publishes (readsAs addedTenantVersions) (publish 2 twoTenantLines).raw
    (fun _ => none) (leastMapping twoTenants) := by
  apply publishes_least 2 twoTenants twoTenantLines (find_second (by decide +kernel)) rfl
    (by decide +kernel) (by decide)
  simpa [twoTenants] using Value.IsPlain.sequence
    (by simpa using ⟨isPlain_tenantEntry "a" 1, isPlain_tenantEntry "b" 2⟩)

set_option maxRecDepth 4000 in
/-- The reload that adds a tenant. -/
theorem reload_addedTenant : ∃ active next plan,
    load (readsAs addedTenantVersions) (publish 1 oneTenantLines).raw leastIdentity
        (fun _ => none) = .ok active ∧
      reload (readsAs addedTenantVersions) active (publish 2 twoTenantLines).raw leastIdentity
        (fun _ => none) = .ok (next, plan) ∧ plan.changed = [clusterPath.field (text "tenant")] := by
  have read : (reloadLeast addedTenantVersions 1 oneTenantLines 2 twoTenantLines).toOption.map
      (fun found => found.2.2.changed) = some [clusterPath.field (text "tenant")] := by
    rw [reloadLeast_eq
      (loadLeast_eq 1 _ oneTenantLines (find_first _ _ _ _ _ _) rfl (by decide +kernel))
      (loadLeast_eq 2 _ twoTenantLines (find_second (by decide +kernel)) rfl (by decide +kernel))]
    decide +kernel
  obtain ⟨⟨active, next, plan⟩, isReloaded, changed⟩ := Data.exists_ok_of_map read
  obtain ⟨loaded, accepted⟩ := reloadLeast_eq_ok isReloaded
  exact ⟨active, next, plan, loaded, accepted, changed⟩

/-- One tenant is added, and it is the tenants that are another tree. -/
theorem reload_classifiesExactly_addedTenant : ∃ active next plan,
    load (readsAs addedTenantVersions) (publish 1 oneTenantLines).raw leastIdentity
        (fun _ => none) = .ok active ∧
      reload (readsAs addedTenantVersions) active (publish 2 twoTenantLines).raw leastIdentity
        (fun _ => none) = .ok (next, plan) ∧ plan.changed = [clusterPath.field (text "tenant")] ∧
      ClassifiesExactly active next (leastMapping oneTenant) (leastMapping twoTenants)
        (.ok (next, plan)) := by
  obtain ⟨active, next, plan, loaded, accepted, changed⟩ := reload_addedTenant
  refine ⟨active, next, plan, loaded, accepted, changed, ?_⟩
  rw [← accepted]
  exact reload_classifiesExactly loaded (reload_accepted accepted).1 publishes_oneTenant
    publishes_twoTenants

theorem reloads_sameRollout_addedTenant : ∃ active next,
    reloads (readsAs addedTenantVersions) active [publish 2 twoTenantLines] = some [next] ∧
      SameRollout active next := by
  obtain ⟨active, next, plan, loaded, accepted, -⟩ := reload_addedTenant
  have reloaded : reloads (readsAs addedTenantVersions) active [publish 2 twoTenantLines] =
      some [next] := by
    have accepted : reload (readsAs addedTenantVersions) active (publish 2 twoTenantLines).raw
        (publish 2 twoTenantLines).identity (publish 2 twoTenantLines).env = .ok (next, plan) :=
      accepted
    simp only [reloads, accepted, Option.map_some]
  refine ⟨active, next, reloaded, ?_⟩
  apply (reloads_sameRollout (publishes_oneTenant.declares loaded) reloaded _).2 next
    List.mem_cons_self
  intro publication member
  cases List.mem_singleton.mp member
  exact ⟨_, publishes_twoTenants⟩

end AddedTenant

end SipxClstr.Document
