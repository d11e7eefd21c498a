import SipxClstr.Document.Redaction

/-!
# Inline secrets

What is refused of a document is to be the same whatever was written in the place of a secret.
The readers do not look there; the report of the references that did not resolve does.
-/

namespace SipxClstr.Document

open SipxClstr.Sip Reading

variable {lib : Libraries}

/-! ## Scalars -/

mutual

/-- The strings of a value, where they stand. -/
def scalars (path : Path) : Value → List (Path × Text)
  | .string value => [(path, value)]
  | .sequence items => scalarsOfItems path 0 items
  | .mapping entries => scalarsOfEntries path entries
  | .tagged _ value => scalars path value
  | .null => []
  | .bool _ => []
  | .number _ => []

def scalarsOfItems (path : Path) (index : Nat) : List Value → List (Path × Text)
  | [] => []
  | item :: rest => scalars (path.index index) item ++ scalarsOfItems path (index + 1) rest

def scalarsOfEntries (path : Path) : List (Value × Value) → List (Path × Text)
  | [] => []
  | (key, item) :: rest =>
      scalars ((key.asStr.map path.field).getD path) item ++ scalarsOfEntries path rest

end

/-- The unresolved names that a scalar mentions. -/
def mentioned (unresolved : List Text) (scalar : Path × Text) : List (Path × Text) :=
  (unresolved.filter fun name => referenceTo name <:+: scalar.2).map fun name => (scalar.1, name)

mutual

/-- References are located scalar by scalar. -/
theorem locateReferences_eq (unresolved : List Text) (path : Path) : ∀ value,
    locateReferences unresolved path value = (scalars path value).flatMap (mentioned unresolved)
  | .string _ => by simp [locateReferences, scalars, mentioned]
  | .sequence items => by rw [locateReferences, scalars, locateItems_eq]
  | .mapping entries => by rw [locateReferences, scalars, locateEntries_eq]
  | .tagged _ value => by rw [locateReferences, scalars, locateReferences_eq]
  | .null => rfl
  | .bool _ => rfl
  | .number _ => rfl

theorem locateItems_eq (unresolved : List Text) (path : Path) (index : Nat) : ∀ items,
    locateItems unresolved path index items =
      (scalarsOfItems path index items).flatMap (mentioned unresolved)
  | [] => rfl
  | item :: rest => by
      rw [locateItems, scalarsOfItems, List.flatMap_append, locateReferences_eq, locateItems_eq]

theorem locateEntries_eq (unresolved : List Text) (path : Path) : ∀ entries,
    locateEntries unresolved path entries =
      (scalarsOfEntries path entries).flatMap (mentioned unresolved)
  | [] => rfl
  | (key, item) :: rest => by
      rw [locateEntries, scalarsOfEntries, List.flatMap_append, locateReferences_eq,
        locateEntries_eq]

end

/-- A name is referred to at a place. -/
def Refers (found : List (Path × Text)) (path : Path) (name : Text) : Prop :=
  ∃ value, (path, value) ∈ found ∧ referenceTo name <:+: value

theorem mem_locateReferences {unresolved : List Text} {document : Value} {path : Path} {name : Text} :
    (path, name) ∈ locateReferences unresolved .root document ↔
      name ∈ unresolved ∧ Refers (scalars .root document) path name := by
  rw [locateReferences_eq, List.mem_flatMap]
  simp only [mentioned, List.mem_map, List.mem_filter, decide_eq_true_eq]
  constructor
  · rintro ⟨⟨_, value⟩, member, _, ⟨unset, refers⟩, same⟩
    obtain ⟨rfl, rfl⟩ := Prod.mk.inj same
    exact ⟨unset, value, member, refers⟩
  · rintro ⟨unset, value, member, refers⟩
    exact ⟨(path, value), member, name, ⟨unset, refers⟩, rfl⟩

/-! ## The places of inline secrets -/

/-- Which places of a value are meant. -/
abbrev Places :=
  Path → Value → List (Path × Value)

namespace Places

/-- The value itself. -/
def here : Places :=
  fun path value => [(path, value)]

/-- What stands under the keys that spell this name, behind any tags. -/
def under (name : Text) (places : Places) (path : Path) : Value → List (Path × Value)
  | .mapping entries =>
      entries.flatMap fun entry =>
        if entry.1.asStr = some name then places (path.field name) entry.2 else []
  | .tagged _ value => under name places path value
  | _ => []

/-- The items of a sequence from this index on. -/
def ofItems (places : Places) (path : Path) : Nat → List Value → List (Path × Value)
  | _, [] => []
  | index, item :: rest => places (path.index index) item ++ ofItems places path (index + 1) rest

/-- The items of a sequence, behind any tags. -/
def each (places : Places) (path : Path) : Value → List (Path × Value)
  | .sequence items => ofItems places path 0 items
  | .tagged _ value => each places path value
  | _ => []

end Places

/-- Where a cluster may name its inline secrets, section by section. -/
def secretSections : List (Text × Places) :=
  [(text "locationStore", .under (text "dsn") .here),
    (text "tenant", .each (.under (text "auth") (.under (text "secret") .here))),
    (text "keys", .each (.under (text "secret") .here)),
    (text "listener", .each (.under (text "tls") (.under (text "key") .here))),
    (text "management", .under (text "tls") (.under (text "key") .here))]

/-- The places of the inline secrets of a cluster. -/
def clusterSecrets : Places :=
  fun path value => secretSections.flatMap fun entry => Places.under entry.1 entry.2 path value

/-- What a document says in the places of its inline secrets. -/
def secretScalars (document : Value) : List (Path × Text) :=
  (Places.under (text "cluster") clusterSecrets .root document).flatMap fun place =>
    scalars place.1 place.2

/-! ## Where they stand -/

section Beneath

variable {places : Places}

mutual

/-- The scalars of a value stand at its place or beneath. -/
theorem covers_scalars {outer path : Path} (covers : outer.Covers path) : ∀ value,
    ∀ found ∈ scalars path value, outer.Covers found.1
  | .string _, found, member => by
      rw [scalars, List.mem_singleton] at member
      rw [member]
      exact covers
  | .sequence items, found, member => covers_scalarsOfItems covers 0 items found member
  | .mapping entries, found, member => covers_scalarsOfEntries covers entries found member
  | .tagged _ value, found, member => covers_scalars covers value found member
  | .null, _, member => absurd member List.not_mem_nil
  | .bool _, _, member => absurd member List.not_mem_nil
  | .number _, _, member => absurd member List.not_mem_nil

theorem covers_scalarsOfItems {outer path : Path} (covers : outer.Covers path) (index : Nat) : ∀ items,
    ∀ found ∈ scalarsOfItems path index items, outer.Covers found.1
  | [], _, member => absurd member List.not_mem_nil
  | item :: rest, found, member => by
      rw [scalarsOfItems, List.mem_append] at member
      rcases member with first | later
      · exact covers_scalars (Path.covers_index covers) item found first
      · exact covers_scalarsOfItems covers (index + 1) rest found later

theorem covers_scalarsOfEntries {outer path : Path} (covers : outer.Covers path) : ∀ entries,
    ∀ found ∈ scalarsOfEntries path entries, outer.Covers found.1
  | [], _, member => absurd member List.not_mem_nil
  | (key, item) :: rest, found, member => by
      rw [scalarsOfEntries, List.mem_append] at member
      rcases member with first | later
      · refine covers_scalars ?_ item found first
        cases key.asStr with
        | none => exact covers
        | some name => exact Path.covers_field covers
      · exact covers_scalarsOfEntries covers rest found later

end

/-- These places stand at the value's own or beneath. -/
def Places.Beneath (places : Places) : Prop :=
  ∀ (outer path : Path) value, outer.Covers path → ∀ place ∈ places path value,
    outer.Covers place.1

theorem beneath_here : Places.here.Beneath := by
  intro outer path value covers place member
  rw [Places.here, List.mem_singleton] at member
  rw [member]
  exact covers

theorem Places.Beneath.under (beneath : places.Beneath) (name : Text) :
    Places.Beneath (.under name places) := by
  intro outer path value covers
  induction value using Value.untag.induct with
  | case1 tag value ih => exact ih
  | case2 value untagged =>
      cases value with
      | tagged tag value => exact absurd rfl (untagged tag value)
      | mapping entries =>
          intro place member
          obtain ⟨entry, _, isPlace⟩ := List.mem_flatMap.mp member
          split at isPlace
          · exact beneath outer _ _ (Path.covers_field covers) place isPlace
          · contradiction
      | _ => exact fun _ member => absurd member List.not_mem_nil

theorem Places.Beneath.each (beneath : places.Beneath) : Places.Beneath (.each places) := by
  intro outer path value covers
  induction value using Value.untag.induct with
  | case1 tag value ih => exact ih
  | case2 value untagged =>
      cases value with
      | tagged tag value => exact absurd rfl (untagged tag value)
      | sequence items =>
          change ∀ place ∈ Places.ofItems places path 0 items, outer.Covers place.1
          generalize 0 = index
          induction items generalizing index with
          | nil => exact fun _ member => absurd member List.not_mem_nil
          | cons item rest ih =>
              intro place member
              rw [Places.ofItems, List.mem_append] at member
              rcases member with first | later
              · exact beneath outer _ item (Path.covers_index covers) place first
              · exact ih (fun _ _ => Value.noConfusion) (index + 1) place later
      | _ => exact fun _ member => absurd member List.not_mem_nil

theorem beneath_clusterSecrets : clusterSecrets.Beneath := by
  intro outer path value covers place member
  have under := beneath_here.under
  have tls := (under (text "key")).under (text "tls")
  simp only [clusterSecrets, secretSections, List.flatMap_cons, List.flatMap_nil, List.append_nil,
    List.mem_append] at member
  rcases member with store | tenant | keys | listener | management
  · exact (under (text "dsn")).under _ outer path value covers place store
  · exact ((under (text "secret")).under (text "auth")).each.under _ outer path value covers place
      tenant
  · exact (under (text "secret")).each.under _ outer path value covers place keys
  · exact tls.each.under _ outer path value covers place listener
  · exact tls.under _ outer path value covers place management

/-- No inline secret stands at the root. -/
theorem ne_root_of_secretScalars {document : Value} {found : Path × Text}
    (member : found ∈ secretScalars document) : found.1 ≠ .root := by
  obtain ⟨place, isPlace, isFound⟩ := List.mem_flatMap.mp member
  have inCluster : clusterPath.Covers place.1 := by
    clear isFound member
    induction document using Value.untag.induct with
    | case1 tag value ih => exact ih isPlace
    | case2 value untagged =>
        cases value with
        | tagged tag value => exact absurd rfl (untagged tag value)
        | mapping entries =>
            obtain ⟨entry, _, isPlace⟩ := List.mem_flatMap.mp isPlace
            split at isPlace
            · exact beneath_clusterSecrets _ _ _ Path.covers_self place isPlace
            · contradiction
        | _ => exact absurd isPlace List.not_mem_nil
  have covers := covers_scalars inCluster place.2 found isFound
  intro isRoot
  rw [isRoot] at covers
  exact absurd (List.prefix_nil.mp covers) (by decide)

end Beneath

/-! ## What a change hides -/

/-- The change leaves the scalars that do not stand in these places, and no others. -/
def Hides (places : Places) (change : Value → Value) : Prop :=
  ∀ path value found, found ∈ scalars path value ↔
    found ∈ scalars path (change value) ∨ ∃ place ∈ places path value, found ∈ scalars place.1 place.2

section Hides

variable {places others : Places} {change next : Value → Value} {name other : Text}

theorem mem_scalarsOfEntries {path : Path} {entries : List (Value × Value)} {found : Path × Text} :
    found ∈ scalarsOfEntries path entries ↔
      ∃ entry ∈ entries, found ∈ scalars ((entry.1.asStr.map path.field).getD path) entry.2 := by
  induction entries with
  | nil => simp [scalarsOfEntries]
  | cons entry rest ih =>
      obtain ⟨key, item⟩ := entry
      rw [scalarsOfEntries, List.mem_append, ih, List.exists_mem_cons_iff]

theorem getD_field {path : Path} {key : Value} (isKey : key.asStr = some name) :
    (key.asStr.map path.field).getD path = path.field name := by
  rw [isKey]
  rfl

theorem hides_here : Hides .here hide := by
  intro path value found
  simp [Places.here, hide, scalars]

theorem Hides.under (hides : Hides places change) (name : Text) :
    Hides (.under name places) (.atKey name change) := by
  intro path value found
  induction value using Value.untag.induct with
  | case1 tag value ih => exact ih
  | case2 value untagged =>
      cases value with
      | tagged tag value => exact absurd rfl (untagged tag value)
      | mapping entries =>
          simp only [scalars, Value.atKey, Mapping.atKey, mem_scalarsOfEntries, Places.under,
            List.mem_flatMap, List.mem_map]
          constructor
          · rintro ⟨⟨key, item⟩, member, isFound⟩
            by_cases isKey : key.asStr = some name
            · rw [getD_field isKey, hides] at isFound
              rcases isFound with kept | ⟨place, isPlace, isFound⟩
              · refine .inl ⟨(key, change item), ⟨(key, item), member, by rw [if_pos isKey]⟩, ?_⟩
                rwa [getD_field isKey]
              · exact .inr ⟨place, ⟨(key, item), member, by rwa [if_pos isKey]⟩, isFound⟩
            · exact .inl ⟨(key, item), ⟨(key, item), member, by rw [if_neg isKey]⟩, isFound⟩
          · rintro (⟨_, ⟨⟨key, item⟩, member, rfl⟩, isFound⟩ |
              ⟨place, ⟨⟨key, item⟩, member, isPlace⟩, isFound⟩)
            · refine ⟨(key, item), member, ?_⟩
              by_cases isKey : key.asStr = some name
              · rw [if_pos isKey, getD_field isKey] at isFound
                rw [getD_field isKey, hides]
                exact .inl isFound
              · rwa [if_neg isKey] at isFound
            · by_cases isKey : key.asStr = some name
              · rw [if_pos isKey] at isPlace
                refine ⟨(key, item), member, ?_⟩
                rw [getD_field isKey, hides]
                exact .inr ⟨place, isPlace, isFound⟩
              · rw [if_neg isKey] at isPlace
                contradiction
      | _ => simp [scalars, Value.atKey, Places.under]

theorem Hides.ofItems (hides : Hides places change) (path : Path) (index : Nat) (items : List Value)
    (found : Path × Text) :
    found ∈ scalarsOfItems path index items ↔
      found ∈ scalarsOfItems path index (items.map change) ∨
        ∃ place ∈ Places.ofItems places path index items, found ∈ scalars place.1 place.2 := by
  induction items generalizing index with
  | nil => simp [scalarsOfItems, Places.ofItems]
  | cons item rest ih =>
      rw [scalarsOfItems, List.map_cons, scalarsOfItems, Places.ofItems, List.mem_append,
        List.mem_append, ih, hides]
      simp only [List.mem_append]
      grind

theorem Hides.each (hides : Hides places change) : Hides (.each places) (.eachItem change) := by
  intro path value found
  induction value using Value.untag.induct with
  | case1 tag value ih => exact ih
  | case2 value untagged =>
      cases value with
      | tagged tag value => exact absurd rfl (untagged tag value)
      | sequence items => exact hides.ofItems path 0 items found
      | _ => simp [scalars, Value.eachItem, Places.each]

/-- Changes of places that lie apart, one after the other. -/
theorem Hides.then (hides : Hides places change) (hidesNext : Hides others next)
    (apart : ∀ path value, others path (change value) = others path value) :
    Hides (fun path value => places path value ++ others path value) (next ∘ change) := by
  intro path value found
  rw [hides, hidesNext, apart]
  simp only [Function.comp_apply, List.mem_append]
  grind

theorem under_atKey_of_ne (differs : name ≠ other) (path : Path) (value : Value) :
    Places.under name places path (value.atKey other change) = Places.under name places path value := by
  induction value using Value.untag.induct with
  | case1 tag value ih => exact ih
  | case2 value untagged =>
      cases value with
      | tagged tag value => exact absurd rfl (untagged tag value)
      | mapping entries =>
          simp only [Value.atKey, Mapping.atKey, Places.under, List.flatMap_map]
          apply List.flatMap_congr
          intro entry _
          by_cases isKey : entry.1.asStr = some name
          · have notOther : ¬ entry.1.asStr = some other := by
              rw [isKey]
              exact fun same => differs (Option.some.inj same)
            rw [if_pos isKey, if_pos isKey, if_neg notOther]
          · rw [if_neg isKey, if_neg isKey]
      | _ => rfl

/-- A cluster is redacted section by section. -/
theorem onMapping_redactCluster (value : Value) :
    value.onMapping redactCluster =
      ((((value.atKey (text "locationStore") (.atKey (text "dsn") hide)).atKey
        (text "tenant") (.eachItem redactAuth)).atKey
        (text "keys") (.eachItem (.atKey (text "secret") hide))).atKey
        (text "listener") (.eachItem redactTls)).atKey
        (text "management") redactTls := by
  induction value using Value.untag.induct with
  | case1 tag value ih =>
      simp only [Value.onMapping, Value.atKey, ih]
  | case2 value untagged =>
      cases value with
      | tagged tag value => exact absurd rfl (untagged tag value)
      | _ => rfl

theorem hides_redactCluster : Hides clusterSecrets (.onMapping redactCluster) := by
  have store := (hides_here.under (text "dsn")).under (text "locationStore")
  have tenant := (((hides_here.under (text "secret")).under (text "auth")).each).under (text "tenant")
  have keys := ((hides_here.under (text "secret")).each).under (text "keys")
  have tls := (hides_here.under (text "key")).under (text "tls")
  have listener := tls.each.under (text "listener")
  have management := tls.under (text "management")
  have chain := (((store.then tenant fun _ _ => under_atKey_of_ne (by decide) _ _).then keys
    fun _ _ => ?_).then listener fun _ _ => ?_).then management fun _ _ => ?_
  · intro path value found
    rw [chain, onMapping_redactCluster]
    simp only [clusterSecrets, secretSections, List.flatMap_cons, List.flatMap_nil, List.append_nil,
      List.append_assoc]
    rfl
  all_goals
    simp only [Function.comp_apply]
    simp (disch := decide) only [under_atKey_of_ne]

/-- The scalars of a document are those it has without its inline secrets, and these. -/
theorem mem_scalars_iff {document : Value} {found : Path × Text} :
    found ∈ scalars .root document ↔
      found ∈ scalars .root (redact document) ∨ found ∈ secretScalars document := by
  rw [secretScalars, List.mem_flatMap]
  exact hides_redactCluster.under (text "cluster") .root document found

end Hides

/-! ## What is refused -/

/-- The errors a document is refused with, if it is. -/
def refusals (loaded : Except (List ConfigError) Config) : List ConfigError :=
  match loaded with
  | .ok _ => []
  | .error errors => errors

/-- The names that do not resolve, with the places that mention them; the root stands for
those that no scalar mentions. -/
def mentions (document : Value) (unresolved : List Text) : List (Path × Text) :=
  let located := locateReferences unresolved .root document
  located ++ (unresolved.filter fun name => ¬ located.any fun found => found.2 = name).map
    fun name => (.root, name)

theorem reportUnresolved_eq (document : Value) (unresolved : List Text) :
    reportUnresolved document unresolved =
      (mentions document unresolved).map fun mention => unresolvedAt mention.1 mention.2 := by
  simp only [reportUnresolved, mentions, List.map_append, List.map_map]
  rfl

theorem rule_unresolvedAt (path : Path) (name : Text) : (unresolvedAt path name).rule = referenceRule :=
  rfl

theorem unresolvedAt_inj {mention other : Path × Text}
    (same : unresolvedAt mention.1 mention.2 = unresolvedAt other.1 other.2) : mention = other := by
  rcases mention with ⟨path, name⟩
  rcases other with ⟨otherPath, otherName⟩
  simp only [unresolvedAt, ConfigError.new, referenceTo, ConfigError.mk.injEq, Option.some.injEq,
    List.cons.injEq, List.append_cancel_right_eq, true_and] at same
  rw [same.1, same.2.1]

/-- The refusal of a document that nothing was found wrong with. -/
def incomplete : ConfigError :=
  .new .root "CC-V10" none (text "a document this loader could read to completion")

theorem refusals_loadTree {document : Value} {unresolved : List Text} {identity : NodeIdentity}
    (native : isForeign document = false) :
    refusals (loadTree lib document unresolved identity) =
      if reportUnresolved document unresolved ++ (readersSay lib document identity).1 = [] then
        if (readersSay lib document identity).2 then [] else [incomplete]
      else
        ordered (reportUnresolved document unresolved ++ (readersSay lib document identity).1) := by
  rcases readDocument_eq lib identity (reportUnresolved document unresolved)
    native with ⟨faults, completes⟩
  rw [← faults, ← completes]
  unfold loadTree
  generalize readDocument lib document identity (reportUnresolved document unresolved) = answer
  rcases answer with ⟨config, errors⟩
  cases errors with
  | nil => cases config <;> rfl
  | cons error rest => cases config <;> simp [refusals]

theorem refusals_loadTree_foreign {document : Value} {unresolved : List Text}
    {identity : NodeIdentity} (foreign : isForeign document = true) :
    refusals (loadTree lib document unresolved identity) =
      ordered (readersSay lib document identity).1 := by
  unfold loadTree
  rw [readDocument_foreign _ foreign, readersSay]
  unfold readDocument
  unfold isForeign at foreign
  cases isTop : document.asMapping with
  | none => simp [isTop] at foreign
  | some top =>
      simp only [isTop] at foreign
      simp only [foreign, if_true, refusals]

/-- A report beside faults that are none of references mentions what it mentions. -/
theorem mem_mentions_iff {document : Value} {unresolved : List Text} {others : List ConfigError}
    (apart : NotOfReferences others) {mention : Path × Text} :
    unresolvedAt mention.1 mention.2 ∈ reportUnresolved document unresolved ++ others ↔
      mention ∈ mentions document unresolved := by
  rw [reportUnresolved_eq, List.mem_append, List.mem_map]
  constructor
  · rintro (⟨other, isMention, same⟩ | member)
    · rwa [← unresolvedAt_inj same]
    · exact absurd (rule_unresolvedAt _ _) (apart _ member)
  · intro isMention
    exact .inl ⟨mention, isMention, rfl⟩

/-- What a refusal says of references is what the document mentions. -/
theorem mem_refusals_iff (lib : Libraries) {document : Value} {unresolved : List Text}
    (identity : NodeIdentity) (native : isForeign document = false) {mention : Path × Text} :
    unresolvedAt mention.1 mention.2 ∈ refusals (loadTree lib document unresolved identity) ↔
      mention ∈ mentions document unresolved := by
  have apart : NotOfReferences (readersSay lib document identity).1 := notOfReferences_readersSay
  rw [← mem_mentions_iff apart, refusals_loadTree native]
  split
  · next empty =>
      rw [empty]
      split
      · rfl
      · simp only [List.mem_singleton, List.not_mem_nil, iff_false]
        intro isIncomplete
        have rule := congrArg ConfigError.rule isIncomplete
        rw [rule_unresolvedAt] at rule
        exact absurd rule (by decide)
  · exact Data.mem_sortedDistinct

/-- Reports of the same mentions, beside the same faults, make the same refusal. -/
theorem ordered_reports_eq {document other : Value} {unresolved unresolved' : List Text}
    (others : List ConfigError)
    (same : ∀ mention, mention ∈ mentions document unresolved ↔ mention ∈ mentions other unresolved') :
    ordered (reportUnresolved document unresolved ++ others) =
      ordered (reportUnresolved other unresolved' ++ others) := by
  apply Data.sortedDistinct_eq_iff.mpr
  intro error
  simp only [reportUnresolved_eq, List.mem_append, List.mem_map, same]

theorem ordered_eq_nil {errors : List ConfigError} : ordered errors = [] ↔ errors = [] := by
  rw [List.eq_nil_iff_forall_not_mem, List.eq_nil_iff_forall_not_mem]
  simp only [ordered, Data.mem_sortedDistinct]

/-! ## What inline secrets refer to -/

/-- What the inline secrets of a document refer to and does not resolve, another document
refers to at the same places. -/
def Echoes (unresolved : List Text) (document other : Value) : Prop :=
  ∀ path, ∀ name ∈ unresolved, Refers (secretScalars document) path name →
    Refers (scalars .root other) path name

section Echoes

variable {document other : Value} {unresolved unresolved' : List Text} {path : Path} {name : Text}

/-- A name is mentioned where a scalar refers to it, and at the root where none does. -/
theorem mem_mentions :
    (path, name) ∈ mentions document unresolved ↔ name ∈ unresolved ∧
      (Refers (scalars .root document) path name ∨
        path = .root ∧ ∀ place, ¬ Refers (scalars .root document) place name) := by
  rw [mentions, List.mem_append, mem_locateReferences, List.mem_map]
  constructor
  · rintro (⟨unset, refers⟩ | ⟨_, unlocated, same⟩)
    · exact ⟨unset, .inl refers⟩
    · obtain ⟨rfl, rfl⟩ := Prod.mk.inj same
      obtain ⟨unset, nowhere⟩ := List.mem_filter.mp unlocated
      simp only [List.any_eq_true, decide_eq_true_eq, not_exists, not_and] at nowhere
      refine ⟨unset, .inr ⟨rfl, fun place refers => ?_⟩⟩
      exact nowhere (place, _) (mem_locateReferences.mpr ⟨unset, refers⟩) rfl
  · rintro ⟨unset, refers | ⟨rfl, nowhere⟩⟩
    · exact .inl ⟨unset, refers⟩
    · refine .inr ⟨name, List.mem_filter.mpr ⟨unset, ?_⟩, rfl⟩
      simp only [List.any_eq_true, decide_eq_true_eq, not_exists, not_and]
      rintro ⟨place, found⟩ isFound rfl
      exact nowhere place (mem_locateReferences.mp isFound).2

/-- Every name that does not resolve is mentioned somewhere. -/
theorem exists_mention (document : Value) (unset : name ∈ unresolved) :
    ∃ path, (path, name) ∈ mentions document unresolved := by
  by_cases somewhere : ∃ path, Refers (scalars .root document) path name
  · obtain ⟨path, refers⟩ := somewhere
    exact ⟨path, mem_mentions.mpr ⟨unset, .inl refers⟩⟩
  · exact ⟨.root, mem_mentions.mpr ⟨unset, .inr ⟨rfl, not_exists.mp somewhere⟩⟩⟩

theorem refers_iff :
    Refers (scalars .root document) path name ↔
      Refers (scalars .root (redact document)) path name ∨
        Refers (secretScalars document) path name := by
  constructor
  · rintro ⟨value, member, refers⟩
    rcases mem_scalars_iff.mp member with plain | secret
    · exact .inl ⟨value, plain, refers⟩
    · exact .inr ⟨value, secret, refers⟩
  · rintro (⟨value, plain, refers⟩ | ⟨value, secret, refers⟩)
    · exact ⟨value, mem_scalars_iff.mpr (.inl plain), refers⟩
    · exact ⟨value, mem_scalars_iff.mpr (.inr secret), refers⟩

/-- Where the inline secrets of a document refer to nothing else, it refers to nothing else. -/
theorem Echoes.refers (echoes : Echoes unresolved document other)
    (same : redact document = redact other) (unset : name ∈ unresolved)
    (refers : Refers (scalars .root document) path name) :
    Refers (scalars .root other) path name := by
  rcases refers_iff.mp refers with plain | secret
  · rw [same] at plain
    exact refers_iff.mpr (.inl plain)
  · exact echoes path name unset secret

/-- What one document mentions where another does is what its inline secrets echo. -/
theorem echoes_of_mentions
    (sameMentions : ∀ mention ∈ mentions document unresolved, mention ∈ mentions other unresolved') :
    Echoes unresolved document other := by
  intro path name unset secret
  have refers : Refers (scalars .root document) path name := refers_iff.mpr (.inr secret)
  obtain ⟨-, refersThere | ⟨rfl, nowhere⟩⟩ :=
    mem_mentions.mp (sameMentions _ (mem_mentions.mpr ⟨unset, .inl refers⟩))
  · exact refersThere
  · -- The root is no place of an inline secret.
    obtain ⟨value, member, _⟩ := secret
    exact absurd rfl (ne_root_of_secretScalars member)

theorem sameMentions_iff (same : redact document = redact other) :
    (∀ mention, mention ∈ mentions document unresolved ↔ mention ∈ mentions other unresolved') ↔
      (∀ name, name ∈ unresolved ↔ name ∈ unresolved') ∧ Echoes unresolved document other ∧
        Echoes unresolved' other document := by
  constructor
  · intro sameMentions
    refine ⟨fun name => ⟨fun unset => ?_, fun unset => ?_⟩,
      echoes_of_mentions (fun mention => (sameMentions mention).mp),
      echoes_of_mentions (fun mention => (sameMentions mention).mpr)⟩
    · obtain ⟨path, isMention⟩ := exists_mention document unset
      exact (mem_mentions.mp ((sameMentions _).mp isMention)).1
    · obtain ⟨path, isMention⟩ := exists_mention other unset
      exact (mem_mentions.mp ((sameMentions _).mpr isMention)).1
  · rintro ⟨sameNames, echoes, echoed⟩ ⟨path, name⟩
    rw [mem_mentions, mem_mentions, sameNames]
    refine and_congr_right fun unset => ?_
    have alike : ∀ place, Refers (scalars .root document) place name ↔
        Refers (scalars .root other) place name :=
      fun place => ⟨echoes.refers same ((sameNames name).mpr unset), echoed.refers same.symm unset⟩
    simp only [alike]

end Echoes

/-- Documents that differ in nothing but their inline secrets are refused alike exactly where
they are of another version, or where the same names do not resolve and what the inline secrets
of the one refer to the other refers to as well. -/
theorem refusals_eq_iff {document other : Value} (same : redact document = redact other)
    (unresolved unresolved' : List Text) (identity : NodeIdentity) :
    refusals (loadTree lib document unresolved identity) =
        refusals (loadTree lib other unresolved' identity) ↔
      isForeign document = true ∨
        (∀ name, name ∈ unresolved ↔ name ∈ unresolved') ∧ Echoes unresolved document other ∧
          Echoes unresolved' other document := by
  rw [← sameMentions_iff same]
  have sameForeign : isForeign document = isForeign other := by
    rw [← isForeign_redact, same, isForeign_redact]
  have sameSay : readersSay lib document identity = readersSay lib other identity := by
    rw [← readersSay_redact, same, readersSay_redact]
  cases foreign : isForeign document with
  | true =>
      rw [refusals_loadTree_foreign foreign, refusals_loadTree_foreign (sameForeign ▸ foreign), sameSay]
      simp
  | false =>
      have foreign' : isForeign other = false := sameForeign ▸ foreign
      simp only [Bool.false_eq_true, false_or]
      constructor
      · intro alike mention
        rw [← mem_refusals_iff lib identity foreign, alike, mem_refusals_iff lib identity foreign']
      · intro sameMentions
        have sameReports := ordered_reports_eq (readersSay lib document identity).1 sameMentions
        rw [refusals_loadTree foreign, refusals_loadTree foreign', ← sameSay, sameReports]
        congr 1
        rw [← ordered_eq_nil, sameReports, ordered_eq_nil]

/-! ## Two documents -/

/-- A cluster of one store, with this address inline. -/
def inlineDsn (dsn : String) : Value :=
  mappingOf [("cluster", mappingOf [("locationStore", mappingOf [("dsn", scalar dsn)])])]

theorem redact_inlineDsn (dsn : String) : redact (inlineDsn dsn) =
    mappingOf [("cluster", mappingOf [("locationStore", mappingOf [("dsn", .null)])])] := by
  simp [redact, inlineDsn, mappingOf, Value.atKey, Mapping.atKey, Value.onMapping, redactCluster,
    scalar, Value.asStr, Value.untag, hide, text_inj]

/-- The one scalar of the document, in the place of the inline secret. -/
theorem scalars_inlineDsn (dsn : String) : scalars .root (inlineDsn dsn) =
    [(⟨text "cluster.locationStore.dsn"⟩, text dsn)] :=
  rfl

theorem secretScalars_inlineDsn (dsn : String) : secretScalars (inlineDsn dsn) =
    [(⟨text "cluster.locationStore.dsn"⟩, text dsn)] :=
  rfl

/-- Two addresses with the same unresolved reference are refused alike. -/
theorem refusals_eq_inlineDsn :
    refusals (loadTree (readsAs []) (inlineDsn "postgres://$\x7bHOST\x7d/a") [text "HOST"]
        leastIdentity) =
      refusals (loadTree (readsAs []) (inlineDsn "postgres://$\x7bHOST\x7d/b") [text "HOST"]
        leastIdentity) := by
  apply (refusals_eq_iff (by rw [redact_inlineDsn, redact_inlineDsn]) _ _ leastIdentity).mpr
  refine .inr ⟨fun _ => Iff.rfl, ?_, ?_⟩
  all_goals
    intro path name unset refers
    rw [List.mem_singleton] at unset
    subst unset
    rw [secretScalars_inlineDsn] at refers
    rw [scalars_inlineDsn]
    obtain ⟨value, member, _⟩ := refers
    obtain ⟨rfl, -⟩ := Prod.mk.inj (List.mem_singleton.mp member)
    exact ⟨_, List.mem_singleton_self _, by decide +kernel⟩

theorem load_eq {raw : Bytes} {input : Text} {document : Value} {identity : NodeIdentity} {env : Env}
    (decoded : fromUtf8 raw = .ok input)
    (parsed : parseDocument lib (substitute input env).1 = .ok document) :
    load lib raw identity env = loadTree lib document (substitute input env).2 identity := by
  simp only [load, decoded, parsed]

/-- The store's address, as a reference. -/
def referring : String :=
  "cluster:\n  locationStore:\n    dsn: $\x7bDSN\x7d\n"

/-- The store's address, as it is. -/
def outspoken : String :=
  "cluster:\n  locationStore:\n    dsn: postgres://b\n"

def twoStores : Libraries :=
  readsAs [(text referring, inlineDsn "$\x7bDSN\x7d"), (text outspoken, inlineDsn "postgres://b")]

theorem parseDocument_referring :
    parseDocument twoStores (text referring) = .ok (inlineDsn "$\x7bDSN\x7d") := by
  have sniffed : looksLikeToml (text referring) = false := by
    decide +kernel
  rw [parseDocument, sniffed]
  simp [twoStores, readsAs]

theorem parseDocument_outspoken :
    parseDocument twoStores (text outspoken) = .ok (inlineDsn "postgres://b") := by
  have sniffed : looksLikeToml (text outspoken) = false := by
    decide +kernel
  have differs : text referring ≠ text outspoken := by
    rw [Ne, text_inj]
    decide
  rw [parseDocument, sniffed]
  simp [twoStores, readsAs, differs]

/-- A reference that does not resolve is named where it is written, an inline secret's place
included. -/
theorem not_refusals_eq :
    ¬ ∀ (lib : Libraries) (raw raw' : Bytes) (input input' : Text) (document other : Value)
      (identity : NodeIdentity) (env : Env),
      fromUtf8 raw = .ok input → parseDocument lib (substitute input env).1 = .ok document →
      fromUtf8 raw' = .ok input' → parseDocument lib (substitute input' env).1 = .ok other →
      redact document = redact other →
      refusals (load lib raw identity env) = refusals (load lib raw' identity env) := by
  intro alike
  have unset : substitute (text referring) (fun _ => none) = (text referring, [text "DSN"]) := by
    decide +kernel
  have plain : substitute (text outspoken) (fun _ => none) = (text outspoken, []) := by
    decide +kernel
  have decoded := fromUtf8_utf8 (text referring)
  have decoded' := fromUtf8_utf8 (text outspoken)
  have parsed : parseDocument twoStores (substitute (text referring) fun _ => none).1 =
      .ok (inlineDsn "$\x7bDSN\x7d") := by
    rw [unset]
    exact parseDocument_referring
  have parsed' : parseDocument twoStores (substitute (text outspoken) fun _ => none).1 =
      .ok (inlineDsn "postgres://b") := by
    rw [plain]
    exact parseDocument_outspoken
  have same := alike _ _ _ _ _ _ _ leastIdentity _ decoded parsed decoded' parsed'
    (by rw [redact_inlineDsn, redact_inlineDsn])
  rw [load_eq decoded parsed, load_eq decoded' parsed', unset, plain] at same
  have native : ∀ dsn, isForeign (inlineDsn dsn) = false := by
    intro dsn
    simp [isForeign, inlineDsn, mappingOf, scalar, Value.asMapping, Value.untag, requiredStr,
      get_cons, text_inj]
  have mentioned : (Path.mk (text "cluster.locationStore.dsn"), text "DSN") ∈
      mentions (inlineDsn "$\x7bDSN\x7d") [text "DSN"] := by
    decide +kernel
  rw [← mem_refusals_iff twoStores leastIdentity (native _), same,
    mem_refusals_iff twoStores leastIdentity (native _)] at mentioned
  exact absurd (mem_mentions.mp mentioned).1 List.not_mem_nil

end SipxClstr.Document
