import SipxClstr.Document.LogicalIds
import Mathlib.Data.List.Perm.Subperm

/-!
# Shards

The list is the shard space.  It assigns each shard to one member as long as its length is a
number the ids can count to.
-/

namespace SipxClstr.Document

open SipxClstr.Sip Reading

variable {lib : Libraries}

/-! ## Ownership -/

/-- Every shard of the space is listed once, under one member, which runs the registrar. -/
structure OwnsTotally (membership : List MemberSpec) (map : ShardMapSpec) : Prop where
  ids : (map.shards.map ShardSpec.id).Perm (List.range' 1 map.shards.length)
  owners : ∀ shard ∈ map.shards, ∃ owner,
    (membership.filter fun member => member.name = shard.owner) = [owner] ∧
      Role.registrar ∈ owner.roles
  alone : ∀ id, 1 ≤ id → id ≤ map.shards.length →
    ∃ shard, (map.shards.filter fun shard => shard.id = id) = [shard]

/-- The shards a document lists. -/
def shardItems (document : Value) : List Value :=
  ((((clusterOf document).bind fun cluster => cluster.get (text "shardMap")).bind
    Value.asMapping).bind fun map => (map.get (text "shards")).bind Value.asSequence).getD []

/-- The shards that the document of these bytes lists. -/
def listedShards (lib : Libraries) (raw : Bytes) (env : Env) : List Value :=
  ((documentOf lib raw env).map shardItems).getD []

/-- The one item of a list without repetitions that has this key. -/
theorem filter_eq_singleton {α β : Type} [DecidableEq β] {key : α → β} {items : List α}
    (distinct : (items.map key).Nodup) {item : α} (member : item ∈ items) :
    (items.filter fun other => key other = key item) = [item] := by
  induction items with
  | nil => contradiction
  | cons first rest ih =>
      rw [List.map_cons, List.nodup_cons] at distinct
      rcases List.mem_cons.mp member with rfl | later
      · have others : (rest.filter fun other => key other = key item) = [] := by
          rw [List.filter_eq_nil_iff]
          intro other isOther same
          apply distinct.1
          rw [← of_decide_eq_true same]
          exact List.mem_map_of_mem isOther
        rw [List.filter_cons_of_pos (by simp), others]
      · have differs : key first ≠ key item := by
          intro same
          apply distinct.1
          rw [same]
          exact List.mem_map_of_mem later
        rw [List.filter_cons_of_neg (by simpa using differs), ih distinct.2 later]

/-- As many ids as there are numbers from one on, and all of those, are each of them once. -/
theorem perm_range'_of_subset {ids : List Nat}
    (covers : ∀ id, 1 ≤ id → id ≤ ids.length → id ∈ ids) :
    ids.Perm (List.range' 1 ids.length) := by
  have subset : List.range' 1 ids.length ⊆ ids := by
    intro id member
    rw [List.mem_range'_1] at member
    exact covers id member.1 (by omega)
  have fits : List.Subperm (List.range' 1 ids.length) ids := (List.nodup_range' 1).subperm subset
  exact (fits.perm_of_length_le (by rw [List.length_range'])).symm

/-! ## What was read -/

theorem reads_readShard {path : Path} {index : Nat} {item : Value} {found : Option ShardSpec}
    (accepted : (readShard lib path index item).Reads found) :
    ∃ shard, found = some shard ∧ shard.id ≤ u16Max := by
  unfold readShard at accepted
  rw [reads_bind] at accepted
  rcases accepted with ⟨_, asked, accepted⟩
  rcases reads_asMapping.mp asked with ⟨map, -, rfl⟩
  simp only [reads_bind, reads_requiredUint, reads_requiredStr] at accepted
  rcases accepted with ⟨_, -, _, ⟨id, isId, rfl⟩, _, ⟨owner, -, rfl⟩, accepted⟩
  rcases Option.bind_eq_some_iff.mp isId with ⟨value, -, isId⟩
  have fits : id ≤ u16Max := by simpa using (Option.filter_eq_some_iff.mp isId).2
  split at accepted
  · next declared found same _ =>
      cases same
      split at accepted
      · simp at accepted
      · rw [reads_pure] at accepted
        exact ⟨_, accepted.symm, fits⟩
  · next absent => exact absurd rfl (absent id owner rfl)

theorem reads_readShards {map : Mapping} {path : Path} {shards : List ShardSpec}
    (accepted : (readShards lib map path).Reads shards) :
    shards.length = (((map.get (text "shards")).bind Value.asSequence).getD []).length ∧
      (∀ shard ∈ shards, shard.id ≤ u16Max) ∧ checkShards shards (path.field (text "shards")) = [] := by
  unfold readShards at accepted
  dsimp only at accepted
  split at accepted
  · simp at accepted
  · next value isValue =>
      split at accepted
      · simp at accepted
      · next items isItems =>
          simp only [reads_bind, reads_report, reads_pure] at accepted
          rcases accepted with ⟨_, read, _, checked, rfl⟩
          rw [isValue, Option.bind_some, isItems, Option.getD_some]
          rcases forall_of_each (fun _ _ _ _ isRead => reads_readShard isRead) read with
            ⟨length, fits⟩
          exact ⟨length, fits, checked⟩

/-- The shards of an accepted document are those it lists, none of the first of them missing. -/
theorem shards_of_accepts {document : Value} {identity : NodeIdentity} {config : Config}
    {cluster : Mapping} {sections : ReadSections} {map : ShardMapSpec}
    (accepts : Accepts lib document identity config cluster sections)
    (isMap : config.shardMap = some map) :
    map.shards.length = (shardItems document).length ∧ (∀ shard ∈ map.shards, shard.id ≤ u16Max) ∧
      checkShards map.shards ((clusterPath.field (text "shardMap")).field (text "shards")) = [] := by
  have read := accepts.sectionsRead.shardMap
  rw [accepts.fields.2.2] at isMap
  dsimp only at isMap
  rw [isMap] at read
  unfold readShardMap at read
  dsimp only at read
  split at read
  · simp at read
  · next value isValue =>
      simp only [reads_bind, reads_ignore, true_and, exists_const] at read
      rcases read with ⟨_, asked, read⟩
      rcases reads_asMapping.mp asked with ⟨written, isMapping, rfl⟩
      simp only [reads_bind, reads_pure] at read
      rcases read with ⟨_, -, drainTimeout, -, shards, isShards, same⟩
      cases same
      have items : shardItems document =
          ((written.get (text "shards")).bind Value.asSequence).getD [] := by
        simp [shardItems, accepts.isCluster, isValue, isMapping]
      rw [items]
      exact reads_readShards isShards

theorem checkShardOwner_eq_nil {membership : List MemberSpec} {shard : ShardSpec} {here : Path} :
    checkShardOwner membership shard here = [] ↔
      ∃ owner, (membership.find? fun member => member.name = shard.owner) = some owner ∧
        Role.registrar ∈ owner.roles := by
  unfold checkShardOwner
  cases (membership.find? fun member => member.name = shard.owner) with
  | none => simp
  | some owner =>
      by_cases registrar : Role.registrar ∈ owner.roles
      · simp [registrar]
      · simp [registrar]

theorem checkShardOwners_eq_nil {map : ShardMapSpec} {membership : List MemberSpec} {path : Path} :
    checkShardOwners (some map) membership path = [] ↔
      ∀ shard ∈ map.shards, ∃ owner,
        (membership.find? fun member => member.name = shard.owner) = some owner ∧
          Role.registrar ∈ owner.roles := by
  unfold checkShardOwners
  dsimp only
  rw [List.flatten_eq_nil_iff]
  constructor
  · intro none shard member
    rcases List.getElem_of_mem member with ⟨index, bound, rfl⟩
    exact checkShardOwner_eq_nil.mp (none _ (List.mem_mapIdx.mpr ⟨index, bound, rfl⟩))
  · intro owned errors member
    rcases List.mem_mapIdx.mp member with ⟨index, bound, rfl⟩
    exact checkShardOwner_eq_nil.mpr (owned _ (List.getElem_mem bound))

/-- No shard is missing, as far as ids count. -/
theorem checkShards_eq_nil {shards : List ShardSpec} {here : Path} :
    checkShards shards here = [] ↔
      ∀ id, 1 ≤ id → id ≤ shards.length → id ≤ u16Max → id ∈ shards.map ShardSpec.id := by
  have listed : ∀ id, (shards.any fun shard => shard.id = id) = true ↔
      id ∈ shards.map ShardSpec.id := by
    intro id
    simp [List.any_eq_true]
  unfold checkShards
  constructor
  · intro checked id first last fits
    dsimp only at checked
    split at checked
    · simp at checked
    · next complete =>
        rw [not_and, not_not, List.filter_eq_nil_iff] at complete
        have some : shards ≠ [] := by
          rintro rfl
          rw [List.length_nil] at last
          omega
        have isMissing := complete some id (by
          rw [List.mem_map]
          exact ⟨id - 1, by rw [List.mem_range]; omega, by omega⟩)
        rw [decide_eq_true_eq, not_not] at isMissing
        exact (listed id).mp isMissing
  · intro covers
    dsimp only
    rw [if_neg]
    rintro ⟨-, missing⟩
    apply missing
    rw [List.filter_eq_nil_iff]
    intro id member
    rcases List.mem_map.mp member with ⟨place, isPlace, rfl⟩
    rw [List.mem_range] at isPlace
    rw [decide_eq_true_eq, not_not]
    exact (listed _).mpr (covers _ (Nat.succ_pos place) (by omega) (by omega))

theorem owners_of_accepts {document : Value} {identity : NodeIdentity} {config : Config}
    {cluster : Mapping} {sections : ReadSections} {map : ShardMapSpec}
    (accepts : Accepts lib document identity config cluster sections)
    (isMap : config.shardMap = some map) :
    ∀ shard ∈ map.shards, ∃ owner,
      (config.membership.find? fun member => member.name = shard.owner) = some owner ∧
        Role.registrar ∈ owner.roles := by
  have agrees := accepts.agrees
  simp only [crossChecks, reads_bind, reads_report] at agrees
  rcases agrees with ⟨_, -, _, -, _, -, owned⟩
  have same := accepts.fields.2.2
  rw [same] at isMap ⊢
  dsimp only at isMap ⊢
  rw [isMap] at owned
  exact checkShardOwners_eq_nil.mp owned

/-- A shard map assigns every shard to one member exactly where its ids can count that far. -/
theorem ownsTotally_iff (lib : Libraries) (raw : Bytes) (identity : NodeIdentity) (env : Env)
    (config : Config) (map : ShardMapSpec) (accepted : load lib raw identity env = .ok config)
    (isMap : config.shardMap = some map) :
    OwnsTotally config.membership map ↔ (listedShards lib raw env).length ≤ u16Max := by
  rcases load_document accepted with ⟨document, cluster, sections, isDocument, accepts⟩
  rcases shards_of_accepts accepts isMap with ⟨length, fits, checked⟩
  have listed : listedShards lib raw env = shardItems document := by
    rw [listedShards, isDocument, Option.map_some, Option.getD_some]
  rw [listed, ← length]
  constructor
  · intro owns
    by_contra many
    rw [not_le] at many
    have last : map.shards.length ∈ List.range' 1 map.shards.length := by
      rw [List.mem_range'_1]
      omega
    rcases List.mem_map.mp (owns.ids.mem_iff.mpr last) with ⟨shard, member, isLast⟩
    have small := fits shard member
    omega
  · intro few
    have ids : (map.shards.map ShardSpec.id).Perm (List.range' 1 map.shards.length) := by
      have covers := @perm_range'_of_subset (map.shards.map ShardSpec.id)
      rw [List.length_map] at covers
      apply covers
      intro id first last
      exact checkShards_eq_nil.mp checked id first last (last.trans few)
    have distinct : (map.shards.map ShardSpec.id).Nodup :=
      ids.nodup_iff.mpr (List.nodup_range' 1)
    refine ⟨ids, ?_, ?_⟩
    · intro shard member
      rcases owners_of_accepts accepts isMap shard member with ⟨owner, found, registrar⟩
      have isOwner := of_decide_eq_true
        (List.find?_some (p := fun member : MemberSpec => decide (member.name = shard.owner)) found)
      refine ⟨owner, ?_, registrar⟩
      rw [← isOwner]
      exact filter_eq_singleton (nodup_names accepts) (List.mem_of_find?_eq_some found)
    · intro id first last
      have isListed : id ∈ map.shards.map ShardSpec.id := by
        rw [ids.mem_iff, List.mem_range'_1]
        omega
      rcases List.mem_map.mp isListed with ⟨shard, member, rfl⟩
      exact ⟨shard, filter_eq_singleton distinct member⟩

/-! ## Two documents -/

/-- A member that runs the registrar. -/
def shardOwner : Value :=
  mappingOf [("node", .number (.posInt 1)), ("name", scalar "a"), ("zone", scalar "z"),
    ("roles", .sequence [scalar "registrar"]), ("rpc", scalar "10.0.0.7:7000")]

/-- A shard's entry. -/
def shardEntry (id : Nat) : Value :=
  mappingOf [("id", .number (.posInt (UInt64.ofNat id))), ("owner", scalar "a")]

/-- What a cluster declares to assign these shards to its one member. -/
def assigning (ids : List Nat) : List (String × Value) :=
  [("membership", .sequence [shardOwner]),
    ("shardMap", mappingOf [("shards", .sequence (ids.map shardEntry))])]

def shardRow (id : Nat) : Text :=
  text "    - id: " ++ decimal id ++ text "\n      owner: a\n"

def assigningText (ids : List Nat) : Text :=
  text "  membership:\n  - node: 1\n    name: a\n    zone: z\n    roles: [registrar]\n    rpc: 10.0.0.7:7000\n  shardMap:\n    shards:\n" ++
    ids.flatMap shardRow

/-- The same as lines of text. -/
def assigningLines (ids : List Nat) : String :=
  String.ofList (assigningText ids)

set_option maxRecDepth 4000 in
theorem plain_assigningText (ids : List Nat) : '$' ∉ assigningText ids := by
  have row : ∀ id, '$' ∉ shardRow id := by
    intro id
    have digits : '$' ∉ decimal id := by
      intro member
      exact absurd (isDigit_of_mem_decimal member) (by decide)
    have before : '$' ∉ text "    - id: " := by
      rw [text_eq rfl]
      decide
    have after : '$' ∉ text "\n      owner: a\n" := by
      rw [text_eq rfl]
      decide
    simp only [shardRow, List.mem_append, not_or]
    exact ⟨⟨before, digits⟩, after⟩
  unfold assigningText
  rw [List.mem_append, not_or]
  constructor
  · rw [text_eq rfl]
    decide +kernel
  · rw [List.mem_flatMap]
    rintro ⟨id, -, member⟩
    exact row id member

/-- A sequence each item of which is read without a fault. -/
theorem reads_each_of_forall {α : Type} {read : List α → Nat → Value → Reading (Option α)}
    {items : List Value} {values : List α} {held : List α} {index : Nat}
    (reads : List.Forall₂ (fun item value => ∀ held index,
      (read held index item).Reads (some value)) items values) :
    (each read held index items).Reads (held ++ values) := by
  induction reads generalizing held index with
  | nil =>
      rw [each, reads_pure, List.append_nil]
  | cons first _ ih =>
      rw [each, reads_bind]
      refine ⟨_, first held index, ?_⟩
      rw [List.append_cons]
      exact ih

theorem readShard_shardEntry {id : Nat} (first : 1 ≤ id) (last : id ≤ u16Max) (lib : Libraries)
    (path : Path) (index : Nat) :
    (readShard lib path index (shardEntry id)).Reads (some ⟨id, text "a"⟩) := by
  have isId : (Mapping.get [(scalar "id", .number (.posInt (UInt64.ofNat id))),
      (scalar "owner", scalar "a")] (text "id")).bind (uintOf u16Max) = some id := by
    have small : id % 18446744073709551616 = id := by
      unfold u16Max at last
      omega
    simp [get_cons, scalar, uintOf, Value.asU64, Value.untag, small, last]
  have isOwner : (Mapping.get [(scalar "id", .number (.posInt (UInt64.ofNat id))),
      (scalar "owner", scalar "a")] (text "owner")).bind strOf = some (text "a") := by
    have nonempty : text "a" ≠ [] := by decide
    simp [get_cons, scalar, strOf, Value.asStr, Value.untag, text_inj, nonempty]
  have known : ∀ entry ∈ [(scalar "id", Value.number (.posInt (UInt64.ofNat id))),
      (scalar "owner", scalar "a")], ∃ name ∈ keysOf ["id", "owner"], entry.1.asStr = some name := by
    simp [scalar, Value.asStr, Value.untag, keysOf]
  unfold readShard
  rw [reads_bind]
  refine ⟨_, reads_asMapping.mpr ⟨_, rfl, rfl⟩, ?_⟩
  simp only [reads_bind]
  refine ⟨(), reads_closedWorld.mpr known, _, reads_requiredUint.mpr ⟨id, isId, rfl⟩, _,
    reads_requiredStr.mpr ⟨_, isOwner, rfl⟩, ?_⟩
  dsimp only
  rw [if_neg (by omega), reads_pure]

/-- The shard map it declares. -/
def assignedMap (ids : List Nat) : ShardMapSpec :=
  ⟨defaultDrainTimeoutMs, ids.map fun id => ⟨id, text "a"⟩⟩

/-- The mapping of the cluster that assigns these shards. -/
def assigningCluster (ids : List Nat) : Mapping :=
  ((clusterOf (leastDocument 1 (assigning ids))).getD [])

theorem readShardMap_assigning {ids : List Nat} (positive : ∀ id ∈ ids, 1 ≤ id)
    (fits : ∀ id ∈ ids, id ≤ u16Max)
    (covers : ∀ id, 1 ≤ id → id ≤ ids.length → id ≤ u16Max → id ∈ ids) (lib : Libraries) :
    (readShardMap lib (assigningCluster ids) clusterPath).Reads
      (some (assignedMap ids)) := by
  have isMap : (assigningCluster ids).get (text "shardMap") =
      some (.mapping [(scalar "shards", .sequence (ids.map shardEntry))]) := rfl
  have each : (each (fun _ => readShard lib ((clusterPath.field (text "shardMap")).field
      (text "shards"))) [] 0 (ids.map shardEntry)).Reads (ids.map fun id => ⟨id, text "a"⟩) := by
    rw [← List.nil_append (ids.map fun id => (⟨id, text "a"⟩ : ShardSpec))]
    apply reads_each_of_forall
    rw [List.forall₂_map_left_iff, List.forall₂_map_right_iff, List.forall₂_same]
    intro id member _ index
    exact readShard_shardEntry (positive id member) (fits id member) lib _ index
  have checked : ∀ here, checkShards (ids.map fun id => ⟨id, text "a"⟩) here = [] := by
    intro here
    rw [checkShards_eq_nil, List.length_map, List.map_map]
    intro id first last small
    rw [List.mem_map]
    exact ⟨id, covers id first last small, rfl⟩
  have known : ∀ entry ∈ [(scalar "shards", Value.sequence (ids.map shardEntry))],
      ∃ name ∈ keysOf ["drainTimeout", "shards"], entry.1.asStr = some name := by
    simp [scalar, Value.asStr, Value.untag, keysOf]
  have noTimeout : Mapping.get [(scalar "shards", .sequence (ids.map shardEntry))]
      (text "drainTimeout") = none := by
    simp [get_cons, scalar, text_inj]
  have isShards : Mapping.get [(scalar "shards", .sequence (ids.map shardEntry))] (text "shards") =
      some (.sequence (ids.map shardEntry)) := by
    simp [get_cons, scalar]
  unfold readShardMap
  rw [isMap]
  dsimp only
  simp only [reads_bind]
  refine ⟨(), reads_ignore.mpr trivial, _, reads_asMapping.mpr ⟨_, rfl, rfl⟩, ?_⟩
  simp only [reads_bind]
  refine ⟨(), reads_closedWorld.mpr known, defaultDrainTimeoutMs, ?_, _, ?_, reads_pure.mpr rfl⟩
  · unfold readDrainTimeout
    dsimp only
    rw [noTimeout]
    exact reads_pure.mpr rfl
  unfold readShards
  dsimp only
  rw [isShards]
  dsimp only [Value.asSequence, Value.untag]
  simp only [reads_bind, reads_pure]
  exact ⟨_, each, (), reads_report.mpr (checked _), rfl⟩

/-- One entry more than ids can count to. -/
def crowdedIds : List Nat :=
  (List.range 65536).map fun place => place % 65535 + 1

theorem length_crowdedIds : crowdedIds.length = 65536 := by
  rw [crowdedIds, List.length_map, List.length_range]

theorem mem_crowdedIds {id : Nat} : id ∈ crowdedIds ↔ 1 ≤ id ∧ id ≤ u16Max := by
  unfold crowdedIds u16Max
  rw [List.mem_map]
  constructor
  · rintro ⟨place, -, rfl⟩
    omega
  · rintro ⟨first, last⟩
    exact ⟨id - 1, by rw [List.mem_range]; omega, by omega⟩

abbrev crowdedLibraries : Libraries :=
  readsAs (onlyLeast 1 (assigning crowdedIds) (assigningLines crowdedIds))

/-- What the crowded document is read as. -/
def crowdedSections : ReadSections :=
  { (readSections crowdedLibraries (assigningCluster crowdedIds) clusterPath).value with
    shardMap := some (assignedMap crowdedIds) }

theorem mem_assignedMap {ids : List Nat} {shard : ShardSpec} :
    shard ∈ (assignedMap ids).shards ↔ ∃ id ∈ ids, ⟨id, text "a"⟩ = shard :=
  List.mem_map

theorem length_assignedMap (ids : List Nat) : (assignedMap ids).shards.length = ids.length :=
  List.length_map _

theorem mem_crowded {shard : ShardSpec} (member : shard ∈ (assignedMap crowdedIds).shards) :
    shard.owner = text "a" ∧ shard.id ≤ u16Max := by
  rcases mem_assignedMap.mp member with ⟨id, isListed, rfl⟩
  exact ⟨rfl, (mem_crowdedIds.mp isListed).2⟩

set_option maxRecDepth 4000 in
/-- The crowded document is read without a fault: only its shards are too many to be read here. -/
theorem readsCleanly_crowded :
    ReadsCleanly crowdedLibraries (leastDocument 1 (assigning crowdedIds)) leastIdentity
      (assigningCluster crowdedIds) crowdedSections where
  top := ⟨_, 1, rfl, ⟨by decide +kernel, by decide +kernel⟩, ⟨by decide +kernel, rfl⟩,
    ⟨by decide +kernel, by decide +kernel⟩, rfl⟩
  recognised := ⟨by decide +kernel, rfl⟩
  managed := by decide +kernel
  sectionsRead :=
    { name := ⟨by decide +kernel, rfl⟩
      environment := ⟨by decide +kernel, rfl⟩
      zones := ⟨by decide +kernel, rfl⟩
      listeners := ⟨by decide +kernel, rfl⟩
      membership := ⟨by decide +kernel, rfl⟩
      keys := ⟨by decide +kernel, rfl⟩
      shardMap := by
        apply readShardMap_assigning
        · exact fun id member => (mem_crowdedIds.mp member).1
        · exact fun id member => (mem_crowdedIds.mp member).2
        · exact fun id first _ last => mem_crowdedIds.mpr ⟨first, last⟩
      locationStore := ⟨by decide +kernel, rfl⟩
      tenants := ⟨by decide +kernel, rfl⟩
      security := ⟨by decide +kernel, rfl⟩
      admission := ⟨by decide +kernel, rfl⟩
      timers := ⟨by decide +kernel, rfl⟩ }
  name := by decide +kernel
  environment := by decide +kernel
  agrees := by
    have owned : checkShardOwners crowdedSections.shardMap crowdedSections.membership
        clusterPath = [] := by
      have isMap : crowdedSections.shardMap = some (assignedMap crowdedIds) := rfl
      have holds : (crowdedSections.membership.find? fun member => member.name = text "a").any
          (fun owner => Role.registrar ∈ owner.roles) = true := by
        decide +kernel
      rw [isMap]
      apply checkShardOwners_eq_nil.mpr
      intro shard member
      rw [(mem_crowded member).1]
      cases found : crowdedSections.membership.find? fun member => member.name = text "a" with
      | none =>
          rw [found] at holds
          exact absurd holds Bool.false_ne_true
      | some owner =>
          rw [found] at holds
          exact ⟨owner, rfl, of_decide_eq_true holds⟩
    simp only [crossChecks, reads_bind, reads_report]
    exact ⟨(), ⟨by decide +kernel, rfl⟩, (), by decide +kernel, (), by decide +kernel, owned⟩

/-- A list of one entry more than there are ids is accepted, and one shard is listed twice. -/
theorem not_ownsTotally :
    ¬ ∀ (lib : Libraries) (raw : Bytes) (identity : NodeIdentity) (env : Env) (config : Config)
      (map : ShardMapSpec), load lib raw identity env = .ok config → config.shardMap = some map →
      OwnsTotally config.membership map := by
  intro owns
  rcases readsCleanly_crowded.loadTree_eq with ⟨config, accepted, -, isMap⟩
  have loaded : loadLeast (onlyLeast 1 (assigning crowdedIds) (assigningLines crowdedIds)) 1
      (assigningLines crowdedIds) = .ok config := by
    rw [loadLeast, loadLeast_eq 1 _ (assigningLines crowdedIds) (find_onlyLeast _ _ _) rfl
      (plain_assigningText _)]
    exact accepted
  have total := (owns _ _ _ _ _ (assignedMap crowdedIds) loaded isMap).ids
  have length : (assignedMap crowdedIds).shards.length = 65536 := by
    rw [length_assignedMap, length_crowdedIds]
  have last : 65536 ∈ List.range' 1 (assignedMap crowdedIds).shards.length := by
    rw [length, List.mem_range'_1]
    omega
  rcases List.mem_map.mp (total.mem_iff.mpr last) with ⟨shard, member, isLast⟩
  have small := (mem_crowded member).2
  unfold u16Max at small
  omega

set_option maxRecDepth 4000 in
/-- Three shards, listed out of their order. -/
theorem ownsTotally_three : ∃ config map,
    loadLeast (onlyLeast 1 (assigning [2, 1, 3]) (assigningLines [2, 1, 3])) 1 (assigningLines [2, 1, 3]) =
      .ok config ∧ config.shardMap = some map ∧ OwnsTotally config.membership map := by
  have read : (loadLeast (onlyLeast 1 (assigning [2, 1, 3]) (assigningLines [2, 1, 3])) 1
      (assigningLines [2, 1, 3])).toOption.map (fun config =>
        config.shardMap.map fun map => map.shards) = 
        some (some [⟨2, text "a"⟩, ⟨1, text "a"⟩, ⟨3, text "a"⟩]) := by
    rw [loadLeast, loadLeast_eq 1 _ (assigningLines [2, 1, 3]) (find_onlyLeast _ _ _) rfl
      (plain_assigningText _)]
    decide +kernel
  rcases Data.exists_ok_of_map read with ⟨config, accepted, shards⟩
  rcases Option.map_eq_some_iff.mp shards with ⟨map, isMap, -⟩
  refine ⟨config, map, accepted, isMap,
    (ownsTotally_iff _ _ _ _ config map accepted isMap).mpr ?_⟩
  rw [listedShards, documentOf_leastText 1 _ (assigningLines [2, 1, 3]) (find_onlyLeast _ _ _) rfl
    (plain_assigningText _)]
  decide +kernel

end SipxClstr.Document
