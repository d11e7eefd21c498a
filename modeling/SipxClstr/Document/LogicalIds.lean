import SipxClstr.Data.Naming
import SipxClstr.Document.KeyReload
import SipxClstr.Document.Members

/-!
# Logical ids across versions

A member's id and a tenant's id are minted into records, which carry the id and not the name.  A
reload is judged for the ids of members: none is re-pointed to another name.  For the ids of
tenants it is not.
-/

namespace SipxClstr.Document

open SipxClstr.Sip SipxClstr.Data Reading

variable {lib : Libraries}

/-- The ids of the members, with the name of each. -/
def memberNames (config : Config) : List (Nat × Text) :=
  config.membership.map fun member => (member.node, member.name)

/-- The ids of the tenants, with the name of each. -/
def tenantNames (config : Config) : List (Nat × Text) :=
  config.tenants.map fun tenant => (tenant.id, tenant.name)

/-! ## What a document declares -/

/-- The tree a document is read as. -/
def documentOf (lib : Libraries) (raw : Bytes) (env : Env) : Option Value :=
  (fromUtf8 raw).toOption.bind fun input =>
    (parseDocument lib (substitute input env).1).toOption

/-- The tree that the least document's text is known to be. -/
theorem documentOf_leastText {env : Env} {known : List (Text × Value)} (version : UInt64)
    (more : List (String × Value)) (lines : String) {spelled : Text}
    (isKnown : known.find? (fun entry => entry.1 = leastText version lines) =
      some (leastText version lines, leastDocument version more))
    (same : lines = String.ofList spelled) (plain : '$' ∉ spelled) :
    documentOf (readsAs known) (utf8 (leastText version lines)) env =
      some (leastDocument version more) := by
  unfold documentOf
  rw [fromUtf8_utf8]
  dsimp only [Except.toOption, Option.bind_some]
  rw [substitute_eq_self (plain_leastText same plain), parseDocument, looksLikeToml_leastText]
  simp [readsAs, isKnown]

/-- The items of the `tenant` section. -/
def tenantItems (document : Value) : List Value :=
  (((clusterOf document).bind fun cluster => cluster.get (text "tenant")).bind
    Value.asSequence).getD []

/-- The id and the name an item declares. -/
def declaredTenant (item : Value) : Option (Nat × Text) := do
  let map ← item.asMapping
  let id ← (map.get (text "id")).bind (uintOf u32Max)
  let name ← (map.get (text "name")).bind strOf
  some (id, name)

theorem load_document {raw : Bytes} {identity : NodeIdentity} {env : Env} {config : Config}
    (accepted : load lib raw identity env = .ok config) :
    ∃ document cluster sections, documentOf lib raw env = some document ∧
      Accepts lib document identity config cluster sections := by
  unfold load at accepted
  unfold documentOf
  split at accepted
  · simp at accepted
  · next input isText =>
      dsimp only at accepted
      split at accepted
      · simp at accepted
      · next document parsed =>
          obtain ⟨cluster, sections, accepts⟩ := loadTree_accepted accepted
          refine ⟨document, cluster, sections, ?_, accepts⟩
          rw [isText]
          simp only [Except.toOption, Option.bind_some, parsed]

theorem reads_readTenant {path : Path} {held : List TenantSpec} {index : Nat} {item : Value}
    {found : Option TenantSpec} (accepted : (readTenant lib path held index item).Reads found) :
    ∃ tenant, found = some tenant ∧ declaredTenant item = some (tenant.id, tenant.name) ∧
      ∀ other ∈ held, other.id ≠ tenant.id := by
  unfold readTenant at accepted
  rw [reads_bind] at accepted
  obtain ⟨_, asked, accepted⟩ := accepted
  obtain ⟨map, isMapping, rfl⟩ := reads_asMapping.mp asked
  simp only [reads_bind, reads_requiredUint, reads_requiredStr] at accepted
  obtain ⟨_, -, _, ⟨name, isName, rfl⟩, _, ⟨id, isId, rfl⟩, auth, -, policy, -, accepted⟩ := accepted
  simp only [reads_bind, reads_report, reads_pure] at accepted
  obtain ⟨_, unique, _, -, rfl⟩ := accepted
  refine ⟨_, rfl, ?_, ?_⟩
  · simp [declaredTenant, isMapping, isName, isId]
  · intro other member same
    unfold checkTenantId at unique
    split at unique
    · simp at unique
    · split at unique
      · simp at unique
      · next none =>
          simpa [same] using List.find?_eq_none.mp none other member

theorem nodup_memberNames {config : Config} {raw : Bytes} {identity : NodeIdentity} {env : Env}
    (accepted : load lib raw identity env = .ok config) :
    ((memberNames config).map Prod.fst).Nodup := by
  obtain ⟨document, cluster, sections, -, accepts⟩ := load_document accepted
  rw [memberNames, List.map_map]
  refine nodup_of_each (fun _ _ _ _ isRead => ?_) (membership_of_accepts accepts)
  obtain ⟨member, isMember, reads⟩ := reads_readMember isRead
  exact ⟨member, isMember, reads.node⟩

/-- The tenants of an accepted document are those it declares, each under an id of its own. -/
theorem tenants_of_load {config : Config} {raw : Bytes} {identity : NodeIdentity} {env : Env}
    (accepted : load lib raw identity env = .ok config) :
    ((tenantNames config).map Prod.fst).Nodup ∧
      ∃ document, documentOf lib raw env = some document ∧
        ∀ id name, (id, name) ∈ tenantNames config ↔
          ∃ item ∈ tenantItems document, declaredTenant item = some (id, name) := by
  obtain ⟨document, cluster, sections, isDocument, accepts⟩ := load_document accepted
  have read := accepts.sectionsRead.tenants
  rw [tenantNames, accepts.fields.2.2, List.map_map]
  unfold readTenants at read
  dsimp only at read
  split at read
  · next absent =>
      rw [← reads_pure.mp read]
      refine ⟨List.nodup_nil, document, isDocument, fun id name => ?_⟩
      simp [tenantItems, accepts.isCluster, absent]
  · next value isValue =>
      split at read
      · simp at read
      · next items isItems =>
          have declared : tenantItems document = items := by
            simp [tenantItems, accepts.isCluster, isValue, isItems]
          refine ⟨nodup_of_each (fun _ _ _ _ isRead => ?_) read, document, isDocument,
            fun id name => ?_⟩
          · obtain ⟨tenant, isTenant, -, apart⟩ := reads_readTenant isRead
            exact ⟨tenant, isTenant, apart⟩
          · rw [declared]
            refine mem_map_of_each (fun _ _ _ _ isRead => ?_) read (id, name)
            obtain ⟨tenant, isTenant, isDeclared, -⟩ := reads_readTenant isRead
            exact ⟨tenant, isTenant, isDeclared⟩

/-! ## One reload -/

/-- What checking the ids of members leaves: none of them names something else. -/
theorem agrees_memberNames {active next : Config}
    (distinct : ((memberNames active).map Prod.fst).Nodup)
    (accepted : checkIdReassignment active next = []) :
    Agrees (memberNames active) (memberNames next) := by
  intro id name other isName isOther
  rcases List.mem_map.mp isOther with ⟨member, isMember, same⟩
  rcases List.mem_map.mp isName with ⟨held, isHeld, sameHeld⟩
  obtain ⟨rfl, rfl⟩ := Prod.mk.inj same
  obtain ⟨sameId, rfl⟩ := Prod.mk.inj sameHeld
  obtain ⟨place, bound, isPlace⟩ := List.getElem_of_mem isMember
  have unspoken := List.flatten_eq_nil_iff.mp accepted _
    (List.mem_mapIdx.mpr ⟨place, bound, rfl⟩)
  rw [isPlace] at unspoken
  split at unspoken
  · next none =>
      exact absurd sameId (by simpa using List.find?_eq_none.mp none held isHeld)
  · next previous isPrevious =>
      have sameNode : previous.node = member.node := by
        simpa using List.find?_some isPrevious
      have isListed : (member.node, previous.name) ∈ memberNames active := by
        rw [← sameNode]
        exact List.mem_map_of_mem (List.mem_of_find?_eq_some isPrevious)
      have previousName := name_unique distinct isName isListed
      split at unspoken
      · next sameName => rw [← sameName, previousName]
      · simp at unspoken

/-- A document that lets the id of a tenant name another. -/
def Repoints (lib : Libraries) (tenants : List TenantSpec) (raw : Bytes) (env : Env) : Prop :=
  ∃ document, documentOf lib raw env = some document ∧
    ∃ item ∈ tenantItems document, ∃ id name, declaredTenant item = some (id, name) ∧
      ∃ held ∈ tenants, held.id = id ∧ held.name ≠ name

/-- The ids of tenants keep their meaning where the document lets none name another. -/
theorem agrees_tenantNames_iff {active next : Config} {raw : Bytes} {identity : NodeIdentity}
    {env : Env} (accepted : load lib raw identity env = .ok next) :
    Agrees (tenantNames active) (tenantNames next) ↔ ¬ Repoints lib active.tenants raw env := by
  obtain ⟨-, document, isDocument, declares⟩ := tenants_of_load accepted
  constructor
  · rintro agree ⟨found, isFound, item, isItem, id, name, declared, held, isHeld, rfl, differs⟩
    cases isDocument.symm.trans isFound
    exact differs (agree held.id held.name name (List.mem_map_of_mem isHeld)
      ((declares held.id name).mpr ⟨item, isItem, declared⟩)).symm
  · intro keeps id name other isName isOther
    rcases List.mem_map.mp isName with ⟨held, isHeld, same⟩
    obtain ⟨rfl, rfl⟩ := Prod.mk.inj same
    obtain ⟨item, isItem, declared⟩ := (declares held.id other).mp isOther
    by_contra differs
    exact keeps ⟨document, isDocument, item, isItem, held.id, other, declared, held, isHeld, rfl,
      Ne.symm differs⟩

/-! ## Chains of reloads -/

/-- What a node is given to reload: a document, and what it is read with. -/
structure Publication where
  raw : Bytes
  identity : NodeIdentity
  env : Env

/-- The versions after the active one, where every reload is accepted. -/
def reloads (lib : Libraries) : Config → List Publication → Option (List Config)
  | _, [] => some []
  | active, publication :: rest =>
      match reload lib active publication.raw publication.identity publication.env with
      | .error _ => none
      | .ok (next, _) => (reloads lib next rest).map fun later => next :: later

/-- No publication lets the id of a tenant of the version before it name another. -/
def NeverRepoints (lib : Libraries) : List Config → List Publication → Prop
  | active :: later, publication :: rest =>
      ¬ Repoints lib active.tenants publication.raw publication.env ∧
        NeverRepoints lib later rest
  | _, _ => True

theorem Active.distinct {config : Config} (active : Active lib config) :
    ((memberNames config).map Prod.fst).Nodup ∧ ((tenantNames config).map Prod.fst).Nodup := by
  cases active with
  | loaded accepted => exact ⟨nodup_memberNames accepted, (tenants_of_load accepted).1⟩
  | reloaded _ accepted =>
      obtain ⟨loaded, -, -⟩ := reload_accepted accepted
      exact ⟨nodup_memberNames loaded, (tenants_of_load loaded).1⟩

theorem reloads_cons {active : Config} {publication : Publication} {rest : List Publication}
    {versions : List Config} (accepted : reloads lib active (publication :: rest) = some versions) :
    ∃ next later plan, reload lib active publication.raw publication.identity publication.env =
        .ok (next, plan) ∧ reloads lib next rest = some later ∧ versions = next :: later := by
  rw [reloads] at accepted
  split at accepted
  · contradiction
  · next next plan isNext =>
      obtain ⟨later, isLater, rfl⟩ := Option.map_eq_some_iff.mp accepted
      exact ⟨next, later, plan, isNext, isLater, rfl⟩

theorem Active.reloads {active : Config} (isActive : Active lib active)
    {publications : List Publication} {later : List Config}
    (accepted : reloads lib active publications = some later) :
    ∀ version ∈ active :: later, Active lib version := by
  induction publications generalizing active later with
  | nil =>
      cases accepted
      simpa using isActive
  | cons publication rest ih =>
      obtain ⟨next, later, plan, isNext, isLater, rfl⟩ := reloads_cons accepted
      intro version member
      rcases List.mem_cons.mp member with rfl | member
      · exact isActive
      · exact ih (.reloaded isActive isNext) isLater version member

/-- From each version to the next the ids of members keep their meaning, and those of tenants
do where the publication lets none name another. -/
theorem isChain_reloads {active : Config} (isActive : Active lib active)
    {publications : List Publication} {later : List Config}
    (accepted : reloads lib active publications = some later) :
    ((active :: later).IsChain fun before after =>
      Agrees (memberNames before) (memberNames after)) ∧
    (((active :: later).IsChain fun before after =>
        Agrees (tenantNames before) (tenantNames after)) ↔
      NeverRepoints lib (active :: later) publications) := by
  induction publications generalizing active later with
  | nil =>
      cases accepted
      simp [NeverRepoints]
  | cons publication rest ih =>
      obtain ⟨next, later, plan, isNext, isLater, rfl⟩ := reloads_cons accepted
      obtain ⟨loaded, clean, -⟩ := reload_accepted isNext
      obtain ⟨members, tenants⟩ := ih (.reloaded isActive isNext) isLater
      have unassigned : checkIdReassignment active next = [] := by
        simp only [transitionErrors, List.append_eq_nil_iff] at clean
        exact clean.1.2
      rw [List.isChain_cons_cons, List.isChain_cons_cons, tenants, NeverRepoints,
        agrees_tenantNames_iff loaded]
      exact ⟨⟨agrees_memberNames isActive.distinct.1 unassigned, members⟩, Iff.rfl⟩

/-- An id of either kind names one thing in a chain of versions that all have it. -/
structure KeepsIds (versions : List Config) : Prop where
  members : Steady memberNames versions
  tenants : Steady tenantNames versions

/-- Through accepted reloads the ids keep their meaning where no publication lets the id of a
tenant name another, and there alone. -/
theorem keepsIds_iff {active : Config} (isActive : Active lib active)
    {publications : List Publication} {later : List Config}
    (accepted : reloads lib active publications = some later) :
    KeepsIds (active :: later) ↔ NeverRepoints lib (active :: later) publications := by
  have actives := isActive.reloads accepted
  obtain ⟨members, tenants⟩ := isChain_reloads isActive accepted
  have steadyMembers := (steady_iff_isChain fun version member =>
    (actives version member).distinct.1).mpr members
  have steadyTenants := steady_iff_isChain fun version member =>
    (actives version member).distinct.2
  constructor
  · intro keeps
    exact tenants.mp (steadyTenants.mp keeps.tenants)
  · intro never
    exact ⟨steadyMembers, steadyTenants.mpr (tenants.mpr never)⟩

/-! ## Two versions -/

/-- A tenant's entry: its name and its id. -/
def tenantEntry (name : String) (id : UInt64) : Value :=
  mappingOf [("name", scalar name), ("id", .number (.posInt id))]

def oneTenantLines : String :=
  "  tenant:\n  - name: a\n    id: 1\n"

def twoTenantLines : String :=
  "  tenant:\n  - name: a\n    id: 1\n  - name: b\n    id: 2\n"

def otherTenantLines : String :=
  "  tenant:\n  - name: b\n    id: 1\n"

/-- A first version with one tenant, and a second with one more. -/
abbrev addedTenantVersions : List (Text × Value) :=
  onlyLeast 1 [("tenant", .sequence [tenantEntry "a" 1])] oneTenantLines ++
    onlyLeast 2 [("tenant", .sequence [tenantEntry "a" 1, tenantEntry "b" 2])] twoTenantLines

/-- A first version with one tenant, and a second in which its id names another. -/
abbrev otherTenantVersions : List (Text × Value) :=
  onlyLeast 1 [("tenant", .sequence [tenantEntry "a" 1])] oneTenantLines ++
    onlyLeast 2 [("tenant", .sequence [tenantEntry "b" 1])] otherTenantLines

/-- The publication of the least document of this version and these lines. -/
def publish (version : UInt64) (lines : String) : Publication :=
  ⟨utf8 (leastText version lines), leastIdentity, fun _ => none⟩

/-- The tenants of two versions, of which the second is reloaded onto the first. -/
theorem exists_reloads {known : List (Text × Value)} {lines lines' : String}
    {before after : List (Nat × Text)}
    (read : (reloadLeast known 1 lines 2 lines').toOption.map (fun found =>
      (tenantNames found.1, tenantNames found.2.1)) = some (before, after)) :
    ∃ active next, Active (readsAs known) active ∧
      load (readsAs known) (publish 2 lines').raw leastIdentity (fun _ => none) = .ok next ∧
        reloads (readsAs known) active [publish 2 lines'] = some [next] ∧
          tenantNames active = before ∧ tenantNames next = after := by
  obtain ⟨⟨active, next, plan⟩, isReloaded, names⟩ := Data.exists_ok_of_map read
  obtain ⟨isBefore, isAfter⟩ := Prod.mk.inj names
  obtain ⟨loaded, accepted⟩ := reloadLeast_eq_ok isReloaded
  refine ⟨active, next, .loaded loaded, (reload_accepted accepted).1, ?_, isBefore, isAfter⟩
  have accepted : reload (readsAs known) active (publish 2 lines').raw (publish 2 lines').identity
    (publish 2 lines').env = .ok (next, plan) := accepted
  simp only [reloads, accepted, Option.map_some]

set_option maxRecDepth 4000 in
theorem keepsIds_addedTenant : ∃ active next,
    Active (readsAs addedTenantVersions) active ∧
      reloads (readsAs addedTenantVersions) active [publish 2 twoTenantLines] = some [next] ∧
        tenantNames next = [(1, text "a"), (2, text "b")] ∧ KeepsIds [active, next] := by
  have read : (reloadLeast addedTenantVersions 1 oneTenantLines 2 twoTenantLines).toOption.map
      (fun found => (tenantNames found.1, tenantNames found.2.1)) =
        some ([(1, text "a")], [(1, text "a"), (2, text "b")]) := by
    rw [reloadLeast_eq
      (loadLeast_eq 1 _ oneTenantLines (find_first _ _ _ _ _ _) rfl (by decide +kernel))
      (loadLeast_eq 2 _ twoTenantLines (find_second (by decide +kernel)) rfl (by decide +kernel))]
    decide +kernel
  obtain ⟨active, next, isActive, loaded, accepted, before, after⟩ := exists_reloads read
  refine ⟨active, next, isActive, accepted, after, (keepsIds_iff isActive accepted).mpr ⟨?_, trivial⟩⟩
  apply (agrees_tenantNames_iff loaded).mp
  rw [before, after]
  decide

set_option maxRecDepth 4000 in
/-- A reload that lets a tenant's id name another tenant is accepted. -/
theorem not_keepsIds : ∃ active next,
    Active (readsAs otherTenantVersions) active ∧
      reloads (readsAs otherTenantVersions) active [publish 2 otherTenantLines] = some [next] ∧
        tenantNames active = [(1, text "a")] ∧ tenantNames next = [(1, text "b")] ∧
          ¬ KeepsIds [active, next] := by
  have read : (reloadLeast otherTenantVersions 1 oneTenantLines 2 otherTenantLines).toOption.map
      (fun found => (tenantNames found.1, tenantNames found.2.1)) =
        some ([(1, text "a")], [(1, text "b")]) := by
    rw [reloadLeast_eq
      (loadLeast_eq 1 _ oneTenantLines (find_first _ _ _ _ _ _) rfl (by decide +kernel))
      (loadLeast_eq 2 _ otherTenantLines (find_second (by decide +kernel)) rfl (by decide +kernel))]
    decide +kernel
  obtain ⟨active, next, isActive, -, accepted, before, after⟩ := exists_reloads read
  refine ⟨active, next, isActive, accepted, before, after, fun keeps => ?_⟩
  have same := keeps.tenants [active, next] List.infix_rfl 1 (by simp [before, after]) active
    (by simp) next (by simp) (text "a") (text "b") (by simp [before]) (by simp [after])
  exact absurd same (by decide)

end SipxClstr.Document
