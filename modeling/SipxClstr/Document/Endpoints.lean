import SipxClstr.Document.LogicalIds

/-!
# Zones and endpoints of the members

An entry is told from the others by what it writes.  Its zone is not looked up, and two spellings
of one address are two endpoints.
-/

namespace SipxClstr.Document

open SipxClstr.Sip Reading

variable {lib : Libraries}

/-! ## Addresses -/

/-- What a host is known by. -/
inductive HostId where
  | ip (address : Node.IpAddr)
  | name (labels : Text)
  deriving DecidableEq

/-- A literal is its address.  Of a name neither the case nor a trailing dot is a part. -/
def hostIdOf (host : Text) : HostId :=
  match Node.parseIpAddr host with
  | some address => .ip address
  | none => .name (stripTrailingDot (toAsciiLowercase host))

/-- The host and the port that a spelling denotes. -/
def denoted (spelling : Text) : Option (HostId × Option Nat) :=
  (Node.Advertised.parse spelling).toOption.map fun endpoint => (hostIdOf endpoint.host, endpoint.port)

/-- Two spellings of one address. -/
def SameEndpoint (first second : Text) : Prop :=
  ∃ address, denoted first = some address ∧ denoted second = some address

/-- Two endpoints, where both are written, that are not one address. -/
def Apart (first second : Option Text) : Prop :=
  ∀ rpc other, first = some rpc → second = some other → ¬ SameEndpoint rpc other

/-- A membership in which a peer that dials an owner reaches that owner. -/
structure WellFormed (config : Config) : Prop where
  node_ne_zero : ∀ member ∈ config.membership, member.node ≠ 0
  nodes : (config.membership.map MemberSpec.node).Nodup
  names : (config.membership.map MemberSpec.name).Nodup
  zones : ∀ member ∈ config.membership, member.zone ∈ config.zones
  callPath : ∀ member ∈ config.membership, member.rpc.isSome = member.roles.onCallPath
  endpoints : (config.membership.map MemberSpec.rpc).Pairwise Apart

/-- The zones the members write are among those the cluster lists. -/
def ZonesListed (document : Value) : Prop :=
  ∀ item ∈ sectionItems "membership" document, ∀ zone, writtenStr "zone" item = some zone →
    ∃ listed ∈ sectionItems "zones" document, listed.asStr = some zone

/-- No two members write one endpoint in two spellings. -/
def SpelledOnce (document : Value) : Prop :=
  (sectionItems "membership" document).Pairwise fun first second =>
    ∀ rpc other, writtenStr "rpc" first = some rpc → writtenStr "rpc" second = some other →
      rpc ≠ other → ¬ SameEndpoint rpc other

/-! ## What was read -/

theorem reads_readZone {path : Path} {index : Nat} {item : Value} {found : Option Text}
    (accepted : (readZone path index item).Reads found) :
    ∃ zone, found = some zone ∧ item.asStr = some zone := by
  unfold readZone at accepted
  split at accepted
  · next first rest spelled =>
      rw [reads_pure] at accepted
      exact ⟨_, accepted.symm, spelled⟩
  · simp at accepted

/-- The zones of an accepted document are those it lists. -/
theorem mem_zones_of_accepts {document : Value} {identity : NodeIdentity} {config : Config}
    {cluster : Mapping} {sections : ReadSections}
    (accepts : Accepts lib document identity config cluster sections) (zone : Text) :
    zone ∈ config.zones ↔
      ∃ listed ∈ sectionItems "zones" document, listed.asStr = some zone := by
  have read := accepts.sectionsRead.zones
  rw [accepts.fields.2.2]
  unfold readZones at read
  dsimp only at read
  split at read
  · simp at read
  · next value isValue =>
      split at read
      · simp at read
      · next items isItems =>
          simp only [reads_bind] at read
          rcases read with ⟨_, -, read⟩
          have listed : sectionItems "zones" document = items := by
            simp [sectionItems, accepts.isCluster, isValue, isItems]
          rw [listed, ← @mem_map_of_each Text Text _ _ _ Value.asStr id
            (fun _ _ _ _ isRead => reads_readZone isRead) read, List.map_id]

/-- The entries of the membership are those of its items. -/
theorem members_of_accepts {document : Value} {identity : NodeIdentity} {config : Config}
    {cluster : Mapping} {sections : ReadSections}
    (accepts : Accepts lib document identity config cluster sections) :
    (sectionItems "membership" document).map (writtenStr "zone") =
        config.membership.map (fun member => some member.zone) ∧
      (sectionItems "membership" document).map (writtenStr "rpc") =
        config.membership.map MemberSpec.rpc ∧
      ∀ member ∈ config.membership,
        member.node ≠ 0 ∧ member.rpc.isSome = member.roles.onCallPath := by
  have read := membership_of_accepts accepts
  refine ⟨map_of_each (fun _ _ _ _ isRead => ?_) read, map_of_each (fun _ _ _ _ isRead => ?_) read,
    (forall_of_each (fun _ _ _ _ isRead => ?_) read).2⟩
  · rcases reads_readMember isRead with ⟨member, isMember, reads⟩
    exact ⟨member, isMember, reads.zone⟩
  · rcases reads_readMember isRead with ⟨member, isMember, reads⟩
    exact ⟨member, isMember, reads.rpc⟩
  · rcases reads_readMember isRead with ⟨member, isMember, reads⟩
    exact ⟨member, isMember, reads.node_ne_zero, reads.callPath⟩

/-- No two members write one endpoint in one spelling. -/
theorem rpc_ne_of_accepts {document : Value} {identity : NodeIdentity} {config : Config}
    {cluster : Mapping} {sections : ReadSections}
    (accepts : Accepts lib document identity config cluster sections) :
    (config.membership.map MemberSpec.rpc).Pairwise fun first second =>
      second.isSome → first ≠ second := by
  rw [List.pairwise_map]
  refine pairwise_of_each (fun _ _ _ _ isRead => ?_) (membership_of_accepts accepts)
  rcases reads_readMember isRead with ⟨member, isMember, reads⟩
  exact ⟨member, isMember, reads.other_rpc⟩

theorem zones_iff {document : Value} {identity : NodeIdentity} {config : Config}
    {cluster : Mapping} {sections : ReadSections}
    (accepts : Accepts lib document identity config cluster sections) :
    (∀ member ∈ config.membership, member.zone ∈ config.zones) ↔ ZonesListed document := by
  rcases members_of_accepts accepts with ⟨zones, -, -⟩
  have written : ∀ zone, (∃ item ∈ sectionItems "membership" document,
      writtenStr "zone" item = some zone) ↔ ∃ member ∈ config.membership, member.zone = zone := by
    intro zone
    rw [← List.mem_map, zones, List.mem_map]
    simp
  constructor
  · intro listed item member zone isZone
    rcases (written zone).mp ⟨item, member, isZone⟩ with ⟨entry, isEntry, rfl⟩
    exact (mem_zones_of_accepts accepts _).mp (listed entry isEntry)
  · intro listed member isMember
    rcases (written member.zone).mpr ⟨member, isMember, rfl⟩ with ⟨item, isItem, isZone⟩
    exact (mem_zones_of_accepts accepts _).mpr (listed item isItem _ isZone)

theorem endpoints_iff {document : Value} {identity : NodeIdentity} {config : Config}
    {cluster : Mapping} {sections : ReadSections}
    (accepts : Accepts lib document identity config cluster sections) :
    (config.membership.map MemberSpec.rpc).Pairwise Apart ↔ SpelledOnce document := by
  rcases members_of_accepts accepts with ⟨-, rpcs, -⟩
  have differ := rpc_ne_of_accepts accepts
  have onRpcs : SpelledOnce document ↔ (config.membership.map MemberSpec.rpc).Pairwise
      fun first second => ∀ rpc other, first = some rpc → second = some other → rpc ≠ other →
        ¬ SameEndpoint rpc other := by
    rw [← rpcs, List.pairwise_map]
    rfl
  rw [onRpcs]
  constructor
  · intro apart
    exact apart.imp fun isApart rpc other isRpc isOther _ => isApart rpc other isRpc isOther
  · intro spelled
    apply List.Pairwise.imp _ (List.Pairwise.and differ spelled)
    rintro first second ⟨distinct, isApart⟩ rpc other rfl rfl
    apply isApart rpc other rfl rfl
    intro same
    exact distinct rfl (congrArg some same)

/-- A membership that is accepted is well-formed exactly where its zones are listed and no endpoint
has two spellings. -/
theorem wellFormed_iff (lib : Libraries) (raw : Bytes) (identity : NodeIdentity) (env : Env)
    (config : Config) (document : Value) (accepted : load lib raw identity env = .ok config)
    (isDocument : documentOf lib raw env = some document) :
    WellFormed config ↔ ZonesListed document ∧ SpelledOnce document := by
  rcases load_document accepted with ⟨found, cluster, sections, isFound, accepts⟩
  cases isDocument.symm.trans isFound
  rw [← zones_iff accepts, ← endpoints_iff accepts]
  constructor
  · intro wellFormed
    exact ⟨wellFormed.zones, wellFormed.endpoints⟩
  · rintro ⟨zones, endpoints⟩
    rcases members_of_accepts accepts with ⟨-, -, each⟩
    refine ⟨fun member isMember => (each member isMember).1, ?_, ?_, zones,
      fun member isMember => (each member isMember).2, endpoints⟩
    · have nodes := nodup_memberNames accepted
      rwa [memberNames, List.map_map] at nodes
    · exact nodup_names accepts

/-! ## Two memberships -/

/-- A registrar's entry. -/
def peer (node : UInt64) (name zone rpc : String) : Value :=
  mappingOf [("node", .number (.posInt node)), ("name", scalar name), ("zone", scalar zone),
    ("roles", .sequence [scalar "registrar"]), ("rpc", scalar rpc)]

/-- Two of one zone, on one host. -/
def twoPeers : List (String × Value) :=
  [("membership", .sequence [peer 1 "a" "z" "host:7000", peer 2 "b" "z" "HOST.:7001"])]

def twoPeersLines : String :=
  "  membership:\n  - node: 1\n    name: a\n    zone: z\n    roles: [registrar]\n    rpc: host:7000\n  - node: 2\n    name: b\n    zone: z\n    roles: [registrar]\n    rpc: HOST.:7001\n"

/-- The second of them is somewhere unheard of, and where the first is. -/
def samePeers : List (String × Value) :=
  [("membership", .sequence [peer 1 "a" "z" "host:7000", peer 2 "b" "y" "HOST.:7000"])]

def samePeersLines : String :=
  "  membership:\n  - node: 1\n    name: a\n    zone: z\n    roles: [registrar]\n    rpc: host:7000\n  - node: 2\n    name: b\n    zone: y\n    roles: [registrar]\n    rpc: HOST.:7000\n"

theorem denoted_host : denoted (text "host:7000") = some (.name (text "host"), some 7000) := by
  decide +kernel

theorem denoted_next_port :
    denoted (text "HOST.:7001") = some (.name (text "host"), some 7001) := by
  decide +kernel

set_option maxRecDepth 4000 in
/-- Two members of a zone of the cluster, whose endpoints differ in their ports. -/
theorem wellFormed_two : ∃ config,
    loadLeast (onlyLeast 1 twoPeers twoPeersLines) 1 twoPeersLines = .ok config ∧
      config.membership.length = 2 ∧ WellFormed config := by
  have read : (loadLeast (onlyLeast 1 twoPeers twoPeersLines) 1 twoPeersLines).toOption.map
      (fun config => config.membership.length) = some 2 := by
    rw [loadLeast, loadLeast_eq 1 _ twoPeersLines (find_onlyLeast _ _ _) rfl (by decide +kernel)]
    decide +kernel
  rcases Data.exists_ok_of_map read with ⟨config, accepted, both⟩
  have isDocument := @documentOf_leastText (fun _ => none) _ 1 twoPeers twoPeersLines _
    (find_onlyLeast _ _ _) rfl (by decide +kernel)
  have items : sectionItems "membership" (leastDocument 1 twoPeers) =
      [peer 1 "a" "z" "host:7000", peer 2 "b" "z" "HOST.:7001"] := rfl
  refine ⟨config, accepted, both,
    (wellFormed_iff _ _ _ _ config _ accepted isDocument).mpr ⟨?_, ?_⟩⟩
  · intro item member zone written
    have inZone : writtenStr "zone" item = some (text "z") := by
      rw [items, List.mem_pair] at member
      rcases member with rfl | rfl <;> rfl
    cases inZone.symm.trans written
    exact ⟨scalar "z", List.mem_singleton.mpr rfl, rfl⟩
  · rw [SpelledOnce, items, List.pairwise_pair]
    rintro rpc other isRpc isOther - ⟨place, atFirst, atSecond⟩
    have first : some (text "host:7000") = some rpc := isRpc
    have second : some (text "HOST.:7001") = some other := isOther
    cases first
    cases second
    rw [denoted_host] at atFirst
    rw [denoted_next_port] at atSecond
    exact absurd (atFirst.trans atSecond.symm) (by decide)

theorem denoted_upper_host :
    denoted (text "HOST.:7000") = some (.name (text "host"), some 7000) := by
  decide +kernel

set_option maxRecDepth 4000 in
/-- The second member is in no zone of the cluster, and a peer that dials it reaches the first. -/
theorem not_wellFormed : ∃ config,
    loadLeast (onlyLeast 1 samePeers samePeersLines) 1 samePeersLines = .ok config ∧
      ¬ (∀ member ∈ config.membership, member.zone ∈ config.zones) ∧
      ¬ (config.membership.map MemberSpec.rpc).Pairwise Apart ∧ ¬ WellFormed config := by
  have read : (loadLeast (onlyLeast 1 samePeers samePeersLines) 1 samePeersLines).toOption.map
      (fun config => (config.zones, config.membership.map MemberSpec.zone,
        config.membership.map MemberSpec.rpc)) =
      some ([text "z"], [text "z", text "y"], [some (text "host:7000"), some (text "HOST.:7000")])
      := by
    rw [loadLeast, loadLeast_eq 1 _ samePeersLines (find_onlyLeast _ _ _) rfl (by decide +kernel)]
    decide +kernel
  rcases Data.exists_ok_of_map read with ⟨config, accepted, same⟩
  rcases Prod.mk.inj same with ⟨zones, rest⟩
  rcases Prod.mk.inj rest with ⟨memberZones, endpoints⟩
  have unlisted : ¬ ∀ member ∈ config.membership, member.zone ∈ config.zones := by
    intro listed
    have written : text "y" ∈ config.membership.map MemberSpec.zone := by
      rw [memberZones]
      exact List.mem_cons_of_mem _ List.mem_cons_self
    rcases List.mem_map.mp written with ⟨member, isMember, isZone⟩
    have isListed := listed member isMember
    rw [isZone, zones, List.mem_singleton, text_inj] at isListed
    exact absurd isListed (by decide)
  have together : ¬ (config.membership.map MemberSpec.rpc).Pairwise Apart := by
    rw [endpoints, List.pairwise_pair]
    intro apart
    exact apart _ _ rfl rfl ⟨_, denoted_host, denoted_upper_host⟩
  exact ⟨config, accepted, unlisted, together, fun wellFormed => unlisted wellFormed.zones⟩

end SipxClstr.Document
