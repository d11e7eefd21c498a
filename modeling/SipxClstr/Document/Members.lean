import SipxClstr.Document.Accepted

/-!
# The members of an accepted document

An entry of a list is read beside the entries before it, so what it is checked against is every
earlier one.
-/

namespace SipxClstr.Document

open SipxClstr.Sip Reading

variable {lib : Libraries}

/-! ## Sequences -/

section Sequences

variable {α β : Type} {read : List α → Nat → Value → Reading (Option α)} {items : List Value}
  {values : List α}

/-- What each entry keeps to the ones before it holds of every two of them. -/
theorem pairwise_of_each {Apart : α → α → Prop}
    (fresh : ∀ held index item found, (read held index item).Reads found →
      ∃ value, found = some value ∧ ∀ other ∈ held, Apart other value)
    (accepted : (each read [] 0 items).Reads values) : values.Pairwise Apart := by
  have complete : ∀ held index item found, (read held index item).Reads found → found.isSome := by
    intro held index item found isRead
    rcases fresh held index item found isRead with ⟨value, rfl, -⟩
    rfl
  rcases reads_each complete accepted with ⟨length, -, placed⟩
  rw [List.length_nil, Nat.zero_add] at length
  rw [List.pairwise_iff_getElem]
  intro first second firstBound secondBound before
  rcases placed second items[second] (List.getElem?_eq_getElem (by omega)) with
    ⟨found, isFound, isRead⟩
  rcases fresh _ _ _ _ isRead with ⟨value, same, apart⟩
  cases same
  rw [List.length_nil, Nat.zero_add] at isFound apart
  rw [List.getElem?_eq_getElem secondBound] at isFound
  cases isFound
  exact apart _ (List.mem_take_iff_getElem.mpr ⟨first, by omega, rfl⟩)

/-- Entries that are each read with a key of their own have distinct keys. -/
theorem nodup_of_each {key : α → β}
    (fresh : ∀ held index item found, (read held index item).Reads found →
      ∃ value, found = some value ∧ ∀ other ∈ held, key other ≠ key value)
    (accepted : (each read [] 0 items).Reads values) : (values.map key).Nodup := by
  rw [List.nodup_iff_pairwise_ne, List.pairwise_map]
  exact pairwise_of_each fresh accepted

/-- What entries declare is what their items declare, in order. -/
theorem map_of_each {declares : Value → β} {view : α → β}
    (declared : ∀ held index item found, (read held index item).Reads found →
      ∃ value, found = some value ∧ declares item = view value)
    (accepted : (each read [] 0 items).Reads values) : items.map declares = values.map view := by
  have complete : ∀ held index item found, (read held index item).Reads found → found.isSome := by
    intro held index item found isRead
    rcases declared held index item found isRead with ⟨value, rfl, -⟩
    rfl
  rcases reads_each complete accepted with ⟨length, -, placed⟩
  rw [List.length_nil, Nat.zero_add] at length
  apply List.ext_getElem
  · rw [List.length_map, List.length_map, length]
  · intro place itemBound valueBound
    rw [List.length_map] at itemBound valueBound
    rcases placed place items[place] (List.getElem?_eq_getElem itemBound) with
      ⟨found, isFound, isRead⟩
    rcases declared _ _ _ _ isRead with ⟨value, same, isDeclared⟩
    cases same
    rw [List.length_nil, Nat.zero_add, List.getElem?_eq_getElem valueBound] at isFound
    cases isFound
    rw [List.getElem_map, List.getElem_map]
    exact isDeclared

/-- What some entry declares is what some item declares. -/
theorem mem_map_of_each {declares : Value → Option β} {view : α → β}
    (declared : ∀ held index item found, (read held index item).Reads found →
      ∃ value, found = some value ∧ declares item = some (view value))
    (accepted : (each read [] 0 items).Reads values) (seen : β) :
    seen ∈ values.map view ↔ ∃ item ∈ items, declares item = some seen := by
  have same : items.map declares = values.map (some ∘ view) := map_of_each declared accepted
  rw [← List.mem_map, same, ← List.map_map]
  simp

/-- Every item of an accepted sequence is read, and what each reading leaves holds of them all. -/
theorem forall_of_each {Holds : α → Prop}
    (holds : ∀ held index item found, (read held index item).Reads found →
      ∃ value, found = some value ∧ Holds value)
    (accepted : (each read [] 0 items).Reads values) :
    values.length = items.length ∧ ∀ value ∈ values, Holds value := by
  have complete : ∀ held index item found, (read held index item).Reads found → found.isSome := by
    intro held index item found isRead
    rcases holds held index item found isRead with ⟨value, rfl, -⟩
    rfl
  rcases reads_each complete accepted with ⟨length, -, placed⟩
  rw [List.length_nil, Nat.zero_add] at length
  constructor
  · exact length
  · intro value member
    rcases List.getElem_of_mem member with ⟨place, bound, rfl⟩
    rcases placed place items[place] (List.getElem?_eq_getElem (by omega)) with
      ⟨found, isFound, isRead⟩
    rcases holds _ _ _ _ isRead with ⟨value, same, holds⟩
    cases same
    rw [List.length_nil, Nat.zero_add, List.getElem?_eq_getElem bound] at isFound
    cases isFound
    exact holds

end Sequences

/-! ## Entries -/

theorem reads_readRpc {map : Mapping} {roles : Roles} {path : Path} {found : Option Text}
    (accepted : (readRpc map roles path).Reads found) :
    (map.get (text "rpc")).bind Value.asStr = found ∧ found.isSome = roles.onCallPath ∧
      ∀ rpc, found = some rpc → ∃ endpoint, Node.Advertised.parse rpc = .ok endpoint ∧
        endpoint.port.isSome := by
  unfold readRpc at accepted
  dsimp only at accepted
  cases written : map.get (text "rpc") with
  | none =>
      rw [written] at accepted
      cases owns : roles.onCallPath with
      | true => simp [owns] at accepted
      | false =>
          simp only [owns, Bool.false_eq_true, if_false, reads_pure] at accepted
          subst accepted
          simp
  | some value =>
      rw [written] at accepted
      cases owns : roles.onCallPath with
      | false => simp [owns] at accepted
      | true =>
          simp only [owns, Bool.not_true, Bool.false_eq_true, if_false] at accepted
          cases spelled : value.asStr with
          | none => simp [spelled] at accepted
          | some spelling =>
              simp only [spelled] at accepted
              split at accepted
              · next endpoint parsed =>
                  split at accepted
                  · next ported =>
                      rw [reads_pure] at accepted
                      subst accepted
                      refine ⟨by simp [spelled], rfl, ?_⟩
                      rintro rpc isRpc
                      cases isRpc
                      exact ⟨endpoint, parsed, ported⟩
                  · simp at accepted
              · simp at accepted

/-- The text an item writes under a key. -/
def writtenStr (name : String) (item : Value) : Option Text :=
  (item.asMapping.bind fun map => map.get (text name)).bind Value.asStr

/-- An entry of the membership that was read beside the ones before it. -/
structure ReadsMember (held : List MemberSpec) (item : Value) (member : MemberSpec) : Prop where
  zone : writtenStr "zone" item = some member.zone
  rpc : writtenStr "rpc" item = member.rpc
  node_ne_zero : member.node ≠ 0
  callPath : member.rpc.isSome = member.roles.onCallPath
  endpoint : ∀ rpc, member.rpc = some rpc → ∃ endpoint, Node.Advertised.parse rpc = .ok endpoint ∧
    endpoint.port.isSome
  node : ∀ other ∈ held, other.node ≠ member.node
  name : ∀ other ∈ held, other.name ≠ member.name
  other_rpc : ∀ other ∈ held, member.rpc.isSome → other.rpc ≠ member.rpc

theorem asStr_of_strOf {value : Value} {name : Text} (isName : strOf value = some name) :
    value.asStr = some name :=
  (Option.filter_eq_some_iff.mp isName).1

theorem checkMemberId_eq_nil {members : List MemberSpec} {node : Nat} {path : Path} :
    checkMemberId members node path = [] ↔ node ≠ 0 ∧ ∀ other ∈ members, other.node ≠ node := by
  unfold checkMemberId
  rw [List.append_eq_nil_iff]
  apply and_congr
  · split <;> simp_all
  · split
    · next held isHeld =>
        have same := List.find?_some isHeld
        have member := List.mem_of_find?_eq_some isHeld
        simp only [List.cons_ne_nil, false_iff]
        intro apart
        exact apart held member (of_decide_eq_true same)
    · next none => simpa using none

theorem checkMemberIsUnique_eq_nil {members : List MemberSpec} {name : Text} {rpc : Option Text}
    {path : Path} :
    checkMemberIsUnique members (some name) rpc path = [] ↔
      (∀ other ∈ members, other.name ≠ name) ∧
        ∀ other ∈ members, rpc.isSome → other.rpc ≠ rpc := by
  unfold checkMemberIsUnique
  rw [List.append_eq_nil_iff]
  apply and_congr
  · cases found : members.find? fun member => member.name = name with
    | none => simpa [found] using List.find?_eq_none.mp found
    | some held =>
        have same := List.find?_some found
        have member := List.mem_of_find?_eq_some found
        simp only [Option.bind_some, found, Option.map_some, List.cons_ne_nil, false_iff]
        intro apart
        exact apart held member (of_decide_eq_true same)
  · cases rpc with
    | none => simp
    | some rpc =>
        cases found : members.find? fun member => member.rpc = some rpc with
        | none => simpa [found] using List.find?_eq_none.mp found
        | some held =>
            have same := List.find?_some found
            have member := List.mem_of_find?_eq_some found
            simp only [Option.bind_some, found, Option.map_some, List.cons_ne_nil, false_iff]
            intro apart
            exact apart held member rfl (of_decide_eq_true same)

theorem reads_readMember {path : Path} {held : List MemberSpec} {index : Nat} {item : Value}
    {found : Option MemberSpec} (accepted : (readMember lib path held index item).Reads found) :
    ∃ member, found = some member ∧ ReadsMember held item member := by
  unfold readMember at accepted
  rw [reads_bind] at accepted
  rcases accepted with ⟨_, asked, accepted⟩
  rcases reads_asMapping.mp asked with ⟨map, isMapping, rfl⟩
  simp only [reads_bind, reads_requiredUint, reads_requiredStr] at accepted
  rcases accepted with ⟨_, -, _, -, _, ⟨node, isNode, rfl⟩, _, ⟨name, isName, rfl⟩, _,
    ⟨zone, isZone, rfl⟩, roles, -, _, -, rpc, isRpc, _, -, accepted⟩
  simp only [reads_bind, reads_report, reads_pure, checkMemberId_eq_nil,
    checkMemberIsUnique_eq_nil] at accepted
  rcases accepted with ⟨_, ⟨positive, ownNode⟩, _, ⟨ownName, ownRpc⟩, rfl⟩
  rcases reads_readRpc isRpc with ⟨written, callPath, endpoint⟩
  refine ⟨_, rfl, ?_, ?_, positive, callPath, endpoint, ownNode, ownName, ownRpc⟩
  · rcases Option.bind_eq_some_iff.mp isZone with ⟨value, isValue, isZone⟩
    simp only [writtenStr, isMapping, Option.bind_some, isValue, asStr_of_strOf isZone]
  · simp only [writtenStr, isMapping, Option.bind_some]
    exact written

/-- The items of a section that is a list. -/
def sectionItems (name : String) (document : Value) : List Value :=
  (((clusterOf document).bind fun cluster => cluster.get (text name)).bind
    Value.asSequence).getD []

/-- The members of an accepted document are read from the items of its membership. -/
theorem membership_of_accepts {document : Value} {identity : NodeIdentity} {config : Config}
    {cluster : Mapping} {sections : ReadSections}
    (accepts : Accepts lib document identity config cluster sections) :
    (each (readMember lib (clusterPath.field (text "membership"))) [] 0
      (sectionItems "membership" document)).Reads config.membership := by
  have read := accepts.sectionsRead.membership
  rw [accepts.fields.2.2]
  unfold readMembership at read
  dsimp only at read
  split at read
  · next absent =>
      rw [← reads_pure.mp read]
      simp [sectionItems, accepts.isCluster, absent, each]
  · next value isValue =>
      split at read
      · simp at read
      · next items isItems =>
          have declared : sectionItems "membership" document = items := by
            simp [sectionItems, accepts.isCluster, isValue, isItems]
          rw [declared]
          exact read

/-- The names of the members of an accepted document are distinct. -/
theorem nodup_names {document : Value} {identity : NodeIdentity} {config : Config}
    {cluster : Mapping} {sections : ReadSections}
    (accepts : Accepts lib document identity config cluster sections) :
    (config.membership.map MemberSpec.name).Nodup := by
  refine nodup_of_each (fun _ _ _ _ isRead => ?_) (membership_of_accepts accepts)
  rcases reads_readMember isRead with ⟨member, isMember, reads⟩
  exact ⟨member, isMember, reads.name⟩

end SipxClstr.Document
