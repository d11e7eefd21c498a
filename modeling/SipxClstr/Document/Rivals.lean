import SipxClstr.Document.Repeats

/-!
# Who is compared with whom

For each list of the document, what its entries are compared by, which of them are kept for those
after them, and which are read as far as the comparison.
-/

namespace SipxClstr.Document

open SipxClstr.Sip Reading

variable {lib : Libraries}

/-! ## Members -/

/-- A host and a port. -/
def endpointOf (value : Value) : Option Text :=
  value.asStr.filter fun spelling =>
    (Node.Advertised.parse spelling).toOption.any fun endpoint => endpoint.port.isSome

/-- The endpoint of a member, which the roles must ask for. -/
def rpcRead (map : Mapping) (roles : Roles) : Option Text :=
  if roles.onCallPath then (map.get (text "rpc")).bind endpointOf else none

def memberOf (item : Value) : Option MemberSpec := do
  let map ← item.asMapping
  let node ← (map.get (text "node")).bind (uintOf u16Max)
  let name ← (map.get (text "name")).bind strOf
  let zone ← (map.get (text "zone")).bind strOf
  let roles := rolesRead (map.get (text "roles"))
  let (source, reference) := (readIncarnation map .root).value
  some ⟨node, name, zone, roles, rpcRead map roles, source, reference⟩

theorem readRpc_eq {map : Mapping} {roles : Roles} {path : Path} :
    (readRpc map roles path).value = rpcRead map roles ∧
      ((rpcRead map roles).isSome → (readRpc map roles path).errors = []) := by
  unfold readRpc rpcRead endpointOf
  dsimp only
  cases map.get (text "rpc") with
  | none => cases roles.onCallPath <;> simp
  | some value =>
      cases roles.onCallPath with
      | false => simp
      | true =>
          dsimp only [Option.bind_some, Bool.not_true]
          cases value.asStr with
          | none => simp [Option.filter]
          | some spelling =>
              dsimp only
              cases parsed : Node.Advertised.parse spelling with
              | error why => simp [parsed, Except.toOption, Option.filter]
              | ok endpoint =>
                  cases ported : endpoint.port.isSome with
                  | false => simp [parsed, Except.toOption, Option.filter, ported]
                  | true => simp [parsed, Except.toOption, Option.filter, ported]

theorem value_readIncarnation {map : Mapping} {path : Path} :
    (readIncarnation map path).value = (readIncarnation map .root).value := by
  unfold readIncarnation
  split
  · rfl
  · split <;> rfl

theorem value_readMember {path : Path} {held : List MemberSpec} {index : Nat} {item : Value} :
    (readMember lib path held index item).value = memberOf item := by
  unfold readMember memberOf
  rw [value_bind]
  unfold asMapping
  cases item.asMapping with
  | none => rfl
  | some map =>
      simp only [value_pure, value_bind, value_requiredUint, value_requiredStr, value_readRoles,
        readRpc_eq.1, @value_readIncarnation map (path.index index), Option.bind_eq_bind,
        Option.bind_some]
      cases (map.get (text "node")).bind (uintOf u16Max) with
      | none => rfl
      | some node =>
          cases (map.get (text "name")).bind strOf with
          | none => rfl
          | some name => cases (map.get (text "zone")).bind strOf <;> rfl

section Members

variable {path : Path} {held : List MemberSpec} {index : Nat} {item : Value} {map : Mapping}

/-- The faults of an entry that are of other entries. -/
theorem mem_errors_readMember (isMapping : item.asMapping = some map) {here : Path} {rule : String}
    {found : Option Text} {expected : Text}
    (foreign : rule ∉ ["CC-D3", "CC-V2", "CC-I1", "CC-R1", "CC-R2", "CC-R4", "CC-R6", "CC-MB8"])
    (endpoint : .new here rule found expected ∉
      (readRpc map (rolesRead (map.get (text "roles"))) (path.index index)).errors) :
    .new here rule found expected ∈ (readMember lib path held index item).errors ↔
      ∃ node, (map.get (text "node")).bind (uintOf u16Max) = some node ∧
        (.new here rule found expected ∈ checkMemberId held node (path.index index) ∨
          .new here rule found expected ∈ checkMemberIsUnique held
            ((map.get (text "name")).bind strOf) (rpcRead map (rolesRead (map.get (text "roles"))))
            (path.index index)) := by
  have apart : ∀ {errors : List ConfigError}, Within .root
      ["CC-D3", "CC-V2", "CC-I1", "CC-R1", "CC-R2", "CC-R4", "CC-R6", "CC-MB8"] errors →
      .new here rule found expected ∉ errors :=
    fun within => within.not_mem foreign
  have unknown : .new here rule found expected ∉
      (closedWorld lib map memberKeys (path.index index)).errors :=
    apart (within_closedWorld Path.covers_root (by simp))
  have node : .new here rule found expected ∉
      (requiredUint map (text "node") (path.index index) "CC-I1" u16Max).errors :=
    apart (within_requiredUint Path.covers_root (by simp))
  have names : ∀ {key}, .new here rule found expected ∉
      (requiredStr map key (path.index index) "CC-I1").errors :=
    apart (within_requiredStr Path.covers_root (by simp))
  have roles : ∀ {written below}, .new here rule found expected ∉ (readRoles written below).errors :=
    apart (within_readRoles Path.covers_root (by simp))
  have combined : ∀ {roles below},
      .new here rule found expected ∉ (checkRoleCombination roles below).errors :=
    apart (within_checkRoleCombination Path.covers_root (by simp))
  have incarnation : .new here rule found expected ∉ (readIncarnation map (path.index index)).errors :=
    apart (within_readIncarnation Path.covers_root (by simp))
  unfold readMember asMapping
  rw [isMapping]
  simp only [errors_bind, errors_pure, errors_ignore, value_pure, List.mem_append, List.not_mem_nil,
    false_or, value_requiredUint, value_requiredStr, value_readRoles, readRpc_eq.1, unknown, node,
    names, roles, combined, incarnation, endpoint]
  cases (map.get (text "node")).bind (uintOf u16Max) with
  | none => simp
  | some node =>
      simp only [errors_bind, errors_report, List.mem_append, Option.some.injEq, exists_eq_left']
      cases (map.get (text "name")).bind strOf with
      | none => simp
      | some name => cases (map.get (text "zone")).bind strOf <;> simp

/-- Whether an entry has all that a member must have. -/
def isMember (item : Value) : Bool :=
  (writtenUint u16Max "node" item).isSome && (writtenName "name" item).isSome &&
    (writtenName "zone" item).isSome

/-- Whether an entry's roles put it on the call path. -/
def isOnCallPath (item : Value) : Bool :=
  (rolesRead (item.asMapping.bind fun map => map.get (text "roles"))).onCallPath

def memberNode : Distinction Nat where
  field := "node"
  rule := "CC-I2"
  written := writtenUint u16Max "node"
  shown := decimal
  clashes := fun held value => held = value
  reaches := fun _ => true
  keeps := isMember
  opening := "an id not already held by \""
  closing := "\""

def memberName : Distinction Text where
  field := "name"
  rule := "CC-MB4"
  written := writtenName "name"
  shown := id
  clashes := fun held value => held = value
  reaches := fun item => (writtenUint u16Max "node" item).isSome
  keeps := isMember
  opening := "a name not already held by node "
  closing := ""

def memberRpc : Distinction Text where
  field := "rpc"
  rule := "CC-MB6"
  written := fun item => (item.asMapping.bind fun map => map.get (text "rpc")).bind endpointOf
  shown := id
  clashes := fun held value => held = value
  reaches := fun item => (writtenUint u16Max "node" item).isSome && isOnCallPath item
  keeps := fun item => isMember item && isOnCallPath item
  opening := "an endpoint not already advertised by \""
  closing := "\""

theorem memberOf_eq_some {member : MemberSpec} (isMember : memberOf item = some member) :
    writtenUint u16Max "node" item = some member.node ∧
      writtenName "name" item = some member.name ∧
      member.rpc = if isOnCallPath item then memberRpc.written item else none := by
  rcases Option.bind_eq_some_iff.mp isMember with ⟨map, isMapping, isMember⟩
  rcases Option.bind_eq_some_iff.mp isMember with ⟨node, isNode, isMember⟩
  rcases Option.bind_eq_some_iff.mp isMember with ⟨name, isName, isMember⟩
  rcases Option.bind_eq_some_iff.mp isMember with ⟨zone, -, same⟩
  cases same
  simp only [writtenUint, writtenName, isOnCallPath, memberRpc, isMapping, Option.bind_some, isNode,
    isName, rpcRead, true_and]

theorem isSome_memberOf : (memberOf item).isSome = isMember item := by
  unfold memberOf isMember writtenUint writtenName
  cases item.asMapping with
  | none => rfl
  | some map =>
      simp only [Option.bind_eq_bind, Option.bind_some]
      cases (map.get (text "node")).bind (uintOf u16Max) with
      | none => rfl
      | some node =>
          cases (map.get (text "name")).bind strOf with
          | none => rfl
          | some name => cases (map.get (text "zone")).bind strOf <;> rfl

theorem exists_fault_checkMemberId {value : Nat} :
    (∃ holder, memberNode.fault path value holder ∈ checkMemberId held value path) ↔
      ∃ other ∈ held, decide (other.node = value) = true := by
  apply @Distinction.exists_fault_iff _ _ _ _ _ MemberSpec.name
  · intro absent holder reported
    rw [checkMemberId, absent, List.append_nil] at reported
    split at reported
    · rw [List.mem_singleton] at reported
      simp [Distinction.fault, memberNode, ConfigError.new, text] at reported
    · contradiction
  · intro other found
    rw [checkMemberId, found]
    exact List.mem_append_right _ (List.mem_singleton.mpr rfl)

theorem exists_fault_name {value : Text} {rpc : Option Text} :
    (∃ holder, memberName.fault path value holder ∈
      checkMemberIsUnique held (some value) rpc path) ↔
      ∃ other ∈ held, decide (other.name = value) = true := by
  apply @Distinction.exists_fault_iff _ _ _ _ _ fun other => decimal other.node
  · intro absent holder reported
    simp only [checkMemberIsUnique, Option.bind_some, absent, Option.map_none,
      List.nil_append] at reported
    split at reported
    · rw [List.mem_singleton] at reported
      simp [Distinction.fault, memberName, ConfigError.new, text_inj] at reported
    · contradiction
  · intro other found
    simp only [checkMemberIsUnique, Option.bind_some, found, Option.map_some]
    apply List.mem_append_left
    simp [Distinction.fault, memberName, text]

theorem exists_fault_rpc {name : Option Text} {value : Text} :
    (∃ holder, memberRpc.fault path value holder ∈
      checkMemberIsUnique held name (some value) path) ↔
      ∃ other ∈ held, decide (other.rpc = some value) = true := by
  apply @Distinction.exists_fault_iff _ _ _ _ _ MemberSpec.name
  · intro absent holder reported
    simp only [checkMemberIsUnique, Option.bind_some, absent, Option.map_none,
      List.append_nil] at reported
    split at reported
    · rw [List.mem_singleton] at reported
      simp [Distinction.fault, memberRpc, ConfigError.new, text_inj] at reported
    · contradiction
  · intro other found
    simp only [checkMemberIsUnique, Option.bind_some, found, Option.map_some]
    exact List.mem_append_right _ (List.mem_singleton.mpr rfl)

theorem reports_memberNode {items : List Value} :
    memberNode.Reports (each (readMember lib path) [] 0 items).errors path items := by
  apply @Distinction.reports_of_each _ _ _ _ memberOf fun member => some member.node
  · exact fun _ _ _ => value_readMember
  · exact fun _ _ _ => within_readMember
  · exact Distinction.viewed_of_kept @isSome_memberOf fun _ _ isMember => (memberOf_eq_some isMember).1
  · intro held place item value written
    rcases asMapping_of_written written with ⟨map, isMapping, isNode⟩
    have reported : ∀ holder, memberNode.fault (path.index place) value holder ∈
        (readMember lib path held place item).errors ↔ _ := fun holder =>
      mem_errors_readMember isMapping (by simp [memberNode])
        (Within.not_mem (within_readRpc Path.covers_self (List.Subset.refl _)) (by simp [memberNode]))
    have other : ∀ holder name rpc, memberNode.fault (path.index place) value holder ∉
        checkMemberIsUnique held name rpc (path.index place) := fun holder name rpc =>
      within_checkMemberIsUnique.not_mem (by simp [memberNode])
    unfold Distinction.fault at other
    simp only [Distinction.Reported, reported, isNode, Option.some.injEq, exists_eq_left', other,
      or_false]
    apply exists_fault_checkMemberId.trans
    simp [memberNode]

theorem reports_memberName {items : List Value} :
    memberName.Reports (each (readMember lib path) [] 0 items).errors path items := by
  apply @Distinction.reports_of_each _ _ _ _ memberOf fun member => some member.name
  · exact fun _ _ _ => value_readMember
  · exact fun _ _ _ => within_readMember
  · exact Distinction.viewed_of_kept @isSome_memberOf fun _ _ isMember =>
      (memberOf_eq_some isMember).2.1
  · intro held place item value written
    rcases asMapping_of_written written with ⟨map, isMapping, isName⟩
    have reported : ∀ holder, memberName.fault (path.index place) value holder ∈
        (readMember lib path held place item).errors ↔ _ := fun holder =>
      mem_errors_readMember isMapping (by simp [memberName])
        (Within.not_mem (within_readRpc Path.covers_self (List.Subset.refl _)) (by simp [memberName]))
    have other : ∀ holder node, memberName.fault (path.index place) value holder ∉
        checkMemberId held node (path.index place) := fun holder node =>
      within_checkMemberId.not_mem (by simp [memberName])
    unfold Distinction.fault at other
    simp only [Distinction.Reported, reported, isName, other, false_or, exists_and_right,
      exists_and_left]
    apply and_congr
    · simp [memberName, writtenUint, isMapping, Option.isSome_iff_exists]
    · apply exists_fault_name.trans
      simp [memberName]

/-- Where an endpoint is one, nothing is wrong with it but that it is there. -/
theorem not_mem_errors_readRpc {value : Text} {roles : Roles} {here : Path} {found : Option Text}
    {expected : Text} (isRpc : (map.get (text "rpc")).bind endpointOf = some value) :
    .new here "CC-MB6" found expected ∉ (readRpc map roles path).errors := by
  cases onPath : roles.onCallPath with
  | true =>
      have read : (rpcRead map roles).isSome := by
        rw [rpcRead, if_pos onPath, isRpc, Option.isSome_some]
      rw [readRpc_eq.2 read]
      exact List.not_mem_nil
  | false =>
      rcases Option.bind_eq_some_iff.mp isRpc with ⟨written, isWritten, -⟩
      unfold readRpc
      rw [isWritten]
      simp [onPath, ConfigError.new, text_inj]

theorem reports_memberRpc {items : List Value} :
    memberRpc.Reports (each (readMember lib path) [] 0 items).errors path items := by
  apply @Distinction.reports_of_each _ _ _ _ memberOf MemberSpec.rpc
  · exact fun _ _ _ => value_readMember
  · exact fun _ _ _ => within_readMember
  · intro item value
    rw [← Distinction.viewed_of_kept @isSome_memberOf fun _ _ isMember =>
      (memberOf_eq_some isMember).2.2.symm]
    cases onPath : isOnCallPath item <;> simp [memberRpc, onPath]
  · intro held place item value written
    rcases asMapping_of_written written with ⟨map, isMapping, isRpc⟩
    have reported : ∀ holder, memberRpc.fault (path.index place) value holder ∈
        (readMember lib path held place item).errors ↔ _ := fun holder =>
      mem_errors_readMember isMapping (by simp [memberRpc]) (not_mem_errors_readRpc isRpc)
    have other : ∀ holder node, memberRpc.fault (path.index place) value holder ∉
        checkMemberId held node (path.index place) := fun holder node =>
      within_checkMemberId.not_mem (by simp [memberRpc])
    have isPath : isOnCallPath item = (rolesRead (map.get (text "roles"))).onCallPath := by
      rw [isOnCallPath, isMapping, Option.bind_some]
    unfold Distinction.fault at other
    simp only [Distinction.Reported, reported, other, false_or, exists_and_right, exists_and_left,
      rpcRead, isRpc, ← isPath]
    cases onPath : isOnCallPath item with
    | true =>
        apply and_congr
        · simp [memberRpc, writtenUint, isMapping, Option.isSome_iff_exists, onPath]
        · apply exists_fault_rpc.trans
          simp [memberRpc]
    | false =>
        constructor
        · rintro ⟨-, holder, reported⟩
          rw [if_neg Bool.false_ne_true, checkMemberIsUnique] at reported
          simp only [Option.bind_none, List.append_nil] at reported
          split at reported
          · rw [List.mem_singleton] at reported
            simp [memberRpc, ConfigError.new, text_inj] at reported
          · contradiction
        · simp [memberRpc, onPath]

end Members

/-! ## Tenants -/

section Tenants

variable {path : Path} {held : List TenantSpec} {index : Nat} {item : Value} {map : Mapping}

def tenantOf (lib : Libraries) (item : Value) : Option TenantSpec := do
  let map ← item.asMapping
  let id ← (map.get (text "id")).bind (uintOf u32Max)
  let name ← (map.get (text "name")).bind strOf
  some ⟨name, id, readDomains map, (readTenantPolicy lib map .root).value,
    (readAuth lib map .root).value⟩

theorem value_readAuth : (readAuth lib map path).value = (readAuth lib map .root).value := by
  unfold readAuth readAuthOf asMapping
  dsimp only
  cases map.get (text "auth") with
  | none => rfl
  | some value =>
      simp only [value_bind]
      cases value.asMapping with
      | none => rfl
      | some block =>
          simp only [value_pure, value_bind]
          split
          · rfl
          · simp only [value_bind, value_requiredStr]
            split
            · rfl
            · split <;> rfl

theorem value_readExpiry {block : Mapping} {key : Text} {here : Path} {default : Nat} :
    (readExpiry block key here default).value = (readExpiry block key .root default).value := by
  unfold readExpiry
  split
  · rfl
  · split
    · rfl
    · split <;> rfl

theorem value_readQuota {default : Nat} :
    (readQuota map path default).value = (readQuota map .root default).value := by
  unfold readQuota
  dsimp only
  split
  · rfl
  · split <;> rfl

theorem value_readExpiryBlock {block : Mapping} {here : Path} {policy : TenantPolicySpec} :
    (readExpiryBlock lib block here policy).value =
      (readExpiryBlock lib block .root policy).value := by
  simp only [readExpiryBlock, value_bind, value_pure, @value_readExpiry block _ here]

theorem value_readTenantPolicy :
    (readTenantPolicy lib map path).value = (readTenantPolicy lib map .root).value := by
  unfold readTenantPolicy asMapping
  simp only [value_bind, @value_readQuota path map]
  cases map.get (text "expiry") with
  | none => rfl
  | some value =>
      simp only [value_bind]
      cases value.asMapping with
      | none => rfl
      | some block => exact value_readExpiryBlock.trans value_readExpiryBlock.symm

theorem value_readTenant : (readTenant lib path held index item).value = tenantOf lib item := by
  unfold readTenant tenantOf asMapping
  rw [value_bind]
  cases item.asMapping with
  | none => rfl
  | some map =>
      simp only [value_pure, value_bind, value_requiredUint, value_requiredStr,
        @value_readAuth lib (path.index index), @value_readTenantPolicy lib (path.index index),
        Option.bind_eq_bind, Option.bind_some]
      cases (map.get (text "id")).bind (uintOf u32Max) with
      | none => rfl
      | some id => cases (map.get (text "name")).bind strOf <;> rfl

/-- The faults of an entry that are of other entries. -/
theorem mem_errors_readTenant (isMapping : item.asMapping = some map) {here : Path} {rule : String}
    {found : Option Text} {expected : Text}
    (foreign : rule ∉ ["CC-D3", "CC-V2", "CC-I1", "CC-V9", "CC-RA-A3", "CC-S2"]) :
    .new here rule found expected ∈ (readTenant lib path held index item).errors ↔
      ∃ id, (map.get (text "id")).bind (uintOf u32Max) = some id ∧
        (.new here rule found expected ∈ checkTenantId held id (path.index index) ∨
          ∃ name, (map.get (text "name")).bind strOf = some name ∧
            .new here rule found expected ∈ checkTenantName held name (path.index index)) := by
  have apart : ∀ {errors : List ConfigError}, Within .root
      ["CC-D3", "CC-V2", "CC-I1", "CC-V9", "CC-RA-A3", "CC-S2"] errors →
      .new here rule found expected ∉ errors :=
    fun within => within.not_mem foreign
  have unknown : .new here rule found expected ∉
      (closedWorld lib map tenantKeys (path.index index)).errors :=
    apart (within_closedWorld Path.covers_root (by simp))
  have name : .new here rule found expected ∉
      (requiredStr map (text "name") (path.index index) "CC-I1").errors :=
    apart (within_requiredStr Path.covers_root (by simp))
  have id : .new here rule found expected ∉
      (requiredUint map (text "id") (path.index index) "CC-I1" u32Max).errors :=
    apart (within_requiredUint Path.covers_root (by simp))
  have auth : .new here rule found expected ∉ (readAuth lib map (path.index index)).errors :=
    apart (within_readAuth Path.covers_root (by simp))
  have policy : .new here rule found expected ∉
      (readTenantPolicy lib map (path.index index)).errors :=
    apart (within_readTenantPolicy Path.covers_root (by simp))
  unfold readTenant asMapping
  rw [isMapping]
  simp only [errors_bind, errors_pure, value_pure, List.mem_append, List.not_mem_nil, false_or,
    value_requiredUint, value_requiredStr, unknown, name, id, auth, policy]
  cases (map.get (text "id")).bind (uintOf u32Max) with
  | none => simp
  | some id =>
      simp only [errors_bind, errors_report, List.mem_append, Option.some.injEq, exists_eq_left']
      cases (map.get (text "name")).bind strOf <;> simp

/-- Whether an entry has all that a tenant must have. -/
def isTenant (item : Value) : Bool :=
  (writtenUint u32Max "id" item).isSome && (writtenName "name" item).isSome

def tenantId : Distinction Nat where
  field := "id"
  rule := "CC-I2"
  written := writtenUint u32Max "id"
  shown := decimal
  clashes := fun held value => held = value
  reaches := fun _ => true
  keeps := isTenant
  opening := "an id not already held by \""
  closing := "\""

def tenantName : Distinction Text where
  field := "name"
  rule := "CC-I2"
  written := writtenName "name"
  shown := id
  clashes := fun held value => held = value
  reaches := fun item => (writtenUint u32Max "id" item).isSome
  keeps := isTenant
  opening := "a name not already held by id "
  closing := ""

theorem tenantOf_eq_some {tenant : TenantSpec} (isTenant : tenantOf lib item = some tenant) :
    writtenUint u32Max "id" item = some tenant.id ∧
      writtenName "name" item = some tenant.name := by
  rcases Option.bind_eq_some_iff.mp isTenant with ⟨map, isMapping, isTenant⟩
  rcases Option.bind_eq_some_iff.mp isTenant with ⟨id, isId, isTenant⟩
  rcases Option.bind_eq_some_iff.mp isTenant with ⟨name, isName, same⟩
  cases same
  simp only [writtenUint, writtenName, isMapping, Option.bind_some, isId, isName, and_self]

theorem isSome_tenantOf : (tenantOf lib item).isSome = isTenant item := by
  unfold tenantOf isTenant writtenUint writtenName
  cases item.asMapping with
  | none => rfl
  | some map =>
      simp only [Option.bind_eq_bind, Option.bind_some]
      cases (map.get (text "id")).bind (uintOf u32Max) with
      | none => rfl
      | some id => cases (map.get (text "name")).bind strOf <;> rfl

theorem exists_fault_checkTenantId {value : Nat} :
    (∃ holder, tenantId.fault path value holder ∈ checkTenantId held value path) ↔
      ∃ other ∈ held, decide (other.id = value) = true := by
  apply @Distinction.exists_fault_iff _ _ _ _ _ TenantSpec.name
  · intro absent holder reported
    rw [checkTenantId, absent, List.append_nil] at reported
    split at reported
    · rw [List.mem_singleton] at reported
      simp [Distinction.fault, tenantId, ConfigError.new, text] at reported
    · contradiction
  · intro other found
    rw [checkTenantId, found]
    exact List.mem_append_right _ (List.mem_singleton.mpr rfl)

theorem exists_fault_checkTenantName {value : Text} :
    (∃ holder, tenantName.fault path value holder ∈ checkTenantName held value path) ↔
      ∃ other ∈ held, decide (other.name = value) = true := by
  apply @Distinction.exists_fault_iff _ _ _ _ _ fun other => decimal other.id
  · intro absent holder reported
    rw [checkTenantName, absent] at reported
    contradiction
  · intro other found
    rw [checkTenantName, found]
    simp [Distinction.fault, tenantName, text]

theorem reports_tenantId {items : List Value} :
    tenantId.Reports (each (readTenant lib path) [] 0 items).errors path items := by
  apply @Distinction.reports_of_each _ _ _ _ (tenantOf lib) fun tenant => some tenant.id
  · exact fun _ _ _ => value_readTenant
  · exact fun _ _ _ => within_readTenant
  · exact Distinction.viewed_of_kept (@isSome_tenantOf lib) fun _ _ isTenant => (tenantOf_eq_some isTenant).1
  · intro held place item value written
    rcases asMapping_of_written written with ⟨map, isMapping, isId⟩
    have reported : ∀ holder, tenantId.fault (path.index place) value holder ∈
        (readTenant lib path held place item).errors ↔ _ := fun holder =>
      mem_errors_readTenant isMapping (by simp [tenantId])
    have other : ∀ holder name, tenantId.fault (path.index place) value holder ∉
        checkTenantName held name (path.index place) := by
      intro holder name reported
      unfold checkTenantName at reported
      split at reported
      · rw [List.mem_singleton] at reported
        have same := congrArg ConfigError.path reported
        simp [Distinction.fault, tenantId, ConfigError.new, Path.field_inj, text_inj] at same
      · contradiction
    unfold Distinction.fault at other
    simp only [Distinction.Reported, reported, isId, Option.some.injEq, exists_eq_left', other,
      and_false, exists_false, or_false]
    apply exists_fault_checkTenantId.trans
    simp [tenantId]

theorem reports_tenantName {items : List Value} :
    tenantName.Reports (each (readTenant lib path) [] 0 items).errors path items := by
  apply @Distinction.reports_of_each _ _ _ _ (tenantOf lib) fun tenant => some tenant.name
  · exact fun _ _ _ => value_readTenant
  · exact fun _ _ _ => within_readTenant
  · exact Distinction.viewed_of_kept (@isSome_tenantOf lib) fun _ _ isTenant => (tenantOf_eq_some isTenant).2
  · intro held place item value written
    rcases asMapping_of_written written with ⟨map, isMapping, isName⟩
    have reported : ∀ holder, tenantName.fault (path.index place) value holder ∈
        (readTenant lib path held place item).errors ↔ _ := fun holder =>
      mem_errors_readTenant isMapping (by simp [tenantName])
    have other : ∀ holder id, tenantName.fault (path.index place) value holder ∉
        checkTenantId held id (path.index place) := by
      intro holder id reported
      rcases List.mem_append.mp reported with reported | reported
      all_goals split at reported
      · have same := congrArg ConfigError.path (List.mem_singleton.mp reported)
        simp [Distinction.fault, tenantName, ConfigError.new, Path.field_inj, text_inj] at same
      · contradiction
      · have same := congrArg ConfigError.path (List.mem_singleton.mp reported)
        simp [Distinction.fault, tenantName, ConfigError.new, Path.field_inj, text_inj] at same
      · contradiction
    unfold Distinction.fault at other
    simp only [Distinction.Reported, reported, isName, other, false_or, exists_and_right,
      exists_and_left, Option.some.injEq, exists_eq_left']
    apply and_congr
    · simp [tenantName, writtenUint, isMapping, Option.isSome_iff_exists]
    · apply exists_fault_checkTenantName.trans
      simp [tenantName]

end Tenants

/-! ## Keys -/

section Keys

variable {path here : Path} {held : List KeySpec} {index : Nat} {item : Value} {map : Mapping}

/-- The window in which an id verifies. -/
structure Window where
  id : Nat
  verifyFrom : Int
  verifyUntil : Int

/-- Whether two windows of one id are open together. -/
def Window.overlaps (held entry : Window) : Bool :=
  held.id = entry.id && held.verifyFrom ≤ entry.verifyUntil && entry.verifyFrom ≤ held.verifyUntil

def KeySpec.window (key : KeySpec) : Window :=
  ⟨key.id, key.verifyFrom, key.verifyUntil⟩

/-- The window an entry writes. -/
def writtenWindow (item : Value) : Option Window := do
  let map ← item.asMapping
  let id ← (map.get (text "id")).bind (uintOf u8Max)
  let verifyFrom ← (map.get (text "verifyFrom")).bind instantOf
  let verifyUntil ← (map.get (text "verifyUntil")).bind instantOf
  some ⟨id, verifyFrom, verifyUntil⟩

/-- Whether an entry names its secret, and does not write it. -/
def namesSecret (item : Value) : Bool :=
  (writtenName "secretRef" item).isSome &&
    !(item.asMapping.any fun map => map.has (text "secret"))

/-- What is kept of an entry. -/
def keptKey (item : Value) : Option KeySpec := do
  let map ← item.asMapping
  if map.has (text "secret") then
    none
  else
    keySpec ((map.get (text "id")).bind (uintOf u8Max)) (readAlgorithm map .root).value
      ((map.get (text "secretRef")).bind strOf) ((map.get (text "verifyFrom")).bind instantOf)
      ((map.get (text "verifyUntil")).bind instantOf)
      (((map.get (text "mint")).bind Value.asBool).getD false)

theorem value_readAlgorithm : (readAlgorithm map path).value = (readAlgorithm map .root).value := by
  unfold readAlgorithm
  split
  · rfl
  · split <;> rfl

theorem value_readBool {key : Text} :
    (readBool map key path).value = (map.get key).bind Value.asBool := by
  unfold readBool
  cases map.get key with
  | none => rfl
  | some value =>
      dsimp only [Option.bind_some]
      cases value.asBool <;> rfl

theorem value_readInstant {key : Text} :
    (readInstant map key path).value = (map.get key).bind instantOf := by
  unfold readInstant instantOf
  cases map.get key with
  | none => rfl
  | some value =>
      dsimp only [Option.bind_some]
      cases value.asStr with
      | none => rfl
      | some spelling =>
          dsimp only [Option.bind_some]
          cases parseRfc3339Utc spelling <;> rfl

theorem value_readKeyEntry : (readKeyEntry lib item here).value = keptKey item := by
  unfold readKeyEntry keptKey asMapping
  rw [value_bind]
  cases item.asMapping with
  | none => rfl
  | some map =>
      simp only [value_pure, value_bind, Option.bind_eq_bind, Option.bind_some]
      split
      · rfl
      · simp only [value_pure, value_bind, value_requiredUint, value_requiredStr, value_readInstant,
          value_readBool, @value_readAlgorithm here]

theorem value_readKey : (readKey lib path held index item).value = keptKey item := by
  unfold readKey
  rw [value_bind, value_readKeyEntry]
  cases keptKey item <;> rfl

def keyWindow : Distinction Window where
  field := "id"
  rule := "CC-KY1"
  written := writtenWindow
  shown := fun window => decimal window.id
  clashes := Window.overlaps
  reaches := namesSecret
  keeps := namesSecret
  opening := "an id whose verify window does not overlap the one already declared for id "
  closing := " (affinity-token §6)"

/-- An entry with a window is kept where it names its secret. -/
theorem keptKey_of_written {window : Window} (written : writtenWindow item = some window) :
    (namesSecret item = true → ∃ key, keptKey item = some key ∧ key.window = window) ∧
      (namesSecret item = false → keptKey item = none) := by
  rcases Option.bind_eq_some_iff.mp written with ⟨map, isMapping, written⟩
  rcases Option.bind_eq_some_iff.mp written with ⟨id, isId, written⟩
  rcases Option.bind_eq_some_iff.mp written with ⟨verifyFrom, opens, written⟩
  rcases Option.bind_eq_some_iff.mp written with ⟨verifyUntil, closes, same⟩
  cases same
  unfold namesSecret keptKey writtenName
  simp only [isMapping, Option.bind_eq_bind, Option.bind_some, Option.any_some, isId, opens, closes]
  cases map.has (text "secret") with
  | true => simp
  | false =>
      cases (map.get (text "secretRef")).bind strOf with
      | none => simp [keySpec]
      | some secretRef => simp [keySpec, KeySpec.window]

theorem writtenWindow_of_kept {key : KeySpec} (isKept : keptKey item = some key) :
    writtenWindow item = some key.window ∧ namesSecret item = true := by
  rcases Option.bind_eq_some_iff.mp isKept with ⟨map, isMapping, isKept⟩
  split at isKept
  · contradiction
  · next written =>
      rcases Option.bind_eq_some_iff.mp isKept with ⟨id, isId, isKept⟩
      rcases Option.bind_eq_some_iff.mp isKept with ⟨secretRef, isRef, isKept⟩
      rcases Option.bind_eq_some_iff.mp isKept with ⟨verifyFrom, opens, isKept⟩
      rcases Option.bind_eq_some_iff.mp isKept with ⟨verifyUntil, closes, same⟩
      cases same
      constructor
      · simp only [writtenWindow, isMapping, Option.bind_eq_bind, Option.bind_some, isId, opens,
          closes, KeySpec.window]
      · simp [namesSecret, writtenName, isMapping, isRef, written]

theorem errors_readKey : (readKey lib path held index item).errors =
    (readKeyEntry lib item (path.index index)).errors ++
      ((keptKey item).map fun key => checkKeyOverlap held key (path.index index)).getD [] := by
  unfold readKey
  rw [errors_bind, value_readKeyEntry]
  cases keptKey item <;> simp

theorem not_mem_errors_readKeyEntry {window : Window} (written : writtenWindow item = some window)
    {found : Option Text} {expected : Text} :
    .new (here.field (text "id")) "CC-KY1" found expected ∉ (readKeyEntry lib item here).errors := by
  rcases Option.bind_eq_some_iff.mp written with ⟨map, isMapping, written⟩
  rcases Option.bind_eq_some_iff.mp written with ⟨id, isId, -⟩
  have apart : ∀ {errors : List ConfigError}, Within .root ["CC-V2", "CC-V9", "CC-KY4"] errors →
      .new (here.field (text "id")) "CC-KY1" found expected ∉ errors :=
    fun within => within.not_mem (by simp)
  have unknown : .new (here.field (text "id")) "CC-KY1" found expected ∉
      (closedWorld lib map keyEntryKeys here).errors :=
    apart (within_closedWorld Path.covers_root (by simp))
  have inline : ∀ {found expected} {below : Path},
      Within .root ["CC-V2", "CC-V9", "CC-KY4"] [.new below "CC-V9" found expected] := by
    simp
  have secretRef : .new (here.field (text "id")) "CC-KY1" found expected ∉
      (requiredStr map (text "secretRef") here "CC-V9").errors :=
    apart (within_requiredStr Path.covers_root (by simp))
  have instants : ∀ {key}, .new (here.field (text "id")) "CC-KY1" found expected ∉
      (readInstant map key here).errors :=
    apart (within_readInstant Path.covers_root (by simp))
  have window : ∀ {verifyFrom verifyUntil}, .new (here.field (text "id")) "CC-KY1" found expected ∉
      checkWindow verifyFrom verifyUntil here :=
    apart (within_checkWindow Path.covers_root (by simp))
  have id : (requiredUint map (text "id") here "CC-KY1" u8Max).errors = [] :=
    (reads_requiredUint.mpr ⟨id, isId, rfl⟩).1
  have algorithm : .new (here.field (text "id")) "CC-KY1" found expected ∉
      (readAlgorithm map here).errors := by
    unfold readAlgorithm
    split
    · simp
    · split <;> simp [ConfigError.new, Path.field_inj, text_inj]
  have mint : .new (here.field (text "id")) "CC-KY1" found expected ∉
      (readBool map (text "mint") here).errors := by
    unfold readBool
    split
    · simp
    · split <;> simp [ConfigError.new, Path.field_inj, text_inj]
  unfold readKeyEntry asMapping
  rw [isMapping]
  simp only [errors_bind, errors_pure, value_pure, List.mem_append, List.not_mem_nil, false_or,
    unknown]
  split
  · exact apart inline
  · simp only [errors_bind, errors_report, errors_pure, List.mem_append, id, List.not_mem_nil,
      secretRef, algorithm, instants, mint, window, or_self, not_false_eq_true]

theorem reports_keyWindow {items : List Value} :
    keyWindow.Reports (each (readKey lib path) [] 0 items).errors path items := by
  apply @Distinction.reports_of_each _ _ _ _ keptKey fun key => some key.window
  · exact fun _ _ _ => value_readKey
  · exact fun _ _ _ => within_readKey
  · intro item window
    constructor
    · rintro ⟨names, written⟩
      rcases (keptKey_of_written written).1 names with ⟨key, isKept, isWindow⟩
      exact ⟨key, isKept, congrArg some isWindow⟩
    · rintro ⟨key, isKept, isWindow⟩
      cases isWindow
      exact ⟨(writtenWindow_of_kept isKept).2, (writtenWindow_of_kept isKept).1⟩
  · intro held place item window written
    have own : ∀ holder, keyWindow.fault (path.index place) window holder ∉
        (readKeyEntry lib item (path.index place)).errors := fun holder =>
      not_mem_errors_readKeyEntry written
    simp only [Distinction.Reported, errors_readKey, List.mem_append, own, false_or]
    cases names : namesSecret item with
    | false =>
        rw [(keptKey_of_written written).2 names]
        simp [keyWindow, names]
    | true =>
        rcases (keptKey_of_written written).1 names with ⟨key, isKept, rfl⟩
        rw [isKept, Option.map_some, Option.getD_some]
        have searched : (∃ holder, keyWindow.fault (path.index place) key.window holder ∈
            checkKeyOverlap held key (path.index place)) ↔
            ∃ other ∈ held, other.overlaps key = true := by
          apply @Distinction.exists_fault_iff _ _ _ _ _ fun other => decimal other.id
          · intro absent holder reported
            rw [checkKeyOverlap, absent] at reported
            contradiction
          · intro other found
            rw [checkKeyOverlap, found]
            exact List.mem_singleton.mpr rfl
        apply searched.trans
        simp only [keyWindow, names, true_and, Option.some.injEq, exists_eq_left']
        rfl

/-- Whether an entry has all that a key must have. -/
def isKey (item : Value) : Bool :=
  namesSecret item && (writtenWindow item).isSome

def writesMint (item : Value) : Bool :=
  ((item.asMapping.bind fun map => map.get (text "mint")).bind Value.asBool).getD false

theorem isSome_keptKey : (keptKey item).isSome = isKey item := by
  unfold isKey
  cases isKept : keptKey item with
  | some key =>
      rw [(writtenWindow_of_kept isKept).1, (writtenWindow_of_kept isKept).2]
      rfl
  | none =>
      cases written : writtenWindow item with
      | none => simp
      | some window =>
          cases names : namesSecret item with
          | false => rfl
          | true =>
              rcases (keptKey_of_written written).1 names with ⟨key, same, -⟩
              rw [isKept] at same
              contradiction

theorem mint_of_kept {key : KeySpec} (isKept : keptKey item = some key) :
    key.mint = writesMint item := by
  rcases Option.bind_eq_some_iff.mp isKept with ⟨map, isMapping, isKept⟩
  split at isKept
  · contradiction
  · rcases Option.bind_eq_some_iff.mp isKept with ⟨id, -, isKept⟩
    rcases Option.bind_eq_some_iff.mp isKept with ⟨secretRef, -, isKept⟩
    rcases Option.bind_eq_some_iff.mp isKept with ⟨verifyFrom, -, isKept⟩
    rcases Option.bind_eq_some_iff.mp isKept with ⟨verifyUntil, -, same⟩
    cases same
    rw [writesMint, isMapping, Option.bind_some]

/-- How many of the keys that are kept mint. -/
theorem length_minting (items : List Value) :
    ((items.filterMap keptKey).filter KeySpec.mint).length =
      items.countP fun item => isKey item && writesMint item := by
  rw [← List.countP_eq_length_filter, List.countP_filterMap]
  congr 1
  funext item
  rw [← isSome_keptKey]
  cases isKept : keptKey item with
  | none => rfl
  | some key => exact mint_of_kept isKept

theorem filterMap_keptKey_ne_nil {items : List Value} :
    items.filterMap keptKey ≠ [] ↔ items.any isKey = true := by
  rw [Ne, List.filterMap_eq_nil_iff, List.any_eq_true]
  simp only [← isSome_keptKey, Option.isSome_iff_ne_none]
  push Not
  rfl

end Keys

end SipxClstr.Document
