import SipxClstr.Document.Load

/-!
# Where and by which rules faults are reported

Every reader reports at or below the path of what it reads, and under rules of its own.  A
reference that does not resolve is reported under a rule that no reader has.
-/

namespace SipxClstr.Document

open SipxClstr.Sip Reading

/-- The rule of unresolved references. -/
def referenceRule : Text :=
  text "CC-V4"

/-- None of these faults is an unresolved reference. -/
def NotOfReferences (errors : List ConfigError) : Prop :=
  ∀ error ∈ errors, error.rule ≠ referenceRule

/-! ## Paths -/

namespace Path

variable {outer path : Path} {key : Text} {index : Nat}

/-- Of two paths, the second is the first or goes on from it. -/
def Covers (outer path : Path) : Prop :=
  outer.shown <+: path.shown

@[simp]
theorem covers_self : path.Covers path :=
  List.prefix_rfl

@[simp]
theorem covers_root : Path.root.Covers path :=
  List.nil_prefix

theorem Covers.trans {first second third : Path} (outer : first.Covers second)
    (inner : second.Covers third) : first.Covers third :=
  List.IsPrefix.trans outer inner

@[simp]
theorem covers_field (covers : outer.Covers path) : outer.Covers (path.field key) := by
  apply covers.trans
  unfold field
  split
  · next empty =>
      rw [Covers, List.isEmpty_iff.mp empty]
      exact List.nil_prefix
  · exact List.prefix_append _ _

@[simp]
theorem covers_index (covers : outer.Covers path) : outer.Covers (path.index index) :=
  covers.trans (List.prefix_append _ _)

end Path

/-! ## Reports -/

/-- Every fault is at or below this path, and of one of these rules. -/
def Within (path : Path) (rules : List String) (errors : List ConfigError) : Prop :=
  ∀ error ∈ errors, path.Covers error.path ∧ ∃ rule ∈ rules, error.rule = text rule

section Lists

variable {outer path : Path} {rules : List String} {errors others : List ConfigError}

@[simp]
theorem within_nil : Within path rules [] := by
  simp [Within]

@[simp]
theorem within_append :
    Within path rules (errors ++ others) ↔ Within path rules errors ∧ Within path rules others :=
  List.forall_mem_append

@[simp]
theorem within_singleton {here : Path} {rule : String} {found : Option Text} {expected : Text} :
    Within path rules [.new here rule found expected] ↔ path.Covers here ∧ rule ∈ rules := by
  unfold Within
  simp only [List.mem_singleton, forall_eq, ConfigError.new, text_inj]
  simp

theorem Within.mono {more : List String} (within : Within path rules errors)
    (covers : outer.Covers path) (listed : rules ⊆ more) : Within outer more errors := by
  intro error member
  rcases within error member with ⟨under, rule, isRule, same⟩
  exact ⟨covers.trans under, rule, listed isRule, same⟩

theorem within_flatMap {α : Type} {items : List α} {errorsOf : α → List ConfigError}
    (each : ∀ item ∈ items, Within path rules (errorsOf item)) :
    Within path rules (items.flatMap errorsOf) := by
  intro error member
  rcases List.mem_flatMap.mp member with ⟨item, isItem, reported⟩
  exact each item isItem error reported

theorem within_each {α : Type} {read : List α → Nat → Value → Reading (Option α)}
    (each : ∀ held index item, Within (path.index index) rules (read held index item).errors)
    (held : List α) (index : Nat) (items : List Value) :
    Within path rules (Reading.each read held index items).errors := by
  induction items generalizing held index with
  | nil => simp [Reading.each]
  | cons item rest ih =>
      rw [Reading.each, errors_bind, within_append]
      exact ⟨(each _ _ _).mono (by simp) (List.Subset.refl _), ih _ _⟩

/-- A fault of another rule is not among them. -/
theorem Within.not_mem {here : Path} {rule : String} {found : Option Text} {expected : Text}
    (within : Within path rules errors) (foreign : rule ∉ rules) :
    .new here rule found expected ∉ errors := by
  intro member
  rcases within _ member with ⟨-, other, isRule, same⟩
  cases text_inj.mp same
  exact foreign isRule

/-- Faults of other rules are none of references. -/
theorem Within.notOfReferences (within : Within path rules errors) (foreign : "CC-V4" ∉ rules) :
    NotOfReferences errors := by
  intro error member isReference
  rcases within error member with ⟨-, rule, isRule, same⟩
  rw [same, referenceRule, text_inj] at isReference
  rw [isReference] at isRule
  exact foreign isRule

end Lists

/-! ## The shared readers -/

variable {lib : Libraries} {map block cluster : Mapping} {key : Text} {outer path here : Path}
  {value item : Value} {index : Nat} {roles : Roles} {rules : List String}

@[simp]
theorem within_closedWorld {known : List Text} (covers : outer.Covers path)
    (listed : "CC-V2" ∈ rules) : Within outer rules (closedWorld lib map known path).errors := by
  intro error member
  rcases List.mem_filterMap.mp member with ⟨entry, -, reported⟩
  rcases entry with ⟨entryKey, entryValue⟩
  dsimp only at reported
  split at reported
  · cases reported
    exact ⟨covers, "CC-V2", listed, rfl⟩
  · split at reported
    · contradiction
    · cases reported
      exact ⟨Path.covers_field covers, "CC-V2", listed, rfl⟩

@[simp]
theorem within_asMapping (covers : outer.Covers path) (listed : "CC-D3" ∈ rules) :
    Within outer rules (asMapping value path).errors := by
  unfold asMapping
  split <;> simp [covers, listed]

@[simp]
theorem within_requiredStr {rule : String} (covers : outer.Covers path) (listed : rule ∈ rules) :
    Within outer rules (requiredStr map key path rule).errors := by
  unfold requiredStr
  split
  · simp [covers, listed]
  · split
    · split <;> simp [covers, listed]
    · simp [covers, listed]

@[simp]
theorem within_requiredUint {rule : String} {max : Nat} (covers : outer.Covers path)
    (listed : rule ∈ rules) : Within outer rules (requiredUint map key path rule max).errors := by
  unfold requiredUint
  split
  · simp [covers, listed]
  · split
    · split <;> simp [covers, listed]
    · simp [covers, listed]

@[simp]
theorem within_readRoles {found : Option Value} (covers : outer.Covers path)
    (listed : ["CC-R1", "CC-R2"] ⊆ rules) : Within outer rules (readRoles found path).errors := by
  apply Within.mono _ covers listed
  unfold readRoles
  split
  · simp
  · split
    · simp
    · simp only [errors_bind, errors_pure, List.append_nil]
      apply within_each
      intro _ index item
      unfold readRole
      split <;> simp

@[simp]
theorem within_checkRoleCombination (covers : outer.Covers path)
    (listed : ["CC-R4", "CC-R6"] ⊆ rules) :
    Within outer rules (checkRoleCombination roles path).errors := by
  apply Within.mono _ covers listed
  unfold checkRoleCombination
  split
  · simp
  · simp only [errors_report, within_append, roleConflict]
    constructor <;> split <;> simp

@[simp]
theorem within_readInstant (covers : outer.Covers path) (listed : "CC-KY4" ∈ rules) :
    Within outer rules (readInstant map key path).errors := by
  unfold readInstant
  split
  · simp [covers, listed]
  · split
    · simp [covers, listed]
    · split <;> simp [covers, listed]

/-! ## Where a cluster runs -/

@[simp]
theorem within_readZones :
    Within (path.field (text "zones")) ["CC-7", "CC-V8"] (readZones cluster path).errors := by
  unfold readZones
  dsimp only
  split
  · simp
  · split
    · simp
    · simp only [errors_bind, errors_report, within_append]
      constructor
      · split <;> simp
      · apply within_each
        intro _ index item
        unfold readZone
        split <;> simp

@[simp]
theorem within_refuseTlsOf (covers : outer.Covers path) (listed : "CC-V9" ∈ rules) :
    Within outer rules (refuseTlsOf map path) := by
  unfold refuseTlsOf
  split
  · simp
  · unfold refuseInlineTlsKey
    split
    · simp
    · split <;> simp [covers, listed]

@[simp]
theorem within_checkTransport {spelled : Text} (covers : outer.Covers path)
    (listed : ["CC-V10", "CC-V2"] ⊆ rules) :
    Within outer rules (checkTransport spelled path).errors := by
  apply Within.mono _ covers listed
  unfold checkTransport
  split
  · simp
  · split <;> simp

theorem within_readListener :
    Within (path.index index)
      ["CC-D3", "CC-V2", "CC-V9", "CC-R1", "CC-R2", "CC-7", "CC-V10"]
      (readListener lib path index item).errors := by
  unfold readListener
  simp only [errors_bind, within_append]
  constructor
  · simp
  · split
    · simp only [errors_bind, errors_ignore, errors_report, within_append, within_nil, true_and]
      refine ⟨by simp, by simp, by simp, by simp, ?_⟩
      split
      · simp only [errors_bind, within_append]
        refine ⟨by simp, by simp, ?_⟩
        split <;> simp
      · simp only [errors_bind, within_append, errors_pure, within_nil, true_and]
        constructor
        · simp
        · split <;> simp
    · simp

@[simp]
theorem within_readListeners :
    Within (path.field (text "listener"))
      ["CC-D3", "CC-V2", "CC-V9", "CC-R1", "CC-R2", "CC-7", "CC-V10"]
      (readListeners lib cluster path).errors := by
  unfold readListeners
  dsimp only
  split
  · simp
  · split
    · simp
    · exact within_each (fun _ _ _ => within_readListener) _ _ _

@[simp]
theorem within_readRpc (covers : outer.Covers path) (listed : ["CC-MB5", "CC-MB6"] ⊆ rules) :
    Within outer rules (readRpc map roles path).errors := by
  apply Within.mono _ covers listed
  unfold readRpc
  dsimp only
  split
  · split <;> simp
  · split
    · simp
    · split
      · simp
      · split
        · split <;> simp
        · simp

@[simp]
theorem within_readIncarnation (covers : outer.Covers path) (listed : "CC-MB8" ∈ rules) :
    Within outer rules (readIncarnation map path).errors := by
  have reference : ∀ source, Within outer rules (readIncarnationRef map path source).errors := by
    intro source
    simp only [readIncarnationRef, errors_bind, errors_report, errors_pure, List.append_nil]
    split <;> simp [covers, listed]
  unfold readIncarnation
  split
  · exact reference _
  · split
    · exact reference _
    · simp [covers, listed]

theorem within_checkMemberId {members : List MemberSpec} {node : Nat} :
    Within path ["CC-I2"] (checkMemberId members node path) := by
  simp only [checkMemberId, within_append]
  constructor <;> split <;> simp

theorem within_checkMemberIsUnique {members : List MemberSpec} {name rpc : Option Text} :
    Within path ["CC-MB4", "CC-MB6"] (checkMemberIsUnique members name rpc path) := by
  simp only [checkMemberIsUnique, within_append]
  constructor <;> split <;> simp

theorem within_readMember {members : List MemberSpec} :
    Within (path.index index)
      ["CC-D3", "CC-V2", "CC-I1", "CC-R1", "CC-R2", "CC-R4", "CC-R6", "CC-MB5", "CC-MB6", "CC-MB8",
        "CC-I2", "CC-MB4"]
      (readMember lib path members index item).errors := by
  unfold readMember
  simp only [errors_bind, within_append]
  constructor
  · simp
  · split
    · simp only [errors_bind, errors_ignore, within_append, within_nil, true_and]
      refine ⟨by simp, by simp, by simp, by simp, by simp, by simp, by simp, by simp, ?_⟩
      split
      · simp only [errors_bind, errors_report, within_append]
        refine ⟨within_checkMemberId.mono (by simp) (by simp),
          within_checkMemberIsUnique.mono (by simp) (by simp), ?_⟩
        split <;> simp
      · simp
    · simp

@[simp]
theorem within_readMembership :
    Within (path.field (text "membership"))
      ["CC-D3", "CC-V2", "CC-I1", "CC-R1", "CC-R2", "CC-R4", "CC-R6", "CC-MB5", "CC-MB6", "CC-MB8",
        "CC-I2", "CC-MB4", "CC-7"]
      (readMembership lib cluster path).errors := by
  unfold readMembership
  dsimp only
  split
  · simp
  · split
    · simp
    · refine within_each (fun _ _ _ => ?_) _ _ _
      exact within_readMember.mono (by simp) (by simp)

/-! ## What a cluster shares -/

@[simp]
theorem within_readAlgorithm (covers : outer.Covers path) (listed : "CC-KY1" ∈ rules) :
    Within outer rules (readAlgorithm map path).errors := by
  unfold readAlgorithm
  split
  · simp
  · split <;> simp [covers, listed]

@[simp]
theorem within_readBool (covers : outer.Covers path) (listed : "CC-KY1" ∈ rules) :
    Within outer rules (readBool map key path).errors := by
  unfold readBool
  split
  · simp
  · split <;> simp [covers, listed]

@[simp]
theorem within_checkWindow {verifyFrom verifyUntil : Option Int} (covers : outer.Covers path)
    (listed : "CC-KY4" ∈ rules) : Within outer rules (checkWindow verifyFrom verifyUntil path) := by
  unfold checkWindow
  split
  · split <;> simp [covers, listed]
  · simp

theorem within_readKeyEntry :
    Within path ["CC-D3", "CC-V2", "CC-V9", "CC-KY1", "CC-KY4"]
      (readKeyEntry lib item path).errors := by
  unfold readKeyEntry
  simp only [errors_bind, within_append]
  constructor
  · simp
  · split
    · simp only [errors_bind, within_append]
      constructor
      · simp
      · split <;> simp
    · simp

theorem within_checkKeyOverlap {keys : List KeySpec} {entry : KeySpec} :
    Within path ["CC-KY1"] (checkKeyOverlap keys entry path) := by
  unfold checkKeyOverlap
  split <;> simp

theorem within_readKey {keys : List KeySpec} :
    Within (path.index index) ["CC-D3", "CC-V2", "CC-V9", "CC-KY1", "CC-KY4"]
      (readKey lib path keys index item).errors := by
  unfold readKey
  simp only [errors_bind, within_append]
  refine ⟨within_readKeyEntry, ?_⟩
  split
  · simp
  · simp only [errors_bind, errors_report, errors_pure, List.append_nil]
    exact within_checkKeyOverlap.mono (by simp) (by simp)

@[simp]
theorem within_readKeys :
    Within (path.field (text "keys"))
      ["CC-D3", "CC-V2", "CC-V9", "CC-KY1", "CC-KY4", "CC-7", "CC-V8", "CC-KY5"]
      (readKeys lib cluster path).errors := by
  unfold readKeys
  dsimp only
  split
  · simp
  · simp only [errors_bind, errors_ignore, List.nil_append]
    split
    · simp
    · simp only [errors_bind, errors_report, errors_pure, List.append_nil, within_append,
        checkMinting]
      refine ⟨?_, within_each (fun _ _ _ => ?_) _ _ _, ?_⟩
      · split <;> simp
      · exact within_readKey.mono (by simp) (by simp)
      · split <;> simp

theorem within_readShard :
    Within (path.index index) ["CC-D3", "CC-V2", "CC-I1", "CC-SM2", "CC-I2"]
      (readShard lib path index item).errors := by
  unfold readShard
  simp only [errors_bind, within_append]
  constructor
  · simp
  · split
    · simp only [errors_bind, within_append]
      refine ⟨by simp, by simp, by simp, ?_⟩
      split
      · split <;> simp
      · simp
    · simp

theorem within_readDrainTimeout :
    Within path ["CC-DS4"] (readDrainTimeout map path).errors := by
  unfold readDrainTimeout
  dsimp only
  split
  · simp
  · split
    · simp
    · split <;> simp

theorem within_readShards :
    Within path ["CC-D3", "CC-V2", "CC-I1", "CC-SM2", "CC-I2", "CC-SM1"]
      (readShards lib map path).errors := by
  unfold readShards
  dsimp only
  split
  · simp
  · split
    · simp
    · simp only [errors_bind, errors_report, errors_pure, List.append_nil, within_append,
        checkShards]
      constructor
      · apply Within.mono (within_each (fun _ _ _ => within_readShard) _ _ _) (by simp) (by simp)
      · split <;> simp

@[simp]
theorem within_readShardMap :
    Within (path.field (text "shardMap"))
      ["CC-D3", "CC-V2", "CC-I1", "CC-SM2", "CC-I2", "CC-SM1", "CC-DS4"]
      (readShardMap lib cluster path).errors := by
  unfold readShardMap
  dsimp only
  split
  · simp
  · simp only [errors_bind, errors_ignore, List.nil_append, within_append]
    constructor
    · simp
    · split
      · simp only [errors_bind, errors_pure, List.append_nil, within_append]
        exact ⟨by simp, within_readDrainTimeout.mono (by simp) (by simp),
          within_readShards.mono (by simp) (by simp)⟩
      · simp

/-! ## Stores, tenants and bounds -/

theorem within_readStoreOf :
    Within path ["CC-7", "CC-V9"] (readStoreOf map path).errors := by
  unfold readStoreOf
  simp only [errors_bind, within_append]
  constructor
  · simp
  · split
    · simp
    · simp only [errors_bind, errors_report, errors_pure, List.append_nil, checkDsnRef]
      split <;> simp

@[simp]
theorem within_readLocationStore :
    Within (path.field (text "locationStore")) ["CC-D3", "CC-V2", "CC-V9", "CC-7"]
      (readLocationStore lib cluster path).errors := by
  unfold readLocationStore
  dsimp only
  split
  · simp
  · simp only [errors_bind, within_append]
    constructor
    · simp
    · split
      · simp only [errors_bind, errors_ignore, errors_report, within_append, within_nil, true_and]
        refine ⟨by simp, ?_, within_readStoreOf.mono (by simp) (by simp)⟩
        split <;> simp
      · simp

@[simp]
theorem within_readAuth (covers : outer.Covers path)
    (listed : ["CC-D3", "CC-V2", "CC-V9", "CC-RA-A3"] ⊆ rules) :
    Within outer rules (readAuth lib map path).errors := by
  have auth : ∀ block here, Within here ["CC-RA-A3", "CC-V9"] (readAuthOf block here).errors := by
    intro block here
    unfold readAuthOf
    simp only [errors_bind, within_append]
    refine ⟨by simp, by simp, ?_⟩
    split
    · simp
    · split <;> simp
  apply Within.mono _ covers listed
  unfold readAuth
  dsimp only
  split
  · simp
  · simp only [errors_bind, within_append]
    constructor
    · simp
    · split
      · simp only [errors_bind, within_append]
        constructor
        · simp
        · split
          · simp
          · exact (auth _ _).mono (by simp) (by simp)
      · simp

@[simp]
theorem within_readTenantPolicy (covers : outer.Covers path)
    (listed : ["CC-D3", "CC-V2", "CC-S2"] ⊆ rules) :
    Within outer rules (readTenantPolicy lib map path).errors := by
  have quota : ∀ default, Within path ["CC-D3", "CC-V2", "CC-S2"]
      (readQuota map path default).errors := by
    intro default
    unfold readQuota
    dsimp only
    split
    · simp
    · split <;> simp
  have lifetimes : ∀ block key here default,
      Within here ["CC-D3", "CC-V2", "CC-S2"] (readExpiry block key here default).errors := by
    intro block key here default
    unfold readExpiry
    split
    · simp
    · split
      · simp
      · split <;> simp
  have expiry : ∀ block here policy, Within here ["CC-D3", "CC-V2", "CC-S2"]
      (readExpiryBlock lib block here policy).errors := by
    intro block here policy
    unfold readExpiryBlock
    simp only [errors_bind, errors_report, errors_pure, List.append_nil, within_append, lifetimes,
      true_and]
    constructor
    · simp
    · split <;> simp
  apply Within.mono _ covers listed
  unfold readTenantPolicy
  simp only [errors_bind, within_append, quota, true_and]
  split
  · simp
  · simp only [errors_bind, within_append]
    constructor
    · simp
    · split
      · exact (expiry _ _ _).mono (by simp) (List.Subset.refl _)
      · simp

theorem within_checkTenantId {tenants : List TenantSpec} {id : Nat} :
    Within path ["CC-I2"] (checkTenantId tenants id path) := by
  simp only [checkTenantId, within_append]
  constructor <;> split <;> simp

theorem within_checkTenantName {tenants : List TenantSpec} {name : Text} :
    Within path ["CC-I2"] (checkTenantName tenants name path) := by
  unfold checkTenantName
  split <;> simp

theorem within_readTenant {tenants : List TenantSpec} :
    Within (path.index index) ["CC-D3", "CC-V2", "CC-I1", "CC-V9", "CC-RA-A3", "CC-S2", "CC-I2"]
      (readTenant lib path tenants index item).errors := by
  unfold readTenant
  simp only [errors_bind, within_append]
  constructor
  · simp
  · split
    · simp only [errors_bind, within_append]
      refine ⟨by simp, by simp, by simp, by simp, by simp, ?_⟩
      split
      · simp only [errors_bind, errors_report, within_append]
        refine ⟨within_checkTenantId.mono (by simp) (by simp), ?_⟩
        split
        · simp only [errors_bind, errors_report, errors_pure, List.append_nil]
          exact within_checkTenantName.mono (by simp) (by simp)
        · simp
      · simp
    · simp

@[simp]
theorem within_readTenants :
    Within (path.field (text "tenant"))
      ["CC-D3", "CC-V2", "CC-I1", "CC-V9", "CC-RA-A3", "CC-S2", "CC-I2", "CC-7"]
      (readTenants lib cluster path).errors := by
  unfold readTenants
  dsimp only
  split
  · simp
  · split
    · simp
    · refine within_each (fun _ _ _ => ?_) _ _ _
      exact within_readTenant.mono (by simp) (by simp)

@[simp]
theorem within_readSecurity :
    Within (path.field (text "security")) ["CC-D3", "CC-V2", "CC-V6", "CC-V10"]
      (readSecurity lib cluster path).errors := by
  unfold readSecurity
  dsimp only
  split
  · simp
  · simp only [errors_bind, within_append]
    constructor
    · simp
    · split
      · simp only [errors_bind, errors_report, errors_pure, within_append, within_nil, and_true]
        refine ⟨by simp, ?_, ?_⟩
        · split <;> simp
        · apply within_flatMap
          rintro ⟨key, decides⟩ -
          rw [refuseControl]
          split <;> simp
      · simp

@[simp]
theorem within_readAdmission :
    Within (path.field (text "admission")) ["CC-D3", "CC-V2", "CC-V8"]
      (readAdmission lib cluster path).errors := by
  have bound : ∀ map here default, Within here ["CC-V8"]
      (readMaxInFlight map here default).errors := by
    intro map here default
    unfold readMaxInFlight
    dsimp only
    split
    · simp
    · split
      · split <;> simp
      · simp
  unfold readAdmission
  dsimp only
  split
  · simp
  · simp only [errors_bind, within_append]
    constructor
    · simp
    · split
      · simp only [errors_bind, errors_pure, List.append_nil, within_append]
        exact ⟨by simp, (bound _ _ _).mono (by simp) (by simp)⟩
      · simp

theorem within_readMs {default : Nat} :
    Within here ["CC-V7", "CC-V2", "CC-D3"] (readMs map key here default).errors := by
  unfold readMs
  split
  · simp
  · split <;> simp

theorem within_readDeclaredTimers :
    Within here ["CC-V7", "CC-V2", "CC-D3"] (readDeclaredTimers lib map here).errors := by
  unfold readDeclaredTimers
  generalize TimersSpec.default = timers
  rw [errors_bind, errors_bind, errors_ignore, List.nil_append]
  simp only [errors_bind, errors_pure, within_append, within_nil, within_readMs, and_true]
  simp

theorem within_readTimersSection :
    Within here ["CC-V7", "CC-V2", "CC-D3"] (readTimersSection lib cluster here).errors := by
  unfold readTimersSection
  generalize TimersSpec.default = timers
  split
  · exact within_nil
  · rw [errors_bind, within_append]
    constructor
    · simp
    · split
      · exact within_readDeclaredTimers
      · exact within_nil

theorem within_floor {timerCMs : Nat} {found : Option Text} {expected : Text} :
    Within path ["CC-V7", "CC-V2", "CC-D3"]
      (if timerCMs ≤ timerCFloorMs then [.new (path.field key) "CC-V7" found expected]
        else []) := by
  split <;> simp

@[simp]
theorem within_readTimers :
    Within (path.field (text "timers")) ["CC-V7", "CC-V2", "CC-D3"]
      (readTimers lib cluster path).errors := by
  unfold readTimers
  rw [errors_bind, within_append]
  refine ⟨within_readTimersSection, ?_⟩
  rw [errors_bind, errors_report, errors_pure, List.append_nil]
  exact within_floor

/-! ## The document -/

@[simp]
theorem within_checkManagement :
    Within (path.field (text "management")) ["CC-V9"] (checkManagement cluster path) := by
  unfold checkManagement
  split <;> simp

theorem within_checkMembershipAgrees {membership : List MemberSpec} {identity : NodeIdentity} :
    Within path ["CC-P3"] (checkMembershipAgrees membership identity path) := by
  unfold checkMembershipAgrees
  split
  · simp
  · simp only [within_append]
    constructor <;> split <;> simp

theorem within_checkProjectionHasAListener {listeners : List ListenerSpec}
    {identity : NodeIdentity} :
    Within path ["CC-P4"] (checkProjectionHasAListener listeners identity path) := by
  unfold checkProjectionHasAListener
  split
  · simp
  · split <;> simp

theorem within_checkShardOwners {shardMap : Option ShardMapSpec} {membership : List MemberSpec} :
    Within path ["CC-V5", "CC-SM3"] (checkShardOwners shardMap membership path) := by
  have owner : ∀ shard here, Within here ["CC-V5", "CC-SM3"]
      (checkShardOwner membership shard here) := by
    intro shard here
    unfold checkShardOwner
    split
    · simp
    · split <;> simp
  unfold checkShardOwners
  split
  · simp
  · intro error member
    rcases List.mem_flatten.mp member with ⟨reported, isReported, inside⟩
    rcases List.mem_mapIdx.mp isReported with ⟨index, _, rfl⟩
    have shards : path.Covers ((path.field (text "shardMap")).field (text "shards")) := by
      simp
    exact (owner _ _).mono (Path.covers_field (Path.covers_index shards)) (List.Subset.refl _) error
      inside

/-- The rules that need two sections, or the node's identity. -/
def crossRules : List String :=
  ["CC-R4", "CC-R6", "CC-P3", "CC-P4", "CC-V5", "CC-SM3"]

theorem within_crossChecks {sections : ReadSections} {identity : NodeIdentity} :
    Within .root crossRules (crossChecks sections identity path).errors := by
  unfold crossRules
  simp only [crossChecks, errors_bind, errors_report, within_append]
  exact ⟨by simp, within_checkMembershipAgrees.mono (by simp) (by simp),
    within_checkProjectionHasAListener.mono (by simp) (by simp),
    within_checkShardOwners.mono (by simp) (by simp)⟩

/-- What is reported of each section of a cluster. -/
def sectionFaults (lib : Libraries) (cluster : Mapping) (path : Path) :
    List (String × List ConfigError) :=
  [("management", checkManagement cluster path),
    ("name", (requiredStr cluster (text "name") path "CC-7").errors),
    ("environment", (requiredStr cluster (text "environment") path "CC-7").errors),
    ("zones", (readZones cluster path).errors),
    ("listener", (readListeners lib cluster path).errors),
    ("membership", (readMembership lib cluster path).errors),
    ("keys", (readKeys lib cluster path).errors),
    ("shardMap", (readShardMap lib cluster path).errors),
    ("locationStore", (readLocationStore lib cluster path).errors),
    ("tenant", (readTenants lib cluster path).errors),
    ("security", (readSecurity lib cluster path).errors),
    ("admission", (readAdmission lib cluster path).errors),
    ("timers", (readTimers lib cluster path).errors)]

theorem within_requiredStr_field {rule : String} :
    Within (path.field key) [rule] (requiredStr map key path rule).errors := by
  unfold requiredStr
  split
  · simp
  · split
    · split <;> simp
    · simp

/-- What is reported of a section is reported at its path, and is none of references. -/
theorem within_sectionFaults {entry : String × List ConfigError}
    (member : entry ∈ sectionFaults lib cluster path) :
    ∃ rules, "CC-V4" ∉ rules ∧ Within (path.field (text entry.1)) rules entry.2 := by
  simp only [sectionFaults, List.mem_cons, List.not_mem_nil, or_false] at member
  rcases member with rfl | rfl | rfl | rfl | rfl | rfl | rfl | rfl | rfl | rfl | rfl | rfl | rfl
  · exact ⟨_, by simp, within_checkManagement⟩
  · exact ⟨["CC-7"], by simp, within_requiredStr_field⟩
  · exact ⟨["CC-7"], by simp, within_requiredStr_field⟩
  · exact ⟨_, by simp, within_readZones⟩
  · exact ⟨_, by simp, within_readListeners⟩
  · exact ⟨_, by simp, within_readMembership⟩
  · exact ⟨_, by simp, within_readKeys⟩
  · exact ⟨_, by simp, within_readShardMap⟩
  · exact ⟨_, by simp, within_readLocationStore⟩
  · exact ⟨_, by simp, within_readTenants⟩
  · exact ⟨_, by simp, within_readSecurity⟩
  · exact ⟨_, by simp, within_readAdmission⟩
  · exact ⟨_, by simp, within_readTimers⟩

/-- A cluster's faults are its unknown keys, those of its sections, and those between them. -/
theorem errors_readCluster {apiVersion : Option Text} {version : Option Nat}
    {identity : NodeIdentity} :
    (readCluster lib apiVersion version cluster path identity).errors =
      (closedWorld lib cluster (clusterKeys ++ deferredSections) path).errors ++
        ((sectionFaults lib cluster path).flatMap Prod.snd ++
          (crossChecks (readSections lib cluster path).value identity path).errors) := by
  have sections : checkManagement cluster path ++ (readSections lib cluster path).errors =
      (sectionFaults lib cluster path).flatMap Prod.snd :=
    rfl
  simp only [readCluster, errors_bind, errors_ignore, errors_report, errors_pure, List.nil_append,
    List.append_nil, ← sections, List.append_assoc]

/-- The rules of a document above its sections, and between them. -/
def topRules : List String :=
  ["CC-V2", "CC-D3", "CC-D9", "CC-2"] ++ crossRules

/-- A fault of another rule is one of the sections. -/
theorem mem_errors_readTop {apiVersion : Option Text} {identity : NodeIdentity}
    {error : ConfigError} (foreign : ∀ rule ∈ topRules, error.rule ≠ text rule) :
    error ∈ (readTop lib apiVersion map identity).errors ↔
      ∃ cluster, (map.get (text "cluster")).bind Value.asMapping = some cluster ∧
        ∃ entry ∈ sectionFaults lib cluster clusterPath, error ∈ entry.2 := by
  have apart : ∀ {errors}, Within .root topRules errors → error ∉ errors := by
    intro errors within member
    rcases within error member with ⟨-, rule, isRule, same⟩
    exact foreign rule isRule same
  have unknown : ∀ {names map path}, error ∉ (closedWorld lib map names path).errors :=
    apart (within_closedWorld Path.covers_root (by simp [topRules]))
  have version : error ∉ (requiredUint map (text "version") .root "CC-D9" u32Max).errors :=
    apart (within_requiredUint Path.covers_root (by simp [topRules]))
  have isMapping : ∀ {value}, error ∉ (asMapping value clusterPath).errors :=
    apart (within_asMapping Path.covers_root (by simp [topRules]))
  have crossed : ∀ {sections}, error ∉ (crossChecks sections identity clusterPath).errors :=
    apart (within_crossChecks.mono Path.covers_root (List.subset_append_right _ _))
  unfold readTop
  simp only [errors_bind, List.mem_append, unknown, version, false_or]
  cases map.get (text "cluster") with
  | none =>
      have absent : Within .root topRules
          [.new clusterPath "CC-2" none (text "the cluster section; it is required")] := by
        simp [topRules]
      simpa using apart absent
  | some value =>
      simp only [errors_bind, List.mem_append, isMapping, false_or, Option.bind_some]
      unfold asMapping
      cases value.asMapping with
      | none => simp
      | some cluster =>
          simp only [value_pure, Option.some.injEq, exists_eq_left']
          rw [errors_readCluster, List.mem_append, List.mem_append, List.mem_flatMap]
          simp only [unknown, crossed, false_or, or_false]

/-- No reader of a document reports an unresolved reference. -/
theorem notOfReferences_readTop {apiVersion : Option Text} {identity : NodeIdentity} :
    NotOfReferences (readTop lib apiVersion map identity).errors := by
  intro error member isReference
  have foreign : ∀ rule ∈ topRules, error.rule ≠ text rule := by
    intro rule isRule same
    rw [isReference, referenceRule, text_inj] at same
    rw [← same] at isRule
    simp [topRules, crossRules] at isRule
  rcases (mem_errors_readTop foreign).mp member with ⟨cluster, -, entry, isEntry, inside⟩
  rcases within_sectionFaults isEntry with ⟨rules, foreign, within⟩
  exact within.notOfReferences foreign error inside isReference

end SipxClstr.Document
