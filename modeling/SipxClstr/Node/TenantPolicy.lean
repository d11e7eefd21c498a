import SipxClstr.Node.References
import SipxClstr.Registrar.Delivery
import SipxClstr.Registrar.Reference

/-!
# The policy a document gives a registrar

A tenant's lifetimes, its quota and the registrar's own bound on a request are read one by
one.  What they do together is decided where a lifetime is granted.
-/

namespace SipxClstr.Startup

open SipxClstr.Sip SipxClstr.Document SipxClstr.Registrar

variable {K : Kernel} {R : ContactRules K} {policy : TenantPolicy} {cmd : RegisterCommand K}
  {ops : List (ContactOp K)} {current : BindingSet}

/-- The refusal of a request for its number of operations. -/
def tooManyOperations : Rejection :=
  .forbidden (text "the REGISTER carries more contact operations than this tenant permits")

/-- No expiry is stated anywhere in the request. -/
structure NamesNoExpiry (cmd : RegisterCommand K) (ops : List (ContactOp K)) : Prop where
  contacts : cmd.contacts = .explicit ops
  header : cmd.expiresHeader = none
  params : ∀ op ∈ ops, op.expires = none

/-- The request carries one operation for each binding held. -/
structure RefreshesAll (cmd : RegisterCommand K) (ops : List (ContactOp K)) (current : BindingSet) :
    Prop where
  contacts : cmd.contacts = .explicit ops
  each : (ops.map ContactOp.verbatim).Perm ((current.active cmd.now).map Binding.contact)

/-- What a tenant may expect of its registrar, whatever it holds and is asked. -/
structure SanePolicy (R : ContactRules K) (policy : TenantPolicy) : Prop where
  /-- A contact that asks for a positive lifetime is granted one. -/
  grants : ∀ (cmd : RegisterCommand K) ops grants, grantedExpiries cmd policy ops = .ok grants →
    ∀ op granted, (op, granted) ∈ ops.zip grants → 0 < requestedExpiry cmd policy op → 1 ≤ granted
  /-- A request that names no expiry is not too brief. -/
  answers : ∀ (cmd : RegisterCommand K) ops current least, NamesNoExpiry cmd ops →
    process R cmd current policy ≠ .reject (.intervalTooBrief least)
  /-- A request that names no expiry keeps every live binding. -/
  keeps : ∀ (cmd : RegisterCommand K) ops current set response, NamesNoExpiry cmd ops →
    process R cmd current policy = .commit set response →
      ((current.dropExpired cmd.now).map Binding.registeredAt).Sublist (set.map Binding.registeredAt)
  /-- All that is held within the quota can be refreshed at once. -/
  refreshes : ∀ (cmd : RegisterCommand K) ops current, RefreshesAll cmd ops current →
    current.activeCount cmd.now ≤ policy.maxBindingsPerAor →
      process R cmd current policy ≠ .reject tooManyOperations

/-- The numbers work together. -/
structure Workable (policy : TenantPolicy) : Prop where
  maximum : 0 < policy.maxExpires
  default : 0 < policy.defaultExpires
  notBrief : policy.minExpires ≤ policy.defaultExpires
  quota : policy.maxBindingsPerAor ≤ policy.maxContactOps

/-! ## Numbers that work together -/

theorem NamesNoExpiry.requestedExpiry_eq (names : NamesNoExpiry cmd ops) {op : ContactOp K}
    (isOp : op ∈ ops) : requestedExpiry cmd policy op = policy.defaultExpires := by
  rw [requestedExpiry, names.params op isOp, names.header, Option.or_none, Option.getD_none]

theorem Workable.grantOf_pos (workable : Workable policy) {op : ContactOp K}
    (asks : 0 < requestedExpiry cmd policy op) : 0 < grantOf cmd policy op :=
  lt_min asks workable.maximum

/-- Nothing is too brief where every contact asks for the minimum at least. -/
theorem exists_grantedExpiries
    (asks : ∀ op ∈ ops, policy.minExpires ≤ requestedExpiry cmd policy op) :
    ∃ grants, grantedExpiries cmd policy ops = .ok grants := by
  induction ops with
  | nil => exact ⟨[], rfl⟩
  | cons op rest ih =>
      rcases List.forall_mem_cons.mp asks with ⟨first, later⟩
      rcases ih later with ⟨grants, granted⟩
      unfold grantedExpiries
      rw [if_neg (not_lt.mpr first), granted]
      split
      · exact ⟨_, rfl⟩
      · exact ⟨_, rfl⟩

/-- Reconciliation refuses a stale token, and nothing else. -/
theorem reconcile_error {state : Reconciliation K} {requests : List (OpRequest K)}
    {rejection : Rejection} (refused : reconcile R cmd state requests = .error rejection) :
    rejection = .staleSequence := by
  induction requests generalizing state with
  | nil => simp [reconcile] at refused
  | cons head rest ih =>
      rcases head with ⟨op, granted⟩
      have step := applyOp_step R cmd state op granted
      unfold reconcile at refused
      cases stepped : applyOp R cmd state op granted with
      | error other =>
          rw [stepped] at step refused
          cases step
          exact (Except.error.inj refused).symm
      | ok next =>
          rw [stepped] at refused
          exact ih refused

/-- A grant refuses what is too brief, and nothing else. -/
theorem grantedExpiries_error {rejection : Rejection}
    (refused : grantedExpiries cmd policy ops = .error rejection) :
    rejection = .intervalTooBrief policy.minExpires := by
  induction ops with
  | nil => simp [grantedExpiries] at refused
  | cons op rest ih =>
      unfold grantedExpiries at refused
      cases later : grantedExpiries cmd policy rest with
      | error other =>
          rw [later] at refused ih
          split at refused
          · exact ih refused
          split at refused
          · exact (Except.error.inj refused).symm
          · exact ih refused
      | ok grants =>
          rw [later] at refused
          split at refused
          · simp [Except.map] at refused
          split at refused
          · exact (Except.error.inj refused).symm
          · simp [Except.map] at refused

/-- Why an explicit request is refused. -/
inductive Refused (cmd : RegisterCommand K) (policy : TenantPolicy) (ops : List (ContactOp K)) :
    Rejection → Prop where
  | badExtension (tags : List Text) : Refused cmd policy ops (.badExtension tags)
  | extensionRequired (tag : Text) : Refused cmd policy ops (.extensionRequired tag)
  | tooMany (many : policy.maxContactOps < ops.length) : Refused cmd policy ops tooManyOperations
  | tooBrief (brief : grantedExpiries cmd policy ops = .error (.intervalTooBrief policy.minExpires)) :
      Refused cmd policy ops (.intervalTooBrief policy.minExpires)
  | stale : Refused cmd policy ops .staleSequence
  | full : Refused cmd policy ops
      (.forbidden (text "the address-of-record already holds its maximum bindings"))

theorem refused_of_process {rejection : Rejection} (isExplicit : cmd.contacts = .explicit ops)
    (refused : process R cmd current policy = .reject rejection) :
    Refused cmd policy ops rejection := by
  unfold process at refused
  simp only [isExplicit] at refused
  split at refused
  · obtain rfl := Outcome.reject.inj refused
    exact .badExtension _
  split at refused
  · obtain rfl := Outcome.reject.inj refused
    exact .extensionRequired _
  split at refused
  · next many =>
      obtain rfl := Outcome.reject.inj refused
      exact .tooMany many
  unfold explicit at refused
  split at refused
  · simp at refused
  split at refused
  · next other brief =>
      obtain rfl := Outcome.reject.inj refused
      obtain rfl := grantedExpiries_error brief
      exact .tooBrief brief
  dsimp only at refused
  split at refused
  · next other stale =>
      obtain rfl := Outcome.reject.inj refused
      obtain rfl := reconcile_error stale
      exact .stale
  split at refused
  · obtain rfl := Outcome.reject.inj refused
    exact .stale
  split at refused
  · obtain rfl := Outcome.reject.inj refused
    exact .full
  split at refused <;> simp at refused

/-- Operations that are all granted a lifetime keep every binding. -/
theorem sublist_of_reconcile {requests : List (OpRequest K)} {start final : Reconciliation K}
    (positive : ∀ request ∈ requests, request.2 ≠ 0)
    (reconciled : reconcile R cmd start requests = .ok final) :
    (start.view.set.map Binding.registeredAt).Sublist (final.view.set.map Binding.registeredAt) := by
  refine reconcile_prefix_induction (fun _ state =>
    (start.view.set.map Binding.registeredAt).Sublist (state.view.set.map Binding.registeredAt))
    ?_ (List.Sublist.refl _) reconciled
  intro past op granted state next member kept step
  apply kept.trans
  cases step with
  | ignored _ _ => exact List.Sublist.refl _
  | added _ _ =>
      have inserted : (state.view.set.take (state.view.set.position R
          (bindingFor op cmd granted cmd.now)) ++ state.view.set.drop (state.view.set.position R
          (bindingFor op cmd granted cmd.now))).Sublist
            (state.view.set.insertAt R (bindingFor op cmd granted cmd.now)).1 :=
        (List.sublist_cons_self _ _).append_left _
      rw [List.take_append_drop] at inserted
      exact inserted.map _
  | retried _ _ _ _ _ _ => exact List.Sublist.refl _
  | deferred _ _ _ _ _ _ => exact List.Sublist.refl _
  | removed _ _ _ _ _ removal => exact absurd removal (positive _ member)
  | replaced before entry after first _ _ =>
      dsimp only
      rw [Reconciling.set_replace first.split, Reconciling.set_eq_of_split first.split]
      simp [bindingFor]

theorem sanePolicy_of_workable (R : ContactRules K) (workable : Workable policy) :
    SanePolicy R policy := by
  constructor
  · intro cmd ops grants granted op given member asks
    rw [zip_grants granted] at member
    rcases List.mem_map.mp member with ⟨op, -, isOp⟩
    cases isOp
    exact workable.grantOf_pos asks
  · intro cmd ops current least names refused
    have within : ∀ op ∈ ops, policy.minExpires ≤ requestedExpiry cmd policy op := by
      intro op isOp
      rw [names.requestedExpiry_eq isOp]
      exact workable.notBrief
    rcases exists_grantedExpiries within with ⟨grants, granted⟩
    cases refused_of_process names.contacts refused with
    | tooBrief brief => simp [granted] at brief
  · intro cmd ops current set response names committed
    rcases process_commit committed with ⟨isWildcard, -⟩ |
      ⟨others, grants, state, isExplicit, -, reconciled, rfl, -, -⟩
    · rw [names.contacts] at isWildcard
      simp at isWildcard
    · obtain rfl := ContactOps.explicit.inj (names.contacts.symm.trans isExplicit)
      apply sublist_of_reconcile ?_ reconciled.reconciled
      intro request member
      rw [zip_grants reconciled.granted] at member
      rcases List.mem_map.mp member with ⟨op, isOp, rfl⟩
      apply ne_of_gt
      apply workable.grantOf_pos
      rw [names.requestedExpiry_eq isOp]
      exact workable.default
  · intro cmd ops current refreshes within refused
    have few : ops.length ≤ policy.maxContactOps := by
      have lengths := refreshes.each.length_eq
      rw [List.length_map, List.length_map] at lengths
      rw [lengths]
      exact le_trans within workable.quota
    have differs : tooManyOperations ≠
        .forbidden (text "the address-of-record already holds its maximum bindings") := by
      decide +kernel
    generalize isTooMany : tooManyOperations = rejection at refused
    cases refused_of_process refreshes.contacts refused with
    | badExtension tags => simp [tooManyOperations] at isTooMany
    | extensionRequired tag => simp [tooManyOperations] at isTooMany
    | tooMany many => exact absurd few (not_le.mpr many)
    | tooBrief brief => simp [tooManyOperations] at isTooMany
    | stale => simp [tooManyOperations] at isTooMany
    | full => exact absurd isTooMany differs

/-! ## Numbers that do not -/

/-- A REGISTER that names no expiry. -/
def bareRegister (contacts : List (ContactOp K)) : RegisterCommand K where
  tenant := []
  aor := ⟨[]⟩
  callId := []
  cseq := 1
  contacts := .explicit contacts
  expiresHeader := none
  path := []
  supportsPath := false
  require := []
  received := none
  flowRef := none
  principal := none
  now := 0

/-- The operation, with no expiry of its own. -/
def bareOp (contact : ContactOp K) : ContactOp K :=
  { contact with expires := none }

/-- A live binding of this contact that another call wrote. -/
def heldBinding (contact : ContactOp K) : Binding :=
  { bindingFor contact (bareRegister []) 1 0 with callId := [0] }

theorem namesNoExpiry_bareRegister (contact : ContactOp K) :
    NamesNoExpiry (bareRegister [bareOp contact]) [bareOp contact] :=
  ⟨rfl, rfl, by simp [bareOp]⟩

theorem isActive_heldBinding (contact : ContactOp K) : (heldBinding contact).isActive 0 = true := by
  simp [Binding.isActive, heldBinding, bindingFor, bareRegister, Timestamp.saturatingAdd,
    nanosPerSecond, lastInstant]

theorem active_heldBindings (contacts : List (ContactOp K)) :
    BindingSet.active (contacts.map heldBinding) 0 = contacts.map heldBinding := by
  apply List.filter_eq_self.mpr
  intro binding member
  rcases List.mem_map.mp member with ⟨contact, -, rfl⟩
  exact isActive_heldBinding contact

theorem process_bareRegister (contacts : List (ContactOp K)) (current : BindingSet) :
    process R (bareRegister contacts) current policy =
      if policy.maxContactOps < contacts.length then .reject tooManyOperations
      else explicit R (bareRegister contacts) current policy contacts :=
  rfl

theorem grantedExpiries_bareOp (contact : ContactOp K) :
    grantedExpiries (bareRegister [bareOp contact]) policy [bareOp contact] =
      if policy.defaultExpires = 0 then .ok [0]
      else if policy.defaultExpires < policy.minExpires then
        .error (.intervalTooBrief policy.minExpires)
      else .ok [min policy.defaultExpires policy.maxExpires] :=
  rfl

/-- A request that is granted nothing removes what it names. -/
theorem process_removes (R : ContactRules K) (contact : ContactOp K)
    (permits : 0 < policy.maxContactOps)
    (granted : grantedExpiries (bareRegister [bareOp contact]) policy [bareOp contact] = .ok [0]) :
    process R (bareRegister [bareOp contact]) [heldBinding contact] policy = .commit [] .empty := by
  have parsed : K.parseUri (heldBinding contact).contact = some contact.uri := contact.spells
  have otherCall : (heldBinding contact).callId ≠ (bareRegister [bareOp contact]).callId := by
    simp [heldBinding, bareRegister]
  have reconciled : ∃ view : Reconciling K, view.set = [] ∧
      reconcile R (bareRegister [bareOp contact]) (.start [heldBinding contact])
        [(bareOp contact, 0)] = .ok ⟨view, true, []⟩ := by
    have found : (Reconciliation.start (K := K) [heldBinding contact]).view.find R
        (bareOp contact).uri = some 0 := by
      simp [Reconciliation.start, Reconciling.find, Reconciling.new, parsed, bareOp,
        R.equivalent_refl]
    refine ⟨(Reconciling.new [heldBinding contact]).remove 0, rfl, ?_⟩
    simp only [reconcile, applyOp, found]
    simp [Reconciliation.start, Reconciling.slotId, Reconciling.get, Reconciling.writtenHere,
      Reconciling.new, otherCall, overwrite, rebase]
  rcases reconciled with ⟨view, empty, reconciled⟩
  rw [process_bareRegister, if_neg (not_lt.mpr permits), explicit, granted]
  have kept : BindingSet.dropExpired [heldBinding contact] (bareRegister [bareOp contact]).now =
      [heldBinding contact] := active_heldBindings [contact]
  simp only [kept, List.zip_cons_cons, List.zip_nil_right, reconciled]
  simp [empty, BindingSet.activeCount, BindingSet.active, describe, Accepted.empty]

/-- Where a tenant's expectations hold, its numbers work together. -/
theorem workable_of_sanePolicy (contact : Nat → ContactOp K) (permits : 0 < policy.maxContactOps)
    (sane : SanePolicy R policy) : Workable policy := by
  have names := namesNoExpiry_bareRegister (contact 0)
  have positive : grantedExpiries (bareRegister [bareOp (contact 0)]) policy [bareOp (contact 0)] ≠
      .ok [0] := by
    intro granted
    have kept := sane.keeps _ _ _ _ _ names (process_removes R (contact 0) permits granted)
    have live : BindingSet.dropExpired [heldBinding (contact 0)]
        (bareRegister [bareOp (contact 0)]).now = [heldBinding (contact 0)] :=
      active_heldBindings [contact 0]
    simp [live] at kept
  rw [grantedExpiries_bareOp] at positive
  have default : policy.defaultExpires ≠ 0 := by
    intro zero
    rw [if_pos zero] at positive
    exact positive rfl
  have notBrief : policy.minExpires ≤ policy.defaultExpires := by
    by_contra below
    apply sane.answers _ _ [] policy.minExpires names
    rw [process_bareRegister, if_neg (not_lt.mpr permits), explicit, grantedExpiries_bareOp,
      if_neg default, if_pos (not_le.mp below)]
    rfl
  rw [if_neg default, if_neg (not_lt.mpr notBrief)] at positive
  constructor
  · apply Nat.pos_of_ne_zero
    intro zero
    rw [zero, Nat.min_zero] at positive
    exact positive rfl
  · exact Nat.pos_of_ne_zero default
  · exact notBrief
  · by_contra few
    generalize isContacts : (List.range (policy.maxContactOps + 1)).map contact = contacts
    have count : contacts.length = policy.maxContactOps + 1 := by
      rw [← isContacts, List.length_map, List.length_range]
    have held : BindingSet.active (contacts.map heldBinding) (bareRegister contacts).now =
      contacts.map heldBinding := active_heldBindings contacts
    apply sane.refreshes (bareRegister contacts) contacts (contacts.map heldBinding)
    · constructor
      · rfl
      · rw [held, List.map_map]
        exact List.Perm.refl _
    · rw [BindingSet.activeCount, held, List.length_map, count]
      exact not_le.mp few
    · rw [process_bareRegister, if_pos (by rw [count]; exact Nat.lt_succ_self _)]

/-! ## The policy of a document -/

/-- A tenant's numbers work together, and with the bound on a request that no document sets. -/
def WorkableSpec (declared : TenantPolicySpec) : Prop :=
  0 < declared.maxExpires ∧ 0 < declared.defaultExpires ∧
    declared.minExpires ≤ declared.defaultExpires ∧
    declared.maxBindingsPerAor ≤ TenantPolicy.default.maxContactOps

instance (declared : TenantPolicySpec) : Decidable (WorkableSpec declared) :=
  inferInstanceAs (Decidable (_ ∧ _))

theorem workable_policyOf {tenant : TenantSpec} :
    Workable (policyOf tenant) ↔ WorkableSpec tenant.policy := by
  constructor
  · rintro ⟨maximum, default, notBrief, quota⟩
    exact ⟨maximum, default, notBrief, quota⟩
  · rintro ⟨maximum, default, notBrief, quota⟩
    exact ⟨maximum, default, notBrief, quota⟩

theorem workable_default : Workable TenantPolicy.default := by
  constructor <;> decide

/-- What a node's policy is, and where it is workable. -/
theorem workable_of_nodeConfig {config : Config} {identity : NodeIdentity} {env : Env}
    {node : NodeConfig} (started : nodeConfig (project config identity) env = .ok node) :
    0 < node.policy.maxContactOps ∧
      (Workable node.policy ↔ ∀ tenant ∈ config.tenants, WorkableSpec tenant.policy) := by
  rcases nodeConfig_eq_ok started with ⟨-, -, few, -, isPolicy⟩
  change config.tenants.length ≤ 1 at few
  change node.policy = (config.tenants.head?.map policyOf).getD .default at isPolicy
  rw [isPolicy]
  match isTenants : config.tenants with
  | [] =>
      constructor
      · exact Nat.zero_lt_succ _
      · simpa using workable_default
  | [tenant] =>
      constructor
      · exact Nat.zero_lt_succ _
      · simpa using workable_policyOf
  | _ :: _ :: _ => simp [isTenants] at few

/-- A document's policy is sane exactly where its tenant's numbers work together. -/
theorem sanePolicy_iff (R : ContactRules K) (contact : Nat → ContactOp K) {config : Config}
    {identity : NodeIdentity} {env : Env} {node : NodeConfig}
    (started : nodeConfig (project config identity) env = .ok node) :
    SanePolicy R node.policy ↔ ∀ tenant ∈ config.tenants, WorkableSpec tenant.policy := by
  rcases workable_of_nodeConfig started with ⟨permits, workable⟩
  rw [← workable]
  constructor
  · exact workable_of_sanePolicy contact permits
  · exact sanePolicy_of_workable R

/-- A tenant with these numbers. -/
def tenantSection (entries : List (String × Value)) : List (String × Value) :=
  [("tenant", .sequence [mappingOf ([("name", scalar "t"), ("id", .number (.posInt 1))] ++ entries)])]

/-- Twenty bindings, which one request may refresh. -/
def widerTenant : List (String × Value) :=
  tenantSection [("maxBindingsPerAor", .number (.posInt 20))]

def widerTenantLines : String :=
  "  tenant:\n  - name: t\n    id: 1\n    maxBindingsPerAor: 20\n"

/-- A default lifetime below the minimum. -/
def briefTenant : List (String × Value) :=
  tenantSection [("expiry", mappingOf [("default", .number (.posInt 30))])]

def briefTenantLines : String :=
  "  tenant:\n  - name: t\n    id: 1\n    expiry:\n      default: 30\n"

theorem sanePolicy_widerTenant : ∃ config node,
    loadLeast (onlyLeast 1 widerTenant widerTenantLines) 1 widerTenantLines = .ok config ∧
      nodeConfig (project config leastIdentity) (fun _ => none) = .ok node ∧
      SanePolicy Registrar.Reference.rules node.policy := by
  have read : (loadLeast (onlyLeast 1 widerTenant widerTenantLines) 1 widerTenantLines).toOption.map
      (fun config => (config.tenants.map TenantSpec.policy,
        (nodeConfig (project config leastIdentity) fun _ => none).toOption.map NodeConfig.policy)) =
      some ([⟨3600, 60, 86400, 20⟩], some ⟨3600, 60, 86400, 20, 64⟩) := by
    rw [loadLeast, loadLeast_eq _ _ widerTenantLines (find_onlyLeast _ _ _) rfl (by decide +kernel)]
    decide +kernel
  obtain ⟨config, loaded, parts⟩ := Data.exists_ok_of_map read
  obtain ⟨policies, starts⟩ := Prod.mk.inj parts
  obtain ⟨node, started, -⟩ := Data.exists_ok_of_map starts
  refine ⟨config, node, loaded, started, ?_⟩
  apply (sanePolicy_iff _ (fun _ => Registrar.Reference.opBare 600) started).mpr
  intro tenant member
  have numbers := List.mem_map_of_mem (f := TenantSpec.policy) member
  rw [policies, List.mem_singleton] at numbers
  rw [numbers]
  decide

/-- A default of 30 seconds under the minimum of 60 is accepted, and a REGISTER that names
no expiry is too brief. -/
theorem not_sanePolicy :
    ¬ ∀ (lib : Libraries) (raw : Bytes) (identity : NodeIdentity) (env : Env) (config : Config)
      (node : NodeConfig), load lib raw identity env = .ok config →
      nodeConfig (project config identity) env = .ok node →
      SanePolicy Registrar.Reference.rules node.policy := by
  intro sane
  have read : (loadLeast (onlyLeast 1 briefTenant briefTenantLines) 1 briefTenantLines).toOption.map
      (fun config => (nodeConfig (project config leastIdentity) fun _ => none).toOption.map
        NodeConfig.policy) = some (some ⟨30, 60, 86400, 10, 64⟩) := by
    rw [loadLeast, loadLeast_eq _ _ briefTenantLines (find_onlyLeast _ _ _) rfl (by decide +kernel)]
    decide +kernel
  obtain ⟨config, loaded, starts⟩ := Data.exists_ok_of_map read
  obtain ⟨node, started, isPolicy⟩ := Data.exists_ok_of_map starts
  have workable := workable_of_sanePolicy (fun _ => Registrar.Reference.opBare 600)
    (by rw [isPolicy]; decide) (sane _ _ _ _ config node loaded started)
  have notBrief := workable.notBrief
  rw [isPolicy] at notBrief
  exact absurd notBrief (by decide)

end SipxClstr.Startup
