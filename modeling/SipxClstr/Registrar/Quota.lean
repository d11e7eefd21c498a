import SipxClstr.Data.Traverse
import SipxClstr.Registrar.Findings
import SipxClstr.Registrar.Frame

/-!
# The quota

The quota is asked once, of the reconciled set.  A request that adds no more bindings than it
takes away trips it only where what it leaves of the set still exceeds the quota.
-/

namespace SipxClstr.Registrar

open SipxClstr.Sip

variable {K : Kernel} {R : ContactRules K} {cmd : RegisterCommand K} {current : BindingSet}
  {policy : TenantPolicy} {ops : List (ContactOp K)}

/-- The quota's refusal. -/
def quotaRefusal : Rejection :=
  .forbidden (text "the address-of-record already holds its maximum bindings")

/-- What the quota owes to a request. -/
structure QuotaLaw (R : ContactRules K) (cmd : RegisterCommand K) (current : BindingSet)
    (policy : TenantPolicy) : Prop where
  /-- What it refuses has grown the set. -/
  spares : ∀ ops grants state, cmd.contacts = .explicit ops →
    Reconciled R cmd current policy ops grants state →
    state.view.set.activeCount cmd.now ≤ current.activeCount cmd.now →
      process R cmd current policy ≠ .reject quotaRefusal
  /-- What has grown past it is refused. -/
  refuses : ∀ ops grants state, cmd.contacts = .explicit ops →
    Reconciled R cmd current policy ops grants state →
    current.activeCount cmd.now < state.view.set.activeCount cmd.now →
    policy.maxBindingsPerAor < state.view.set.activeCount cmd.now →
      ∃ rejection, process R cmd current policy = .reject rejection

/-- What is asked of a request before its operations are looked at. -/
structure Permitted (cmd : RegisterCommand K) (policy : TenantPolicy) (ops : List (ContactOp K)) :
    Prop where
  isExplicit : cmd.contacts = .explicit ops
  understood : (cmd.require.filter fun tag => toAsciiLowercase tag ∉ supported) = []
  advertised : cmd.path = [] ∨ cmd.supportsPath = true
  few : ops.length ≤ policy.maxContactOps

/-- The set is within the quota; or the request adds more bindings than it takes away; or it
takes away so many more than it adds that the quota is met. -/
def Fits (R : ContactRules K) (cmd : RegisterCommand K) (current : BindingSet)
    (policy : TenantPolicy) (ops : List (ContactOp K)) : Prop :=
  current.activeCount cmd.now ≤ policy.maxBindingsPerAor ∨
    removals cmd (findingsIn R cmd current policy ops) <
        additions (findingsIn R cmd current policy ops) ∨
      current.activeCount cmd.now + additions (findingsIn R cmd current policy ops) ≤
        policy.maxBindingsPerAor + removals cmd (findingsIn R cmd current policy ops)

instance : Decidable (Fits R cmd current policy ops) :=
  inferInstanceAs (Decidable (_ ∨ _ ∨ _))

/-! ## Requests that reach the quota -/

/-- An explicit request is decided by its operations, or refused before they are looked at. -/
theorem process_explicit (R : ContactRules K) (current : BindingSet) (policy : TenantPolicy)
    (isExplicit : cmd.contacts = .explicit ops) :
    process R cmd current policy = explicit R cmd current policy ops ∨
      ∃ rejection, process R cmd current policy = .reject rejection ∧ rejection ≠ quotaRefusal := by
  unfold process
  simp only [isExplicit]
  split
  · exact .inr ⟨_, rfl, by simp [quotaRefusal]⟩
  split
  · exact .inr ⟨_, rfl, by simp [quotaRefusal]⟩
  split
  · exact .inr ⟨_, rfl, by decide +kernel⟩
  · exact .inl rfl

theorem Permitted.process_eq (permitted : Permitted cmd policy ops) (R : ContactRules K)
    (current : BindingSet) : process R cmd current policy = explicit R cmd current policy ops := by
  obtain ⟨isExplicit, understood, advertised, few⟩ := permitted
  unfold process
  rw [understood, isExplicit]
  simp only [List.isEmpty_nil, Bool.not_true, Bool.false_eq_true, if_false]
  rw [if_neg, if_neg (not_lt.mpr few)]
  rcases advertised with none | supports
  · simp [none]
  · simp [supports]

/-- A request that is not refused before its operations are looked at was permitted. -/
theorem permitted_or_refused (R : ContactRules K) (current : BindingSet) (policy : TenantPolicy)
    (isExplicit : cmd.contacts = .explicit ops) :
    Permitted cmd policy ops ∨
      ∃ rejection, process R cmd current policy = .reject rejection ∧ rejection ≠ quotaRefusal := by
  unfold process
  simp only [isExplicit]
  split
  · exact .inr ⟨_, rfl, by simp [quotaRefusal]⟩
  next understood =>
    split
    · exact .inr ⟨_, rfl, by simp [quotaRefusal]⟩
    next advertised =>
      split
      · exact .inr ⟨_, rfl, by decide +kernel⟩
      next few =>
        refine .inl ⟨isExplicit, by simpa using understood, ?_, not_lt.mp few⟩
        cases isPath : cmd.path with
        | nil => exact .inl rfl
        | cons _ _ => simpa [isPath] using advertised

/-! ## How many bindings are active -/

theorem activeCount_dropExpired (set : BindingSet) (now : Timestamp) :
    (set.dropExpired now).activeCount now = set.activeCount now := by
  rw [BindingSet.activeCount, BindingSet.active, BindingSet.dropExpired, List.filter_filter]
  simp only [Bool.and_self]
  rfl

theorem activeCount_eq_length {set : BindingSet} {now : Timestamp}
    (live : ∀ binding ∈ set, binding.isActive now = true) : set.activeCount now = set.length := by
  rw [BindingSet.activeCount, BindingSet.active, List.filter_eq_self.mpr live]

theorem isActive_bindingFor (cmd : RegisterCommand K) (op : ContactOp K) {granted : Nat}
    (registeredAt : Timestamp) (positive : granted ≠ 0) (notLast : cmd.now < lastInstant) :
    (bindingFor op cmd granted registeredAt).isActive cmd.now = true := by
  have later : 0 < granted * nanosPerSecond :=
    Nat.mul_pos (Nat.pos_of_ne_zero positive) (by decide)
  apply decide_eq_true
  exact lt_min (Nat.lt_add_of_pos_right later) notLast

/-- An operation leaves what is live, and what it writes is. -/
theorem OpStep.live {state next : Reconciliation K} {op : ContactOp K} {granted : Nat}
    (step : OpStep R cmd state op granted (.ok next)) (notLast : cmd.now < lastInstant)
    (live : ∀ entry ∈ state.view.entries, entry.1.isActive cmd.now = true) :
    ∀ entry ∈ next.view.entries, entry.1.isActive cmd.now = true := by
  intro entry member
  rcases step.origin member with stood | ⟨⟨registeredAt, written⟩, -, -⟩
  · exact live entry stood
  · by_cases positive : granted = 0
    · -- A removal writes nothing.
      apply live
      cases step with
      | ignored _ _ => exact member
      | retried _ _ _ _ _ _ => exact member
      | deferred _ _ _ _ _ _ => exact member
      | removed before gone after first _ _ =>
          rw [Reconciling.entries_remove first.split] at member
          rw [first.split]
          exact List.mem_append.mpr
            ((List.mem_append.mp member).imp_right (List.mem_cons_of_mem gone))
      | added _ grants => exact absurd positive grants
      | replaced _ _ _ _ _ grants => exact absurd positive grants
    · rw [written]
      exact isActive_bindingFor cmd op registeredAt positive notLast

/-- A set of `u64` instants that has something live is not at the last of them. -/
theorem lt_lastInstant {now : Timestamp} (dated : ∀ binding ∈ current, binding.expiresAt ≤ lastInstant)
    (some : 0 < current.activeCount now) : now < lastInstant := by
  rcases List.exists_mem_of_length_pos some with ⟨binding, member⟩
  rcases List.mem_filter.mp member with ⟨isHeld, live⟩
  exact lt_of_lt_of_le (of_decide_eq_true live) (dated binding isHeld)

/-- What a request finds tells how many bindings are active behind it. -/
theorem Reconciled.activeCount_eq {grants : List Nat} {state : Reconciliation K}
    (reconciled : Reconciled R cmd current policy ops grants state) (notLast : cmd.now < lastInstant) :
    state.view.set.activeCount cmd.now + removals cmd (findingsIn R cmd current policy ops) =
      current.activeCount cmd.now + additions (findingsIn R cmd current policy ops) := by
  have run := reconciled.reconciled
  rw [zip_grants reconciled.granted] at run
  have startLive : ∀ entry ∈ (Reconciling.new (current.dropExpired cmd.now) : Reconciling K).entries,
      entry.1.isActive cmd.now = true := by
    intro entry member
    have mapped := List.mem_map_of_mem (f := Prod.fst) member
    rw [Reconciling.map_fst_entries] at mapped
    exact (List.mem_filter.mp mapped).2
  have live : ∀ entry ∈ state.view.entries, entry.1.isActive cmd.now = true :=
    reconcile_invariant (fun state => ∀ entry ∈ state.view.entries, entry.1.isActive cmd.now = true)
      (fun _ _ _ _ live step => step.live notLast live) startLive run
  have stateLive : ∀ binding ∈ state.view.set, binding.isActive cmd.now = true := by
    intro binding member
    rw [← Reconciling.map_fst_entries] at member
    obtain ⟨entry, isEntry, rfl⟩ := List.mem_map.mp member
    exact live entry isEntry
  have currentLive : ∀ binding ∈ current.dropExpired cmd.now, binding.isActive cmd.now = true :=
    fun binding member => (List.mem_filter.mp member).2
  rw [activeCount_eq_length stateLive, ← activeCount_dropExpired current,
    activeCount_eq_length currentLive]
  exact length_of_reconcile run

/-! ## What the quota refuses -/

/-- The quota keeps what it owes to a request exactly where the request, if it reaches the
quota, fits. -/
theorem quotaLaw_iff (R : ContactRules K) (cmd : RegisterCommand K) (current : BindingSet)
    (policy : TenantPolicy) (dated : ∀ binding ∈ current, binding.expiresAt ≤ lastInstant) :
    QuotaLaw R cmd current policy ↔
      ∀ ops, Permitted cmd policy ops → (∃ grants state, Reconciled R cmd current policy ops grants state) →
        Fits R cmd current policy ops := by
  constructor
  · rintro law ops permitted ⟨grants, state, reconciled⟩
    by_contra misfits
    simp only [Fits, not_or, not_le, not_lt] at misfits
    obtain ⟨exceeds, notGrown, stillExceeds⟩ := misfits
    have counted := reconciled.activeCount_eq
      (lt_lastInstant dated (lt_of_le_of_lt (Nat.zero_le _) exceeds))
    apply law.spares ops grants state permitted.isExplicit reconciled (by omega)
    rw [permitted.process_eq, reconciled.explicit_eq, if_pos (by omega)]
    rfl
  · intro fits
    constructor
    · intro ops grants state isExplicit reconciled notGrown refused
      rcases permitted_or_refused R current policy isExplicit with
        permitted | ⟨rejection, earlier, other⟩
      · have within : state.view.set.activeCount cmd.now ≤ policy.maxBindingsPerAor := by
          rcases fits ops permitted ⟨grants, state, reconciled⟩ with held | fitting
          · exact le_trans notGrown held
          · by_cases empty : current.activeCount cmd.now = 0
            · omega
            · have counted := reconciled.activeCount_eq
                (lt_lastInstant dated (Nat.pos_of_ne_zero empty))
              omega
        rw [permitted.process_eq, reconciled.explicit_eq, if_neg (not_lt.mpr within)] at refused
        split at refused <;> contradiction
      · rw [earlier] at refused
        exact other (Outcome.reject.inj refused)
    · intro ops grants state isExplicit reconciled _ exceeds
      rcases process_explicit R current policy isExplicit with decided | ⟨rejection, earlier, -⟩
      · rw [decided, reconciled.explicit_eq, if_pos exceeds]
        exact ⟨_, rfl⟩
      · exact ⟨rejection, earlier⟩

section Lowered

open Reference Sip.Reference

/-- Two lines, bound by one REGISTER. -/
def twoLines : BindingSet :=
  (process rules (registerAt 0 "a" 1 (.explicit [opLine1 3600, opLine2 3600])) [] .default).committed
    |>.getD []

/-- The tenant's quota, lowered to one. -/
def loweredPolicy : TenantPolicy :=
  { TenantPolicy.default with maxBindingsPerAor := 1 }

/-- A removal that brings the lines down to the quota is spared. -/
theorem quotaLaw_removed :
    QuotaLaw rules (registerAt 60 "b" 1 (.explicit [opLine2 0])) twoLines loweredPolicy := by
  apply (quotaLaw_iff rules _ twoLines loweredPolicy (by decide +kernel)).mpr
  intro ops permitted _
  obtain rfl := ContactOps.explicit.inj permitted.isExplicit
  decide +kernel

/-- A refresh of one of the lines, read after the quota was lowered. -/
def refreshSecond : RegisterCommand kernel :=
  registerAt 60 "b" 1 (.explicit [opLine2 3600])

/-- A refresh of one of the lines is refused. -/
theorem not_quotaLaw :
    ¬ ∀ (cmd : RegisterCommand kernel) (current : BindingSet) (policy : TenantPolicy),
      QuotaLaw rules cmd current policy := by
  intro law
  have ends : (reconcile rules refreshSecond (.start (twoLines.dropExpired refreshSecond.now))
      ([opLine2 3600].zip [3600])).toOption.map (fun state =>
        (state.pending.length, state.view.set.activeCount refreshSecond.now)) = some (0, 2) := by
    decide +kernel
  obtain ⟨state, reached, counted⟩ := Data.exists_ok_of_map ends
  obtain ⟨nonePending, stays⟩ := Prod.mk.inj counted
  have reconciled : Reconciled rules refreshSecond twoLines loweredPolicy [opLine2 3600] [3600] state := by
    refine ⟨List.cons_ne_nil _ _, by decide +kernel, reached, ?_⟩
    rw [List.length_eq_zero_iff.mp nonePending]
    exact fun deferred member => absurd member List.not_mem_nil
  have notGrown : state.view.set.activeCount refreshSecond.now ≤
      twoLines.activeCount refreshSecond.now := by
    rw [stays]
    decide +kernel
  have refused : process rules refreshSecond twoLines loweredPolicy = .reject quotaRefusal := by
    decide +kernel
  exact (law _ _ _).spares _ _ _ rfl reconciled notGrown refused

end Lowered

end SipxClstr.Registrar
