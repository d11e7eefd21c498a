import SipxClstr.Registrar.Reconcile
import SipxClstr.Reactive.Run

/-!
# Histories of one address-of-record

The sets an address-of-record goes through as REGISTERs are decided on one after
another, each under the policy of its tenant, and the rule by which what every
operation keeps is kept by every history.
-/

namespace SipxClstr.Registrar

open SipxClstr.Sip Reactive Reactive.Machine

variable {K : Kernel}

/-- A REGISTER, and the policy it is judged against. -/
abbrev Registration (K : Kernel) := RegisterCommand K × TenantPolicy

/-- One REGISTER after another: a commit installs its set. -/
def registrar (R : ContactRules K) : Machine BindingSet (Registration K) Outcome :=
  fun set (cmd, policy) =>
    let outcome := process R cmd set policy
    (outcome.committed.getD set, [outcome])

/-- `condition` holds where each operation of an explicit request that is granted is
applied. -/
def AlongRequest (R : ContactRules K)
    (condition : RegisterCommand K → Reconciliation K → ContactOp K → Nat → Prop)
    (set : BindingSet) (registration : Registration K) : Prop :=
  match registration.1.contacts with
  | .wildcard => True
  | .explicit ops =>
      match grantedExpiries registration.1 registration.2 ops with
      | .error _ => True
      | .ok grants =>
          AlongOps R registration.1 (condition registration.1)
            (.start (set.dropExpired registration.1.now)) (ops.zip grants)

instance (R : ContactRules K)
    (condition : RegisterCommand K → Reconciliation K → ContactOp K → Nat → Prop)
    [∀ cmd state op granted, Decidable (condition cmd state op granted)] (set : BindingSet)
    (registration : Registration K) : Decidable (AlongRequest R condition set registration) := by
  unfold AlongRequest
  split
  · infer_instance
  · split <;> infer_instance

/-- The index and the binding an operation replaces, if it replaces one. -/
def replaces (R : ContactRules K) (cmd : RegisterCommand K) (state : Reconciliation K)
    (op : ContactOp K) (granted : Nat) : Option (Nat × Binding) := do
  let index ← state.view.find R op.uri
  let stored ← state.view.get index
  if granted = 0 || (!state.view.writtenHere index && stored.callId = cmd.callId &&
      cmd.cseq ≤ stored.cseq) then
    none
  else
    some (index, stored)

theorem replaces_of_firstMatch {R : ContactRules K} {cmd : RegisterCommand K}
    {state : Reconciliation K} {op : ContactOp K} {granted : Nat} {before after : List (Entry K)}
    {entry : Entry K} (first : FirstMatch R op.uri state.view.entries before entry after)
    (applies : Applies cmd entry) (positive : granted ≠ 0) :
    replaces R cmd state op granted = some (before.length, entry.1) := by
  have durable : ¬ (entry.2.writtenHere = false ∧ entry.1.callId = cmd.callId ∧
      cmd.cseq ≤ entry.1.cseq) := by
    rintro ⟨unwritten, sameCall, notNewer⟩
    rcases applies with written | otherCall | newer
    · rw [unwritten] at written
      contradiction
    · exact otherCall sameCall
    · omega
  simp only [replaces, Reconciling.find_of_firstMatch first, Reconciling.get_of_split first.split,
    Reconciling.writtenHere_of_split first.split, Option.bind_eq_bind, Option.bind_some]
  rw [if_neg]
  simpa [positive, and_assoc] using durable

/-- The invariant rule for histories.  Reaping keeps the invariant; it is restated for
a reconciliation, kept by every operation wherever `condition` holds, and read back
from the reconciled set. -/
theorem registrar_invariant {R : ContactRules K}
    {condition : RegisterCommand K → Reconciliation K → ContactOp K → Nat → Prop}
    (invariant : BindingSet → Prop) (property : Reconciliation K → Prop) (empty : invariant [])
    (starts : ∀ set now, invariant set → property (.start (set.dropExpired now)))
    (preserved : ∀ cmd state op granted next, property state → condition cmd state op granted →
      OpStep R cmd state op granted (.ok next) → property next)
    (ends : ∀ state, property state → invariant state.view.set)
    {history : List (Registration K)}
    (along : Along (registrar R) (AlongRequest R condition) [] history) :
    invariant (after (registrar R) [] history) := by
  refine run_induction (registrar R) (fun _ _ set => invariant set) empty
    (fun _ _ set registration holds request => ?_) along
  obtain ⟨cmd, policy⟩ := registration
  change invariant ((process R cmd set policy).committed.getD set)
  cases outcome : process R cmd set policy with
  | noop response => exact holds
  | reject rejection => exact holds
  | commit committed response =>
      rcases process_commit outcome with
        ⟨_, rfl⟩ | ⟨ops, grants, state, isExplicit, _, reconciled, rfl, _, _⟩
      · exact empty
      · simp only [AlongRequest, isExplicit, reconciled.granted] at request
        exact ends state (reconcile_induction property (preserved cmd) (starts set cmd.now holds)
          request reconciled.reconciled)

end SipxClstr.Registrar
