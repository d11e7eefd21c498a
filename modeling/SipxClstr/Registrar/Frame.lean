import SipxClstr.Registrar.Delivery
import SipxClstr.Registrar.History
import SipxClstr.Registrar.Reference

/-!
# What a spent token leaves alone

A binding that a request with the same `Call-ID` and a `CSeq` at least as high has written
is not the request's to change.  It stands unwritten through every operation, whatever the
operations around it add, replace and remove.
-/

namespace SipxClstr.Registrar

open SipxClstr.Sip Reactive Reactive.Machine

variable {K : Kernel} {R : ContactRules K}

/-- The binding is live, and the request's token is not newer than the one that wrote it. -/
structure Spent (cmd : RegisterCommand K) (binding : Binding) : Prop where
  live : binding.isActive cmd.now = true
  sameCall : binding.callId = cmd.callId
  notNewer : cmd.cseq ≤ binding.cseq

/-- The binding is in the view, and no operation of the request wrote it. -/
def Stands (binding : Binding) (view : Reconciling K) : Prop :=
  ∃ entry ∈ view.entries, entry.1 = binding ∧ entry.2.writtenHere = false

theorem Stands.mem {binding : Binding} {view : Reconciling K} (stands : Stands binding view) :
    binding ∈ view.set := by
  rcases stands with ⟨entry, member, rfl, -⟩
  rw [← view.map_fst_entries]
  exact List.mem_map_of_mem member

theorem stands_new {binding : Binding} {set : BindingSet} (member : binding ∈ set) :
    Stands binding (Reconciling.new set : Reconciling K) := by
  rcases List.getElem_of_mem member with ⟨index, bound, rfl⟩
  refine ⟨(set[index], ⟨index, K.parseUri set[index].contact, false⟩), ?_, rfl, rfl⟩
  rw [Reconciling.entries_new]
  exact List.mem_mapIdx.mpr ⟨index, bound, rfl⟩

/-- An operation that changes an entry does not change one whose token the request spends
again. -/
theorem Applies.ne_of_spent {cmd : RegisterCommand K} {entry other : Entry K}
    (applies : Applies cmd entry) (spent : Spent cmd other.1)
    (unwritten : other.2.writtenHere = false) : other ≠ entry := by
  rintro rfl
  rcases applies with written | otherCall | newer
  · rw [unwritten] at written
    contradiction
  · exact otherCall spent.sameCall
  · exact absurd spent.notNewer (not_le.mpr newer)

/-- Every operation leaves such a binding where it is. -/
theorem OpStep.stands {cmd : RegisterCommand K} {state next : Reconciliation K} {op : ContactOp K}
    {granted : Nat} (step : OpStep R cmd state op granted (.ok next)) {binding : Binding}
    (spent : Spent cmd binding) (stands : Stands binding state.view) : Stands binding next.view := by
  rcases stands with ⟨entry, member, rfl, unwritten⟩
  refine ⟨entry, ?_, rfl, unwritten⟩
  cases step with
  | ignored _ _ => exact member
  | retried _ _ _ _ _ _ => exact member
  | deferred _ _ _ _ _ _ => exact member
  | added _ _ =>
      rw [Reconciling.entries_insert]
      rw [← List.take_append_drop (state.view.set.position R (bindingFor op cmd granted cmd.now))
        state.view.entries] at member
      rcases List.mem_append.mp member with earlier | later
      · exact List.mem_append_left _ earlier
      · exact List.mem_append_right _ (List.mem_cons_of_mem _ later)
  | removed before gone after first applies _ =>
      rw [Reconciling.entries_remove first.split]
      rw [first.split] at member
      rcases List.mem_append.mp member with earlier | rest
      · exact List.mem_append_left _ earlier
      rcases List.mem_cons.mp rest with isGone | later
      · exact absurd isGone (applies.ne_of_spent spent unwritten)
      · exact List.mem_append_right _ later
  | replaced before old after first applies _ =>
      rw [Reconciling.entries_replace first.split]
      rw [first.split] at member
      rcases List.mem_append.mp member with earlier | rest
      · exact List.mem_append_left _ earlier
      rcases List.mem_cons.mp rest with isOld | later
      · exact absurd isOld (applies.ne_of_spent spent unwritten)
      · exact List.mem_append_right _ (List.mem_cons_of_mem _ later)

/-- A wildcard that is committed spends no token of a live binding. -/
theorem not_spent_of_wildcard {cmd : RegisterCommand K} {current set : BindingSet}
    {response : Accepted} (committed : wildcard cmd current = .commit set response)
    {binding : Binding} (member : binding ∈ current) : ¬ Spent cmd binding := by
  intro spent
  unfold wildcard at committed
  split at committed
  · contradiction
  simp only at committed
  split at committed
  · contradiction
  next noneSpent =>
    apply noneSpent
    rw [List.any_eq_true]
    refine ⟨binding, List.mem_filter.mpr ⟨member, spent.live⟩, ?_⟩
    simp only [spent.sameCall, spent.notNewer, decide_true, Bool.and_self]

/-- What a commit leaves as it was: every live binding of the request's own `Call-ID` that
its `CSeq` does not exceed. -/
theorem mem_of_commit {cmd : RegisterCommand K} {current set : BindingSet} {policy : TenantPolicy}
    {response : Accepted} (committed : process R cmd current policy = .commit set response)
    {binding : Binding} (member : binding ∈ current) (spent : Spent cmd binding) : binding ∈ set := by
  rcases process_commit committed with
    ⟨isWildcard, -⟩ | ⟨ops, grants, state, -, -, reconciled, rfl, -, -⟩
  · unfold process at committed
    simp only [isWildcard] at committed
    split at committed
    · contradiction
    split at committed
    · contradiction
    · exact absurd spent (not_spent_of_wildcard committed member)
  · have live : binding ∈ current.dropExpired cmd.now := List.mem_filter.mpr ⟨member, spent.live⟩
    apply Stands.mem
    exact reconcile_invariant (fun state => Stands binding state.view)
      (fun _ _ _ _ stands step => step.stands spent stands) (stands_new live)
      reconciled.reconciled

/-- What a request that commits nothing writes. -/
theorem registrar_eq_of_committed_none {cmd : RegisterCommand K} {set : BindingSet}
    {policy : TenantPolicy} (nothing : (process R cmd set policy).committed = none) :
    (registrar R set (cmd, policy)).1 = set := by
  change (process R cmd set policy).committed.getD set = set
  rw [nothing, Option.getD_none]

/-- One request leaves a binding whose token it spends again. -/
theorem mem_registrar {set : BindingSet} {registration : Registration K} {binding : Binding}
    (member : binding ∈ set) (spent : Spent registration.1 binding) :
    binding ∈ (registrar R set registration).1 := by
  rcases registration with ⟨cmd, policy⟩
  cases outcome : process R cmd set policy with
  | commit committed response =>
      change binding ∈ (process R cmd set policy).committed.getD set
      rw [outcome]
      exact mem_of_commit outcome member spent
  | noop response =>
      rw [registrar_eq_of_committed_none (by rw [outcome]; rfl)]
      exact member
  | reject rejection =>
      rw [registrar_eq_of_committed_none (by rw [outcome]; rfl)]
      exact member

theorem mem_after {history : List (Registration K)} {set : BindingSet} {binding : Binding}
    (member : binding ∈ set) (spent : ∀ registration ∈ history, Spent registration.1 binding) :
    binding ∈ after (registrar R) set history := by
  induction history generalizing set with
  | nil => exact member
  | cons registration rest ih =>
      rcases List.forall_mem_cons.mp spent with ⟨first, later⟩
      exact ih (mem_registrar member first) later

/-- The frame of an ordering token.  A commit keeps every live binding of the request's
`Call-ID` whose `CSeq` is not below the request's; any other outcome writes nothing; and in
a history no request changes a binding that a token not older than its own last wrote. -/
theorem ordering_frame (R : ContactRules K) :
    (∀ cmd current policy set response, process R cmd current policy = .commit set response →
      ∀ binding ∈ current, Spent cmd binding → binding ∈ set) ∧
    (∀ cmd current policy, (∀ set response, process R cmd current policy ≠ .commit set response) →
      (registrar R current (cmd, policy)).1 = current) ∧
    ∀ set past later binding, binding ∈ after (registrar R) set past →
      (∀ registration ∈ later, Spent registration.1 binding) →
        binding ∈ after (registrar R) set (past ++ later) := by
  refine ⟨?_, ?_, ?_⟩
  · intro cmd current policy set response committed binding member spent
    exact mem_of_commit committed member spent
  · intro cmd current policy uncommitted
    apply registrar_eq_of_committed_none
    cases outcome : process R cmd current policy with
    | commit set response => exact absurd outcome (uncommitted set response)
    | noop response => rfl
    | reject rejection => rfl
  · intro set past later binding member spent
    rw [after_append]
    exact mem_after member spent

section Respelled

open Reference Sip.Reference

/-- A contact refreshed under a spent token stands, while the request's other contact is
added. -/
example :
    let bound := (process rules (registerAt 0 "a" 2 (.explicit [opBare 3600])) [] .default).committed
    (bound.bind fun set => (process rules (registerAt 60 "a" 2
      (.explicit [opBare 3600,
        Reference.contactOp "sip:x@g" (uri "sip:x@g") (by decide +kernel) 600])) set
      .default).committed.map fun next => set.all (· ∈ next)) = some true := by
  decide +kernel

end Respelled

end SipxClstr.Registrar
