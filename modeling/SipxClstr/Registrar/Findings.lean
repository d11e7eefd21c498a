import SipxClstr.Registrar.Delivery

/-!
# What operations find

Each operation of a REGISTER meets the set as the operations before it left it, and goes by
the first binding there that its contact matches.  What a request finds tells how many
bindings it leaves, and whether it leaves the set it met.
-/

namespace SipxClstr.Registrar

open SipxClstr.Sip

variable {K : Kernel}

/-- An operation with its grant, and the first entry its contact matches in the set it meets. -/
structure Finding (K : Kernel) where
  op : ContactOp K
  granted : Nat
  found : Option (Entry K)

/-- The first entry that this contact matches. -/
def Reconciling.first (R : ContactRules K) (view : Reconciling K) (uri : K.Uri) :
    Option (Entry K) :=
  view.entries.find? (Entry.isMatch R uri)

/-- What the operations of a request find, in the order it states them. -/
def findings (R : ContactRules K) (cmd : RegisterCommand K) :
    Reconciliation K → List (OpRequest K) → List (Finding K)
  | _, [] => []
  | state, (op, granted) :: rest =>
      ⟨op, granted, state.view.first R op.uri⟩ ::
        match applyOp R cmd state op granted with
        | .error _ => []
        | .ok next => findings R cmd next rest

/-- What the operations of a request find among the live bindings of a set. -/
def findingsIn (R : ContactRules K) (cmd : RegisterCommand K) (current : BindingSet)
    (policy : TenantPolicy) (ops : List (ContactOp K)) : List (Finding K) :=
  findings R cmd (.start (current.dropExpired cmd.now)) (requests cmd policy ops)

instance (cmd : RegisterCommand K) (entry : Entry K) : Decidable (Applies cmd entry) :=
  inferInstanceAs (Decidable (_ ∨ _ ∨ _))

namespace Finding

/-- A grant that finds nothing adds a binding. -/
def adds (finding : Finding K) : Bool :=
  finding.found.isNone && finding.granted ≠ 0

/-- A removal takes away the binding it finds, unless an earlier delivery wrote it. -/
def takes (cmd : RegisterCommand K) (finding : Finding K) : Bool :=
  finding.found.any (fun entry => Applies cmd entry) && finding.granted = 0

end Finding

/-- How many bindings these operations add. -/
def additions (findings : List (Finding K)) : Nat :=
  findings.countP Finding.adds

/-- How many they take away. -/
def removals (cmd : RegisterCommand K) (findings : List (Finding K)) : Nat :=
  findings.countP (Finding.takes cmd)

section First

variable {R : ContactRules K} {view : Reconciling K} {uri : K.Uri} {before after : List (Entry K)}
  {entry : Entry K}

theorem first_eq_none_iff :
    view.first R uri = none ↔ ∀ entry ∈ view.entries, entry.isMatch R uri = false := by
  simp only [Reconciling.first, List.find?_eq_none, Bool.not_eq_true]

theorem FirstMatch.first_eq (first : FirstMatch R uri view.entries before entry after) :
    view.first R uri = some entry := by
  have noEarlier : before.find? (Entry.isMatch R uri) = none :=
    List.find?_eq_none.mpr fun other member => Bool.not_eq_true _ ▸ first.earlier other member
  rw [Reconciling.first, first.split, List.find?_append, noEarlier, Option.none_or,
    List.find?_cons_of_pos first.isMatch]

end First

/-! ## Induction over what is found -/

section Induction

variable {R : ContactRules K} {cmd : RegisterCommand K} {all : List (OpRequest K)}
  {start final : Reconciliation K}

/-- Induction over the operations of a request, each of which is shown to go through where
`condition` holds of what it finds. -/
theorem findings_total (condition : Finding K → Prop)
    (property : List (Finding K) → Reconciliation K → Prop)
    (advances : ∀ past op granted state result, property past state →
      condition ⟨op, granted, state.view.first R op.uri⟩ → OpStep R cmd state op granted result →
        ∃ next, result = .ok next ∧
          property (past ++ [⟨op, granted, state.view.first R op.uri⟩]) next)
    (initial : property [] start) (holds : ∀ finding ∈ findings R cmd start all, condition finding) :
    ∃ final, reconcile R cmd start all = .ok final ∧ property (findings R cmd start all) final := by
  suffices general : ∀ past state, property past state →
      (∀ finding ∈ findings R cmd state all, condition finding) →
        ∃ final, reconcile R cmd state all = .ok final ∧
          property (past ++ findings R cmd state all) final from
    general [] start initial holds
  clear initial holds
  induction all with
  | nil =>
      intro past state reached _
      refine ⟨state, rfl, ?_⟩
      rw [findings, List.append_nil]
      exact reached
  | cons head rest ih =>
      intro past state reached holds
      obtain ⟨op, granted⟩ := head
      unfold findings at holds ⊢
      obtain ⟨next, stepped, kept⟩ := advances past op granted state _ reached
        (holds _ List.mem_cons_self) (applyOp_step R cmd state op granted)
      rw [reconcile]
      rw [stepped] at holds ⊢
      obtain ⟨final, reconciled, reaches⟩ :=
        ih _ next kept fun finding member => holds finding (List.mem_cons_of_mem _ member)
      refine ⟨final, reconciled, ?_⟩
      rwa [List.append_assoc, List.singleton_append] at reaches

/-- Induction over the operations of a request that goes through. -/
theorem findings_induction (property : List (Finding K) → Reconciliation K → Prop)
    (preserved : ∀ past op granted state next, property past state →
      OpStep R cmd state op granted (.ok next) →
        property (past ++ [⟨op, granted, state.view.first R op.uri⟩]) next)
    (initial : property [] start) (reconciled : reconcile R cmd start all = .ok final) :
    property (findings R cmd start all) final := by
  suffices general : ∀ past state, property past state → reconcile R cmd state all = .ok final →
      property (past ++ findings R cmd state all) final from
    general [] start initial reconciled
  clear initial reconciled
  induction all with
  | nil =>
      intro past state reached reconciled
      rw [reconcile, Except.ok.injEq] at reconciled
      rw [findings, List.append_nil, ← reconciled]
      exact reached
  | cons head rest ih =>
      intro past state reached reconciled
      obtain ⟨op, granted⟩ := head
      have step := applyOp_step R cmd state op granted
      unfold reconcile at reconciled
      unfold findings
      cases stepped : applyOp R cmd state op granted with
      | error rejection =>
          rw [stepped] at reconciled
          contradiction
      | ok next =>
          rw [stepped] at step reconciled
          have reaches := ih _ next (preserved past op granted state next reached step) reconciled
          rwa [List.append_assoc, List.singleton_append] at reaches

end Induction

/-! ## How many bindings a request leaves -/

section Counting

variable {R : ContactRules K} {cmd : RegisterCommand K} {all : List (OpRequest K)}
  {start final state next : Reconciliation K} {op : ContactOp K} {granted : Nat}
  {past : List (Finding K)}

theorem additions_concat (finding : Finding K) :
    additions (past ++ [finding]) = additions past + if finding.adds then 1 else 0 := by
  rw [additions, additions, List.countP_append, List.countP_singleton]

theorem removals_concat (finding : Finding K) :
    removals cmd (past ++ [finding]) =
      removals cmd past + if finding.takes cmd then 1 else 0 := by
  rw [removals, removals, List.countP_append, List.countP_singleton]

/-- What a retry finds it does not take away. -/
theorem takes_of_retries {entry : Entry K} (retries : Retries cmd entry) :
    Finding.takes cmd ⟨op, granted, some entry⟩ = false := by
  have kept : ¬ Applies cmd entry := fun applies => applies.not_retries retries
  simp [Finding.takes, kept]

/-- What an operation finds tells how many bindings stand behind it. -/
theorem OpStep.length_eq (step : OpStep R cmd state op granted (.ok next)) :
    next.view.set.length + (if Finding.takes cmd ⟨op, granted, state.view.first R op.uri⟩ then 1 else 0) =
      state.view.set.length +
        if Finding.adds ⟨op, granted, state.view.first R op.uri⟩ then 1 else 0 := by
  cases step with
  | ignored absent removal =>
      simp [Finding.takes, Finding.adds, first_eq_none_iff.mpr absent, removal]
  | added absent positive =>
      have longer : (state.view.insert R (bindingFor op cmd granted cmd.now) op.uri).set.length =
          state.view.set.length + 1 := by
        rw [← Reconciling.length_entries, Reconciling.entries_insert, List.length_append,
          List.length_cons, ← Nat.add_assoc, ← List.length_append, List.take_append_drop,
          Reconciling.length_entries]
      simp [Finding.takes, Finding.adds, first_eq_none_iff.mpr absent, positive, longer]
  | retried before entry after first retries _ =>
      rw [first.first_eq, takes_of_retries retries]
      simp [Finding.adds]
  | deferred before entry after first retries _ =>
      rw [first.first_eq, takes_of_retries retries]
      simp [Finding.adds]
  | removed before entry after first applies removal =>
      have shorter : (state.view.remove before.length).set.length + 1 = state.view.set.length := by
        rw [Reconciling.set_remove first.split, Reconciling.set_eq_of_split first.split,
          List.length_append, List.length_append, List.length_cons, Nat.add_assoc]
      simp [Finding.takes, Finding.adds, first.first_eq, applies, removal, shorter]
  | replaced before entry after first applies positive =>
      have same : (state.view.replace before.length
          (bindingFor op cmd granted entry.1.registeredAt) op.uri).set.length =
            state.view.set.length := by
        rw [Reconciling.set_replace first.split, Reconciling.set_eq_of_split first.split,
          List.length_append, List.length_append, List.length_cons, List.length_cons]
      simp [Finding.takes, Finding.adds, first.first_eq, positive, same]

/-- A request leaves the bindings it met, those it added, and not those it took away. -/
theorem length_of_reconcile (reconciled : reconcile R cmd start all = .ok final) :
    final.view.set.length + removals cmd (findings R cmd start all) =
      start.view.set.length + additions (findings R cmd start all) := by
  refine findings_induction (fun past state =>
    state.view.set.length + removals cmd past = start.view.set.length + additions past)
      ?_ rfl reconciled
  intro past op granted state next counted step
  have here := step.length_eq
  rw [removals_concat, additions_concat]
  omega

end Counting

end SipxClstr.Registrar
