import SipxClstr.Registrar.Recognition
import SipxClstr.Registrar.History
import SipxClstr.Registrar.Reference

/-!
# Delivering a REGISTER twice

A second delivery of a REGISTER meets the set the first one committed, and changes nothing
exactly where it recognizes what it finds there.  That much is certain of a request whose
operations tell the contacts they meet apart.  An operation whose group left a binding finds
that binding, and finds that it holds what the group asks for; an operation whose group left
none adds at most a binding that a later operation of the group takes back.
-/

namespace SipxClstr.Registrar

open SipxClstr.Sip

variable {K : Kernel}

/-- Induction over the operations of a request, each of which is shown to go through. -/
theorem reconcile_total {R : ContactRules K} {cmd : RegisterCommand K} {all : List (OpRequest K)}
    (property : List (OpRequest K) → Reconciliation K → Prop)
    (advances : ∀ past op granted state result, (op, granted) ∈ all → property past state →
      OpStep R cmd state op granted result →
        ∃ next, result = .ok next ∧ property (past ++ [(op, granted)]) next)
    {start : Reconciliation K} (initial : property [] start) :
    ∃ final, reconcile R cmd start all = .ok final ∧ property all final := by
  suffices general : ∀ past rest state, all = past ++ rest → property past state →
      ∃ final, reconcile R cmd state rest = .ok final ∧ property all final from
    general [] all start rfl initial
  intro past rest
  induction rest generalizing past with
  | nil =>
      intro state split holds
      refine ⟨state, rfl, ?_⟩
      rw [split, List.append_nil]
      exact holds
  | cons head rest ih =>
      intro state split holds
      obtain ⟨op, granted⟩ := head
      have member : (op, granted) ∈ all := by
        rw [split]
        exact List.mem_append_right _ List.mem_cons_self
      obtain ⟨next, stepped, kept⟩ :=
        advances past op granted state _ member holds (applyOp_step R cmd state op granted)
      unfold reconcile
      rw [stepped]
      exact ih (past ++ [(op, granted)]) next (by rw [split, List.append_assoc]; rfl) kept

section Groups

variable {R : ContactRules K} {known : List K.Uri} {requests : List (OpRequest K)}
  {uri other : K.Uri}

instance (ops : List K.Uri) : Decidable (Unambiguous R known ops) :=
  inferInstanceAs (Decidable (∀ uri ∈ known, ∀ first ∈ ops, ∀ second ∈ ops,
    R.equivalent uri first = true → R.equivalent uri second = R.equivalent first second))

instance (cmd : RegisterCommand K) (set : BindingSet) (ops : List (ContactOp K)) :
    Decidable (TellsApart R cmd set ops) :=
  inferInstanceAs (Decidable (Unambiguous R _ _))

/-- Equivalent operations stand for one group. -/
theorem Unambiguous.equivalent_eq {ops : List K.Uri} (unambiguous : Unambiguous R known ops)
    (uriOp : uri ∈ ops) (otherOp : other ∈ ops) (equivalent : R.equivalent uri other = true)
    {contact : K.Uri} (member : contact ∈ known) :
    R.equivalent contact uri = R.equivalent contact other := by
  cases first : R.equivalent contact uri with
  | true => rw [unambiguous contact member uri uriOp other otherOp first, equivalent]
  | false =>
      cases second : R.equivalent contact other with
      | false => rfl
      | true =>
          have back := unambiguous contact member other otherOp uri uriOp second
          rw [first, R.equivalent_symm _ _ equivalent] at back
          contradiction

theorem Unambiguous.lastGrant_eq
    (unambiguous : Unambiguous R known (requests.map fun request => request.1.uri))
    (opsKnown : ∀ request ∈ requests, request.1.uri ∈ known)
    (uriOp : uri ∈ requests.map fun request => request.1.uri)
    (otherOp : other ∈ requests.map fun request => request.1.uri)
    (equivalent : R.equivalent uri other = true) :
    lastGrant R uri requests = lastGrant R other requests := by
  unfold lastGrant group
  congr 2
  apply List.filter_congr
  intro request member
  exact unambiguous.equivalent_eq uriOp otherOp equivalent (opsKnown request member)

end Groups

/-- The set a second delivery meets: each group finds a binding first that holds what
its last operation grants, or ends in a removal and finds none. -/
def Settled (R : ContactRules K) (cmd : RegisterCommand K) (set : BindingSet)
    (requests : List (OpRequest K)) : Prop :=
  ∀ request ∈ requests,
    (lastGrant R request.1.uri requests = some 0 ∧ matching R request.1.uri set = []) ∨
      ∃ granted binding rest, lastGrant R request.1.uri requests = some granted ∧
        matching R request.1.uri set = binding :: rest ∧ Holds cmd granted binding

/-- The request takes back what this contact adds. -/
def TakesBack (R : ContactRules K) (requests : List (OpRequest K)) (uri : K.Uri) : Prop :=
  lastGrant R uri requests = some 0

instance (R : ContactRules K) (requests : List (OpRequest K)) (uri : K.Uri) :
    Decidable (TakesBack R requests uri) :=
  inferInstanceAs (Decidable (_ = _))

/-- Whether an entry belongs to a group that ends in a removal. -/
def withdrawn (R : ContactRules K) (requests : List (OpRequest K)) (entry : Entry K) : Bool :=
  requests.any fun request => TakesBack R requests request.1.uri && entry.isMatch R request.1.uri

/-- A deferred decision of a second delivery is on what a group found first, and waits
for what the group's last operation grants. -/
def Waits (R : ContactRules K) (cmd : RegisterCommand K) (set : BindingSet)
    (requests past : List (OpRequest K)) (deferred : Pending) : Prop :=
  ∃ request ∈ requests, ∃ entry rest granted,
    held R request.1.uri (Reconciling.new set : Reconciling K) = entry :: rest ∧
      deferred.slot = entry.2.id ∧ deferred.stored = entry.1 ∧
        lastGrant R request.1.uri requests = some granted ∧ Holds cmd granted entry.1 ∧
          lastGrant R request.1.uri past = some deferred.net

/-- How far a second delivery has come.  The bindings it met stand as they were, and
beside them only what a group that ends in a removal has added. -/
structure Replaying (R : ContactRules K) (cmd : RegisterCommand K) (known : List K.Uri)
    (set : BindingSet) (requests past : List (OpRequest K)) (state : Reconciliation K) : Prop where
  within : Known known state.view
  named : Named state.view
  kept : (state.view.entries.filter fun entry => !withdrawn R requests entry) =
    (Reconciling.new set : Reconciling K).entries
  written : ∀ entry ∈ state.view.entries, withdrawn R requests entry = true →
    entry.2.writtenHere = true
  single : ∀ request ∈ requests, TakesBack R requests request.1.uri →
    (held R request.1.uri state.view).length ≤ 1
  emptied : ∀ request ∈ requests, TakesBack R requests request.1.uri →
    lastGrant R request.1.uri past = some 0 → held R request.1.uri state.view = []
  unchanged : state.changed = false →
    state.view.entries = (Reconciling.new set : Reconciling K).entries
  adds : state.changed = true →
    ∃ request ∈ requests, TakesBack R requests request.1.uri ∧ request.2 ≠ 0
  waiting : ∀ deferred ∈ state.pending, Waits R cmd set requests past deferred

section Second

variable {R : ContactRules K} {cmd : RegisterCommand K} {known : List K.Uri} {set : BindingSet}
  {requests past : List (OpRequest K)} {state next : Reconciliation K} {op : ContactOp K}
  {granted : Nat} {result : Except Rejection (Reconciliation K)}

/-- What holds a grant was granted something. -/
theorem Holds.positive {binding : Binding} (holds : Holds cmd granted binding) : granted ≠ 0 := by
  rintro rfl
  have nothing := holds.holds
  rw [alreadyHolds, if_pos rfl] at nothing
  contradiction

/-- What a binding that holds a grant is matched by is not taken back. -/
theorem not_withdrawn
    (unambiguous : Unambiguous R known (requests.map fun request => request.1.uri))
    (opsKnown : ∀ request ∈ requests, request.1.uri ∈ known) {view : Reconciling K}
    (within : Known known view) {request : OpRequest K} (member : request ∈ requests)
    (notBack : ¬ TakesBack R requests request.1.uri) {entry : Entry K}
    (entryMember : entry ∈ view.entries) (isMatch : entry.isMatch R request.1.uri = true) :
    withdrawn R requests entry = false := by
  apply Bool.eq_false_of_not_eq_true
  intro isWithdrawn
  obtain ⟨other, otherMember, back⟩ := List.any_eq_true.mp isWithdrawn
  rw [Bool.and_eq_true, decide_eq_true_eq] at back
  have uriOp : ∀ {request : OpRequest K}, request ∈ requests →
      request.1.uri ∈ requests.map fun request => request.1.uri :=
    fun member => List.mem_map_of_mem (f := fun request : OpRequest K => request.1.uri) member
  have equivalent := unambiguous.isMatch_eq within (uriOp otherMember) (uriOp member) entryMember
    back.2
  rw [isMatch] at equivalent
  have same := unambiguous.lastGrant_eq opsKnown (uriOp otherMember) (uriOp member) equivalent.symm
  exact notBack (same.symm.trans back.1)

/-- Where a group keeps its bindings it matches what it matched at the start. -/
theorem Replaying.held_eq (replaying : Replaying R cmd known set requests past state)
    (unambiguous : Unambiguous R known (requests.map fun request => request.1.uri))
    (opsKnown : ∀ request ∈ requests, request.1.uri ∈ known) {request : OpRequest K}
    (member : request ∈ requests) (notBack : ¬ TakesBack R requests request.1.uri) :
    held R request.1.uri state.view =
      held R request.1.uri (Reconciling.new set : Reconciling K) := by
  rw [held, held, ← replaying.kept, List.filter_filter]
  apply List.filter_congr
  intro entry entryMember
  cases isMatch : Entry.isMatch R request.1.uri entry with
  | false => rfl
  | true =>
      rw [not_withdrawn unambiguous opsKnown replaying.within member notBack entryMember isMatch]
      rfl

theorem mem_of_held {view : Reconciling K} {uri : K.Uri} {entry : Entry K} {rest : List (Entry K)}
    (isHeld : held R uri view = entry :: rest) :
    entry ∈ view.entries ∧ entry.isMatch R uri = true := by
  have member : entry ∈ held R uri view := by
    rw [isHeld]
    exact List.mem_cons_self
  exact List.mem_filter.mp member

theorem Replaying.mem_start (replaying : Replaying R cmd known set requests past state)
    {entry : Entry K} (member : entry ∈ (Reconciling.new set : Reconciling K).entries) :
    entry ∈ state.view.entries ∧ withdrawn R requests entry = false := by
  rw [← replaying.kept, List.mem_filter, Bool.not_eq_true'] at member
  exact member

theorem Replaying.within_start (replaying : Replaying R cmd known set requests past state) :
    Known known (Reconciling.new set : Reconciling K) :=
  fun entry member => replaying.within entry (replaying.mem_start member).1

/-- An operation that finds a binding again answers for every decision on it. -/
theorem Replaying.waits_rebase (replaying : Replaying R cmd known set requests past state)
    (unambiguous : Unambiguous R known (requests.map fun request => request.1.uri))
    (member : (op, granted) ∈ requests) {entry : Entry K} {rest : List (Entry K)}
    (found : held R op.uri (Reconciling.new set : Reconciling K) = entry :: rest) :
    ∀ deferred ∈ rebase entry.2.id granted state.pending,
      Waits R cmd set requests (past ++ [(op, granted)]) deferred := by
  have uriOp : ∀ {request : OpRequest K}, request ∈ requests →
      request.1.uri ∈ requests.map fun request => request.1.uri :=
    fun member => List.mem_map_of_mem (f := fun request : OpRequest K => request.1.uri) member
  obtain ⟨startMember, isMatch⟩ := mem_of_held found
  intro deferred deferredMember
  obtain ⟨earlier, earlierMember, rfl⟩ := List.mem_map.mp deferredMember
  obtain ⟨request, requestMember, other, others, grant, isHeld, slot, stored, isGrant, holds,
    net⟩ := replaying.waiting earlier earlierMember
  obtain ⟨otherMember, otherMatch⟩ := mem_of_held isHeld
  by_cases same : earlier.slot = entry.2.id
  · rw [if_pos same]
    have isOther : other = entry :=
      (named_new set).entry_eq otherMember startMember (slot.symm.trans same)
    rw [isOther, unambiguous.isMatch_eq replaying.within_start (uriOp member)
      (uriOp requestMember) startMember isMatch] at otherMatch
    exact ⟨request, requestMember, other, others, grant, isHeld, slot, stored, isGrant, holds,
      lastGrant_concat otherMatch⟩
  · rw [if_neg same]
    have differs : R.equivalent op.uri request.1.uri = false := by
      apply Bool.eq_false_of_not_eq_true
      intro equivalent
      rw [← unambiguous.held_eq replaying.within_start (uriOp member) (uriOp requestMember)
        equivalent, found, List.cons.injEq] at isHeld
      exact same (slot.trans (congrArg (fun entry : Entry K => entry.2.id) isHeld.1.symm))
    exact ⟨request, requestMember, other, others, grant, isHeld, slot, stored, isGrant, holds,
      by rw [lastGrant_concat_of_not differs, net]⟩

/-- An operation whose group found a binding finds it again. -/
theorem Replaying.step_settled (replaying : Replaying R cmd known set requests past state)
    (unambiguous : Unambiguous R known (requests.map fun request => request.1.uri))
    (opsKnown : ∀ request ∈ requests, request.1.uri ∈ known)
    (member : (op, granted) ∈ requests) {entry : Entry K} {rest : List (Entry K)} {last : Nat}
    (isLast : lastGrant R op.uri requests = some last)
    (found : held R op.uri (Reconciling.new set : Reconciling K) = entry :: rest)
    (holds : Holds cmd last entry.1) (step : OpStep R cmd state op granted result) :
    ∃ next, result = .ok next ∧
      Replaying R cmd known set requests (past ++ [(op, granted)]) next := by
  have uriOp : ∀ {request : OpRequest K}, request ∈ requests →
      request.1.uri ∈ requests.map fun request => request.1.uri :=
    fun member => List.mem_map_of_mem (f := fun request : OpRequest K => request.1.uri) member
  have notBack : ¬ TakesBack R requests op.uri := by
    intro back
    rw [TakesBack, isLast, Option.some.injEq] at back
    exact holds.positive back
  have heldNow : held R op.uri state.view = entry :: rest := by
    rw [← found]
    exact replaying.held_eq unambiguous opsKnown member notBack
  have unwritten := unwritten_new (mem_of_held found).1
  have isEntry : ∀ {before other after},
      FirstMatch R op.uri state.view.entries before other after → other = entry := by
    intro before other after first
    rw [first.held_eq, List.cons.injEq] at heldNow
    exact heldNow.1
  have emptied : ∀ request ∈ requests, TakesBack R requests request.1.uri →
      lastGrant R request.1.uri (past ++ [(op, granted)]) = some 0 →
        held R request.1.uri state.view = [] := by
    intro request requestMember back isRemoval
    have differs : R.equivalent op.uri request.1.uri = false := by
      apply Bool.eq_false_of_not_eq_true
      intro equivalent
      apply notBack
      rw [TakesBack, unambiguous.lastGrant_eq opsKnown (uriOp member) (uriOp requestMember)
        equivalent]
      exact back
    rw [lastGrant_concat_of_not differs] at isRemoval
    exact replaying.emptied request requestMember back isRemoval
  have rebased := replaying.waits_rebase unambiguous member found
  cases step with
  | ignored absent _ =>
      rw [held_eq_nil_iff.mpr absent] at heldNow
      contradiction
  | added absent _ =>
      rw [held_eq_nil_iff.mpr absent] at heldNow
      contradiction
  | stale before other after first _ _ older =>
      rw [isEntry first, holds.sameSequence] at older
      exact absurd older (Nat.lt_irrefl _)
  | removed before other after first applies _ =>
      exact absurd ⟨unwritten, holds.sameCall, holds.sameSequence⟩
        (isEntry first ▸ applies).not_retries
  | replaced before other after first applies _ =>
      exact absurd ⟨unwritten, holds.sameCall, holds.sameSequence⟩
        (isEntry first ▸ applies).not_retries
  | retried before other after first _ _ =>
      rw [isEntry first]
      exact ⟨_, rfl, replaying.within, replaying.named, replaying.kept, replaying.written,
        replaying.single, emptied, replaying.unchanged, replaying.adds, rebased⟩
  | deferred before other after first _ _ =>
      rw [isEntry first]
      refine ⟨_, rfl, replaying.within, replaying.named, replaying.kept, replaying.written,
        replaying.single, emptied, replaying.unchanged, replaying.adds, ?_⟩
      intro deferred deferredMember
      rcases List.mem_append.mp deferredMember with earlier | isNew
      · exact rebased deferred earlier
      · rw [List.mem_singleton.mp isNew]
        exact ⟨(op, granted), member, entry, rest, last, found, rfl, rfl, isLast, holds,
          lastGrant_concat (R.equivalent_refl op.uri)⟩

/-- What an operation of a group that ends in a removal writes or finds is withdrawn. -/
theorem withdrawn_of_match {request : OpRequest K} (member : request ∈ requests)
    (back : TakesBack R requests request.1.uri) {entry : Entry K}
    (isMatch : entry.isMatch R request.1.uri = true) : withdrawn R requests entry = true := by
  refine List.any_eq_true.mpr ⟨request, member, ?_⟩
  rw [Bool.and_eq_true, decide_eq_true_eq]
  exact ⟨back, isMatch⟩

/-- Decisions that wait are on other bindings than what is withdrawn. -/
theorem Replaying.waits_elsewhere (replaying : Replaying R cmd known set requests past state)
    (unambiguous : Unambiguous R known (requests.map fun request => request.1.uri))
    (opsKnown : ∀ request ∈ requests, request.1.uri ∈ known)
    (member : (op, granted) ∈ requests) (back : TakesBack R requests op.uri) {deferred : Pending}
    (deferredMember : deferred ∈ state.pending) :
    Waits R cmd set requests (past ++ [(op, granted)]) deferred := by
  obtain ⟨request, requestMember, entry, rest, grant, isHeld, slot, stored, isGrant, holds, net⟩ :=
    replaying.waiting deferred deferredMember
  refine ⟨request, requestMember, entry, rest, grant, isHeld, slot, stored, isGrant, holds, ?_⟩
  rw [lastGrant_concat_of_not, net]
  apply Bool.eq_false_of_not_eq_true
  intro equivalent
  have same := unambiguous.lastGrant_eq opsKnown
    (List.mem_map_of_mem (f := fun request : OpRequest K => request.1.uri) member)
    (List.mem_map_of_mem (f := fun request : OpRequest K => request.1.uri) requestMember) equivalent
  rw [isGrant] at same
  rw [TakesBack, same, Option.some.injEq] at back
  exact holds.positive back

/-- Rebasing on what is withdrawn leaves the decisions that wait. -/
theorem Replaying.rebase_withdrawn (replaying : Replaying R cmd known set requests past state)
    {entry : Entry K} (entryMember : entry ∈ state.view.entries)
    (isWithdrawn : withdrawn R requests entry = true) :
    rebase entry.2.id granted state.pending = state.pending := by
  refine (List.map_congr_left (g := id) ?_).trans (List.map_id _)
  intro deferred deferredMember
  obtain ⟨_, _, other, _, _, isHeld, slot, -⟩ := replaying.waiting deferred deferredMember
  obtain ⟨stands, stays⟩ := replaying.mem_start (mem_of_held isHeld).1
  apply if_neg
  intro same
  rw [replaying.named.entry_eq stands entryMember (slot.symm.trans same), isWithdrawn] at stays
  contradiction

/-- Whatever an operation of a group that ends in a removal does, the other groups keep
what they match. -/
theorem Replaying.step_groups (replaying : Replaying R cmd known set requests past state)
    (unambiguous : Unambiguous R known (requests.map fun request => request.1.uri))
    (opsKnown : ∀ request ∈ requests, request.1.uri ∈ known)
    (member : (op, granted) ∈ requests) (step : OpStep R cmd state op granted (.ok next))
    (single : (held R op.uri next.view).length ≤ 1)
    (emptied : granted = 0 → held R op.uri next.view = []) :
    (∀ request ∈ requests, TakesBack R requests request.1.uri →
        (held R request.1.uri next.view).length ≤ 1) ∧
      ∀ request ∈ requests, TakesBack R requests request.1.uri →
        lastGrant R request.1.uri (past ++ [(op, granted)]) = some 0 →
          held R request.1.uri next.view = [] := by
  have uriOp : ∀ {request : OpRequest K}, request ∈ requests →
      request.1.uri ∈ requests.map fun request => request.1.uri :=
    fun member => List.mem_map_of_mem (f := fun request : OpRequest K => request.1.uri) member
  have within := step.known replaying.within (opsKnown _ member)
  constructor
  · intro request requestMember back
    cases equivalent : R.equivalent op.uri request.1.uri with
    | true =>
        rwa [← unambiguous.held_eq within (uriOp member) (uriOp requestMember) equivalent]
    | false =>
        rw [step.held_eq unambiguous replaying.within (uriOp member) (uriOp requestMember)
          equivalent]
        exact replaying.single request requestMember back
  · intro request requestMember back isRemoval
    cases equivalent : R.equivalent op.uri request.1.uri with
    | true =>
        rw [lastGrant_concat equivalent, Option.some.injEq] at isRemoval
        rw [← unambiguous.held_eq within (uriOp member) (uriOp requestMember) equivalent]
        exact emptied isRemoval
    | false =>
        rw [lastGrant_concat_of_not equivalent] at isRemoval
        rw [step.held_eq unambiguous replaying.within (uriOp member) (uriOp requestMember)
          equivalent]
        exact replaying.emptied request requestMember back isRemoval

/-- A view that changes in what is withdrawn goes on where its groups do. -/
theorem Replaying.step_changed (replaying : Replaying R cmd known set requests past state)
    (unambiguous : Unambiguous R known (requests.map fun request => request.1.uri))
    (opsKnown : ∀ request ∈ requests, request.1.uri ∈ known)
    (member : (op, granted) ∈ requests) (back : TakesBack R requests op.uri)
    (step : OpStep R cmd state op granted (.ok next))
    (kept : (next.view.entries.filter fun entry => !withdrawn R requests entry) =
      state.view.entries.filter fun entry => !withdrawn R requests entry)
    (single : (held R op.uri next.view).length ≤ 1)
    (emptied : granted = 0 → held R op.uri next.view = []) (changed : next.changed = true)
    (adds : granted = 0 → state.changed = true) (pending : next.pending = state.pending) :
    Replaying R cmd known set requests (past ++ [(op, granted)]) next where
  within := step.known replaying.within (opsKnown _ member)
  named := step.named replaying.named
  kept := kept.trans replaying.kept
  written entry entryMember entryWithdrawn := by
    rcases step.mem_entries entryMember with stood | ⟨-, -, isWritten⟩
    · exact replaying.written entry stood entryWithdrawn
    · exact isWritten
  single := (replaying.step_groups unambiguous opsKnown member step single emptied).1
  emptied := (replaying.step_groups unambiguous opsKnown member step single emptied).2
  unchanged := fun isUnchanged => by
    rw [changed] at isUnchanged
    contradiction
  adds := fun _ => by
    by_cases removal : granted = 0
    · exact replaying.adds (adds removal)
    · exact ⟨(op, granted), member, back, removal⟩
  waiting := by
    rw [pending]
    exact fun deferred deferredMember =>
      replaying.waits_elsewhere unambiguous opsKnown member back deferredMember

/-- An operation whose group ends in a removal goes to what its group has added. -/
theorem Replaying.step_withdrawn (replaying : Replaying R cmd known set requests past state)
    (unambiguous : Unambiguous R known (requests.map fun request => request.1.uri))
    (opsKnown : ∀ request ∈ requests, request.1.uri ∈ known)
    (member : (op, granted) ∈ requests) (back : TakesBack R requests op.uri)
    (step : OpStep R cmd state op granted result) :
    ∃ next, result = .ok next ∧
      Replaying R cmd known set requests (past ++ [(op, granted)]) next := by
  have reflexive := R.equivalent_refl op.uri
  have isWithdrawn : ∀ {before entry after},
      FirstMatch R op.uri state.view.entries before entry after →
        withdrawn R requests entry = true :=
    fun first => withdrawn_of_match member back first.isMatch
  have wasWritten : ∀ {before entry after},
      FirstMatch R op.uri state.view.entries before entry after →
        ¬ entry.2.writtenHere = false :=
    fun first => ne_false_of_eq_true (replaying.written _ first.mem (isWithdrawn first))
  have newWithdrawn : ∀ (binding : Binding) (id : Nat),
      withdrawn R requests (binding, (⟨id, some op.uri, true⟩ : Slot K)) = true := by
    intro binding id
    apply withdrawn_of_match member back
    exact reflexive
  have noOther : ∀ {before entry after},
      FirstMatch R op.uri state.view.entries before entry after →
        after.filter (Entry.isMatch R op.uri) = [] := by
    intro before entry after first
    have single := replaying.single _ member back
    rw [first.held_eq, List.length_cons] at single
    exact List.length_eq_zero_iff.mp (by omega)
  cases step with
  | stale before entry after first unwritten _ _ => exact absurd unwritten (wasWritten first)
  | retried before entry after first retries _ => exact absurd retries.1 (wasWritten first)
  | deferred before entry after first retries _ => exact absurd retries.1 (wasWritten first)
  | ignored absent removal =>
      have empty := held_eq_nil_iff.mpr absent
      obtain ⟨single, emptied⟩ := replaying.step_groups unambiguous opsKnown member
        (.ignored absent removal) (by simp [empty]) (fun _ => empty)
      exact ⟨_, rfl, replaying.within, replaying.named, replaying.kept, replaying.written, single,
        emptied, replaying.unchanged, replaying.adds, fun deferred deferredMember =>
          replaying.waits_elsewhere unambiguous opsKnown member back deferredMember⟩
  | added absent positive =>
      have now := held_insert_of_match (bindingFor op cmd granted cmd.now) reflexive
        (held_eq_nil_iff.mpr absent)
      refine ⟨_, rfl, replaying.step_changed unambiguous opsKnown member back
        (.added absent positive) ?_ (by simp [now]) (fun removal => absurd removal positive) rfl
        (fun removal => absurd removal positive) rfl⟩
      rw [Reconciling.entries_insert, filter_middle, ← List.filter_append, List.take_append_drop]
      rw [newWithdrawn]
      rfl
  | removed before entry after first applies removal =>
      have now := (held_remove_of_first first).trans (noOther first)
      refine ⟨_, rfl, replaying.step_changed unambiguous opsKnown member back
        (.removed before entry after first applies removal) ?_ (by simp [now]) (fun _ => now) rfl
        (fun _ => ?_) (replaying.rebase_withdrawn first.mem (isWithdrawn first))⟩
      · rw [Reconciling.entries_remove first.split, first.split, filter_middle, List.filter_append]
        rw [isWithdrawn first]
        rfl
      · apply Bool.eq_true_of_not_eq_false
        intro isUnchanged
        have stands := first.mem
        rw [replaying.unchanged isUnchanged] at stands
        have stays := (replaying.mem_start stands).2
        rw [isWithdrawn first] at stays
        contradiction
  | replaced before entry after first applies positive =>
      have now := held_replace_of_first (bindingFor op cmd granted entry.1.registeredAt)
        first reflexive
      rw [noOther first] at now
      refine ⟨_, rfl, replaying.step_changed unambiguous opsKnown member back
        (.replaced before entry after first applies positive) ?_ (by simp [now])
        (fun removal => absurd removal positive) rfl (fun removal => absurd removal positive)
        (replaying.rebase_withdrawn first.mem (isWithdrawn first))⟩
      rw [Reconciling.entries_replace first.split, first.split, filter_middle, filter_middle]
      · rw [isWithdrawn first]
        rfl
      · rw [newWithdrawn]
        rfl

theorem map_fst_held_new (uri : K.Uri) (set : BindingSet) :
    (held R uri (Reconciling.new set : Reconciling K)).map Prod.fst = matching R uri set :=
  map_fst_held (parsed_new set) uri

/-- Where no group that ends in a removal matches anything, nothing is withdrawn. -/
theorem not_withdrawn_of_held {view : Reconciling K}
    (unheld : ∀ request ∈ requests, TakesBack R requests request.1.uri →
      held R request.1.uri view = []) :
    ∀ entry ∈ view.entries, withdrawn R requests entry = false := by
  intro entry member
  apply Bool.eq_false_of_not_eq_true
  intro isWithdrawn
  obtain ⟨request, requestMember, back⟩ := List.any_eq_true.mp isWithdrawn
  rw [Bool.and_eq_true, decide_eq_true_eq] at back
  have unmatched := held_eq_nil_iff.mp (unheld request requestMember back.1) entry member
  rw [back.2] at unmatched
  contradiction

theorem filter_withdrawn_of_held {view : Reconciling K}
    (unheld : ∀ request ∈ requests, TakesBack R requests request.1.uri →
      held R request.1.uri view = []) :
    (view.entries.filter fun entry => !withdrawn R requests entry) = view.entries := by
  apply List.filter_eq_self.mpr
  intro entry member
  rw [not_withdrawn_of_held unheld entry member]
  rfl

/-- Where a second delivery starts. -/
theorem Settled.replaying_start (settled : Settled R cmd set requests)
    (within : Known known (Reconciling.new set : Reconciling K)) :
    Replaying R cmd known set requests [] (.start set) := by
  have unheld : ∀ request ∈ requests, TakesBack R requests request.1.uri →
      held R request.1.uri (Reconciling.new set : Reconciling K) = [] := by
    intro request member back
    rw [← List.map_eq_nil_iff (f := Prod.fst), map_fst_held_new]
    rcases settled request member with ⟨-, none⟩ | ⟨granted, _, _, isLast, -, holds⟩
    · exact none
    · rw [TakesBack, isLast, Option.some.injEq] at back
      exact absurd back holds.positive
  refine ⟨within, named_new set, filter_withdrawn_of_held unheld, ?_, ?_,
    fun request member back _ => unheld request member back, fun _ => rfl, ?_, ?_⟩
  · intro entry member isWithdrawn
    rw [not_withdrawn_of_held unheld entry member] at isWithdrawn
    contradiction
  · intro request member back
    rw [Reconciliation.start, unheld request member back]
    exact Nat.zero_le 1
  · intro changed
    contradiction
  · intro deferred member
    contradiction

/-- A second delivery to a settled set goes through, and leaves the set it met. -/
theorem Settled.reconcile (settled : Settled R cmd set requests)
    (unambiguous : Unambiguous R known (requests.map fun request => request.1.uri))
    (opsKnown : ∀ request ∈ requests, request.1.uri ∈ known)
    (within : Known known (Reconciling.new set : Reconciling K)) :
    ∃ final, Registrar.reconcile R cmd (.start set) requests = .ok final ∧
      final.view.set = set ∧
        (∀ deferred ∈ final.pending, alreadyHolds deferred.stored cmd deferred.net = true) ∧
          (final.changed = true →
            ∃ request ∈ requests, TakesBack R requests request.1.uri ∧ request.2 ≠ 0) := by
  have advances : ∀ past op granted state result, (op, granted) ∈ requests →
      Replaying R cmd known set requests past state → OpStep R cmd state op granted result →
        ∃ next, result = .ok next ∧
          Replaying R cmd known set requests (past ++ [(op, granted)]) next := by
    intro past op granted state result member replaying step
    rcases settled (op, granted) member with ⟨back, -⟩ | ⟨last, _, _, isLast, found, holds⟩
    · exact replaying.step_withdrawn unambiguous opsKnown member back step
    · rw [← map_fst_held_new, List.map_eq_cons_iff] at found
      obtain ⟨entry, rest, isHeld, rfl, -⟩ := found
      exact replaying.step_settled unambiguous opsKnown member isLast isHeld holds step
  obtain ⟨final, reconciled, replayed⟩ :=
    reconcile_total (Replaying R cmd known set requests) advances (settled.replaying_start within)
  refine ⟨final, reconciled, ?_, ?_, replayed.adds⟩
  · have entries := replayed.kept
    rw [filter_withdrawn_of_held fun request member back => replayed.emptied request member back back]
      at entries
    rw [← Reconciling.map_fst_entries, entries, Reconciling.map_fst_entries]
    rfl
  · intro deferred member
    obtain ⟨_, _, entry, _, granted, -, -, stored, isLast, holds, net⟩ :=
      replayed.waiting deferred member
    rw [isLast, Option.some.injEq] at net
    rw [stored, ← net]
    exact holds.holds

end Second

/-! ## Both deliveries -/

/-- A request whose second delivery finds what the first one left.  Its operations tell
the contacts they meet apart; what the last operation of a group grants ends in time;
and a group that ends in a removal removes as often as it matches. -/
structure Repeatable (R : ContactRules K) (cmd : RegisterCommand K) (policy : TenantPolicy)
    (current : BindingSet) (ops : List (ContactOp K)) : Prop where
  apart : TellsApart R cmd current ops
  inTime : ∀ op ∈ ops, ∀ granted ∈ lastGrant R op.uri (requests cmd policy ops),
    cmd.now + granted * nanosPerSecond ≤ lastInstant
  exhausts : ∀ op ∈ ops, lastGrant R op.uri (requests cmd policy ops) = some 0 →
    leftOver R op.uri (matching R op.uri (current.dropExpired cmd.now)).length
      (requests cmd policy ops) = 0

section Again

variable {R : ContactRules K} {cmd : RegisterCommand K} {current set : BindingSet}
  {policy : TenantPolicy} {ops : List (ContactOp K)} {grants : List Nat} {op : ContactOp K}
  {state : Reconciliation K} {response : Accepted} {later : Timestamp}

/-- The later delivery of a REGISTER. -/
def RegisterCommand.at (cmd : RegisterCommand K) (later : Timestamp) : RegisterCommand K :=
  { cmd with now := later }

theorem Reconciled.known (reconciled : Reconciled R cmd current policy ops grants state) :
    Known (contactsOf K (current.dropExpired cmd.now) ++ ops.map ContactOp.uri) state.view := by
  have run := reconciled.reconciled
  rw [zip_grants reconciled.granted] at run
  exact reconcile_prefix_induction
    (fun _ state =>
      Known (contactsOf K (current.dropExpired cmd.now) ++ ops.map ContactOp.uri) state.view)
    (fun _ op _ _ _ member known step => step.known known (List.mem_append_right _
      (List.mem_map_of_mem (f := ContactOp.uri) (mem_requests member))))
    (known_new _ _) run

theorem matching_dropExpired (uri : K.Uri) (set : BindingSet) (now : Timestamp) :
    matching R uri (set.dropExpired now) =
      (matching R uri set).filter fun binding => binding.isActive now := by
  rw [matching, BindingSet.dropExpired, List.filter_comm, matching]

/-- What a repeatable request committed is settled for its later delivery. -/
theorem Reconciled.settled (reconciled : Reconciled R cmd current policy ops grants state)
    (repeatable : Repeatable R cmd policy current ops)
    (standing : ∀ binding ∈ state.view.set, binding.callId = cmd.callId →
      binding.cseq = cmd.cseq → binding.isActive later = true) :
    Settled R (cmd.at later) (state.view.set.dropExpired later) (requests cmd policy ops) := by
  intro request member
  have isOp := mem_requests member
  obtain ⟨granted, isLast⟩ :
      ∃ granted, lastGrant R request.1.uri (requests cmd policy ops) = some granted := by
    have grouped : request ∈ group R request.1.uri (requests cmd policy ops) :=
      List.mem_filter.mpr ⟨member, R.equivalent_refl _⟩
    have nonempty : group R request.1.uri (requests cmd policy ops) ≠ [] :=
      List.ne_nil_of_mem grouped
    exact ⟨_, by rw [lastGrant, List.getLast?_eq_some_getLast nonempty, Option.map_some]⟩
  rw [matching_dropExpired]
  by_cases removal : granted = 0
  · left
    rw [removal] at isLast
    have none := reconciled.matching_of_removal repeatable.apart isOp isLast
      (repeatable.exhausts _ isOp isLast)
    exact ⟨isLast, by rw [none, List.filter_nil]⟩
  · right
    obtain ⟨binding, rest, isMatching, sameCall, sameSequence, holds⟩ :=
      reconciled.matching_of_grant repeatable.apart isOp isLast removal
        (repeatable.inTime _ isOp _ isLast)
    have stands : binding ∈ state.view.set := by
      have first : binding ∈ matching R request.1.uri state.view.set := by
        rw [isMatching]
        exact List.mem_cons_self
      exact List.mem_of_mem_filter first
    refine ⟨granted, binding, rest.filter fun binding => binding.isActive later, isLast, ?_,
      sameCall, sameSequence, holds⟩
    rw [isMatching]
    exact List.filter_cons_of_pos (standing binding stands sameCall sameSequence)

end Again

section Deliveries

open Reactive.Machine Reference Sip.Reference

end Deliveries

end SipxClstr.Registrar
