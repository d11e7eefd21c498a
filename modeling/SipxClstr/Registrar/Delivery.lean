import SipxClstr.Registrar.Matching

/-!
# What a delivery leaves

A REGISTER that was committed leaves, for every group of equivalent operations, either
a binding that holds what the last operation of the group grants, or no binding the
group matches at all.
-/

namespace SipxClstr.Registrar

open SipxClstr.Sip

variable {K : Kernel}

/-- An operation, and what it is granted. -/
abbrev OpRequest (K : Kernel) := ContactOp K × Nat

/-- What an operation is granted. -/
def grantOf (cmd : RegisterCommand K) (policy : TenantPolicy) (op : ContactOp K) : Nat :=
  min (requestedExpiry cmd policy op) policy.maxExpires

/-- The operations of a request with their grants. -/
def requests (cmd : RegisterCommand K) (policy : TenantPolicy) (ops : List (ContactOp K)) :
    List (OpRequest K) :=
  ops.map fun op => (op, grantOf cmd policy op)

theorem grantedExpiries_eq {cmd : RegisterCommand K} {policy : TenantPolicy}
    {ops : List (ContactOp K)} {grants : List Nat}
    (granted : grantedExpiries cmd policy ops = .ok grants) :
    grants = ops.map (grantOf cmd policy) := by
  induction ops generalizing grants with
  | nil =>
      rw [grantedExpiries, Except.ok.injEq] at granted
      exact granted.symm
  | cons op rest ih =>
      unfold grantedExpiries at granted
      cases later : grantedExpiries cmd policy rest with
      | error rejection =>
          rw [later] at granted
          split at granted
          · contradiction
          split at granted <;> contradiction
      | ok laterGrants =>
          rw [later] at granted
          rw [List.map_cons, ← ih later]
          split at granted
          · next removal =>
              rw [Except.map, Except.ok.injEq] at granted
              rw [← granted, grantOf, removal, Nat.zero_min]
          split at granted
          · contradiction
          · rw [Except.map, Except.ok.injEq] at granted
            rw [← granted, grantOf]

theorem zip_grants {cmd : RegisterCommand K} {policy : TenantPolicy} {ops : List (ContactOp K)}
    {grants : List Nat} (granted : grantedExpiries cmd policy ops = .ok grants) :
    ops.zip grants = requests cmd policy ops := by
  rw [grantedExpiries_eq granted, requests, List.zip_map_right, List.zip_eq_zipWith,
    List.zipWith_self, List.map_map]
  rfl

/-- The operations equivalent to this contact. -/
def group (R : ContactRules K) (uri : K.Uri) (requests : List (OpRequest K)) : List (OpRequest K) :=
  requests.filter fun request => R.equivalent request.1.uri uri

/-- What the last operation of a group is granted. -/
def lastGrant (R : ContactRules K) (uri : K.Uri) (requests : List (OpRequest K)) : Option Nat :=
  (group R uri requests).getLast?.map Prod.snd

/-- How many of `count` bindings a group leaves: a removal takes one, and a grant leaves
at least one. -/
def leftOver (R : ContactRules K) (uri : K.Uri) (count : Nat) (requests : List (OpRequest K)) :
    Nat :=
  (group R uri requests).foldl
    (fun count request => if request.2 = 0 then count - 1 else max count 1) count

section Prefixes

variable {R : ContactRules K} {uri : K.Uri} {past : List (OpRequest K)} {request : OpRequest K}

theorem group_concat (equivalent : R.equivalent request.1.uri uri = true) :
    group R uri (past ++ [request]) = group R uri past ++ [request] := by
  simp [group, equivalent]

theorem group_concat_of_not (differs : R.equivalent request.1.uri uri = false) :
    group R uri (past ++ [request]) = group R uri past := by
  simp [group, differs]

theorem lastGrant_concat (equivalent : R.equivalent request.1.uri uri = true) :
    lastGrant R uri (past ++ [request]) = some request.2 := by
  rw [lastGrant, group_concat equivalent, List.getLast?_concat, Option.map_some]

theorem lastGrant_concat_of_not (differs : R.equivalent request.1.uri uri = false) :
    lastGrant R uri (past ++ [request]) = lastGrant R uri past := by
  rw [lastGrant, group_concat_of_not differs, lastGrant]

theorem leftOver_concat (count : Nat) (equivalent : R.equivalent request.1.uri uri = true) :
    leftOver R uri count (past ++ [request]) =
      if request.2 = 0 then leftOver R uri count past - 1
      else max (leftOver R uri count past) 1 := by
  rw [leftOver, group_concat equivalent, List.foldl_concat, leftOver]

theorem leftOver_concat_of_not (count : Nat) (differs : R.equivalent request.1.uri uri = false) :
    leftOver R uri count (past ++ [request]) = leftOver R uri count past := by
  rw [leftOver, group_concat_of_not differs, leftOver]

end Prefixes

/-- Induction over the operations of a request, beside those already applied. -/
theorem reconcile_prefix_induction {R : ContactRules K} {cmd : RegisterCommand K}
    {all : List (OpRequest K)} (property : List (OpRequest K) → Reconciliation K → Prop)
    (preserved : ∀ past op granted state next, (op, granted) ∈ all → property past state →
      OpStep R cmd state op granted (.ok next) → property (past ++ [(op, granted)]) next)
    {start final : Reconciliation K} (initial : property [] start)
    (reconciled : reconcile R cmd start all = .ok final) : property all final := by
  suffices general : ∀ past rest state, all = past ++ rest → property past state →
      reconcile R cmd state rest = .ok final → property all final from
    general [] all start rfl initial reconciled
  intro past rest
  induction rest generalizing past with
  | nil =>
      intro state split holds reconciled
      rw [reconcile, Except.ok.injEq] at reconciled
      rw [split, List.append_nil, ← reconciled]
      exact holds
  | cons head rest ih =>
      intro state split holds reconciled
      obtain ⟨op, granted⟩ := head
      have step := applyOp_step R cmd state op granted
      have member : (op, granted) ∈ all := by
        rw [split]
        exact List.mem_append_right _ List.mem_cons_self
      unfold reconcile at reconciled
      cases stepped : applyOp R cmd state op granted with
      | error rejection =>
          rw [stepped] at reconciled
          contradiction
      | ok next =>
          rw [stepped] at step reconciled
          exact ih (past ++ [(op, granted)]) next (by rw [split, List.append_assoc]; rfl)
            (preserved past op granted state next member holds step) reconciled

/-- What every operation preserves holds of every set the operations lead to. -/
theorem reconcile_invariant {R : ContactRules K} {cmd : RegisterCommand K}
    (property : Reconciliation K → Prop)
    (preserved : ∀ state op granted next, property state →
      OpStep R cmd state op granted (.ok next) → property next)
    {requests : List (OpRequest K)} {start final : Reconciliation K} (initial : property start)
    (reconciled : reconcile R cmd start requests = .ok final) : property final :=
  reconcile_prefix_induction (fun _ => property)
    (fun _ op granted state next _ holds step => preserved state op granted next holds step)
    initial reconciled

/-! ## One group of equivalent operations -/

/-- The binding holds the token of this request and what it grants. -/
structure Holds (cmd : RegisterCommand K) (granted : Nat) (binding : Binding) : Prop where
  sameCall : binding.callId = cmd.callId
  sameSequence : binding.cseq = cmd.cseq
  holds : alreadyHolds binding cmd granted = true

/-- What a request writes holds what it grants, unless time ends before. -/
theorem holds_bindingFor (op : ContactOp K) (cmd : RegisterCommand K) {granted : Nat}
    (positive : granted ≠ 0) (inTime : cmd.now + granted * nanosPerSecond ≤ lastInstant)
    (registeredAt : Timestamp) : Holds cmd granted (bindingFor op cmd granted registeredAt) := by
  refine ⟨rfl, rfl, ?_⟩
  have lifetime : cmd.now.durationUntil (cmd.now.saturatingAdd (granted * nanosPerSecond)) =
      granted * nanosPerSecond := by
    rw [Timestamp.durationUntil, Timestamp.saturatingAdd, Nat.min_eq_left inTime,
      Nat.add_sub_cancel_left]
  rw [alreadyHolds, if_neg positive, Bool.and_eq_true, decide_eq_true_eq, decide_eq_true_eq]
  exact ⟨lifetime, rfl⟩

/-- The group met a binding that an earlier delivery wrote.  Whether it holds what the
group asks for is settled, or waits as a deferred decision. -/
def Met (R : ContactRules K) (cmd : RegisterCommand K) (state : Reconciliation K) (uri : K.Uri)
    (granted : Nat) : Prop :=
  ∃ entry rest, held R uri state.view = entry :: rest ∧ Retries cmd entry ∧
    (alreadyHolds entry.1 cmd granted = true ∨
      ∃ deferred ∈ state.pending, deferred.slot = entry.2.id ∧ deferred.stored = entry.1 ∧
        deferred.net = granted)

/-- The group met no such binding.  What it matches is counted, and is headed by what
its last operation wrote. -/
structure Unmet (R : ContactRules K) (cmd : RegisterCommand K) (state : Reconciliation K)
    (uri : K.Uri) (count : Nat) (past : List (OpRequest K)) : Prop where
  counted : (held R uri state.view).length = leftOver R uri count past
  written : ∀ granted, granted ≠ 0 → lastGrant R uri past = some granted →
    ∃ entry rest, held R uri state.view = entry :: rest ∧
      ∃ op registeredAt, entry.1 = bindingFor op cmd granted registeredAt

/-- How far a group has come. -/
def GroupState (R : ContactRules K) (cmd : RegisterCommand K) (state : Reconciliation K)
    (uri : K.Uri) (count : Nat) (past : List (OpRequest K)) : Prop :=
  (∃ granted, lastGrant R uri past = some granted ∧ Met R cmd state uri granted) ∨
    Unmet R cmd state uri count past

section Step

variable {R : ContactRules K} {cmd : RegisterCommand K} {state next : Reconciliation K}
  {op : ContactOp K} {granted count : Nat} {past : List (OpRequest K)} {known ops : List K.Uri}
  {uri : K.Uri}

/-- A deferred decision on another binding is left as it is. -/
theorem mem_rebase_of_ne {slot granted : Nat} {pending : List Pending} {deferred : Pending}
    (member : deferred ∈ pending) (differs : deferred.slot ≠ slot) :
    deferred ∈ rebase slot granted pending := by
  refine List.mem_map.mpr ⟨deferred, member, ?_⟩
  rw [if_neg differs]

/-- A deferred decision stays when an operation goes to another binding. -/
theorem OpStep.mem_pending (step : OpStep R cmd state op granted (.ok next)) {deferred : Pending}
    (member : deferred ∈ state.pending)
    (elsewhere : ∀ {before entry after},
      FirstMatch R op.uri state.view.entries before entry after → entry.2.id ≠ deferred.slot) :
    deferred ∈ next.pending := by
  cases step with
  | ignored _ _ => exact member
  | added _ _ => exact member
  | retried before entry after first _ _ => exact mem_rebase_of_ne member (elsewhere first).symm
  | deferred before entry after first _ _ =>
      exact List.mem_append_left _ (mem_rebase_of_ne member (elsewhere first).symm)
  | removed before entry after first _ _ => exact mem_rebase_of_ne member (elsewhere first).symm
  | replaced before entry after first _ _ => exact mem_rebase_of_ne member (elsewhere first).symm

/-- An operation outside a group leaves it where it is. -/
theorem OpStep.groupState_of_not (step : OpStep R cmd state op granted (.ok next))
    (unambiguous : Unambiguous R known ops) (within : Known known state.view)
    (named : Named state.view) (isOp : op.uri ∈ ops) (uriOp : uri ∈ ops)
    (differs : R.equivalent op.uri uri = false) (group : GroupState R cmd state uri count past) :
    GroupState R cmd next uri count (past ++ [(op, granted)]) := by
  have same := step.held_eq unambiguous within isOp uriOp differs
  rcases group with ⟨last, isLast, entry, rest, isHeld, retries, settled⟩ | ⟨counted, written⟩
  · left
    refine ⟨last, ?_, entry, rest, by rw [same, isHeld], retries, ?_⟩
    · rw [lastGrant_concat_of_not differs, isLast]
    rcases settled with holds | ⟨deferred, member, slot, stored, net⟩
    · exact .inl holds
    · refine .inr ⟨deferred, step.mem_pending member ?_, slot, stored, net⟩
      intro before other after first sameId
      have mine : entry ∈ held R uri state.view := by
        rw [isHeld]
        exact List.mem_cons_self
      obtain ⟨mineMember, isMatch⟩ := List.mem_filter.mp mine
      have isOther : other = entry := named.entry_eq first.mem mineMember (sameId.trans slot)
      rw [← isOther, unambiguous.isMatch_eq within isOp uriOp first.mem first.isMatch,
        differs] at isMatch
      contradiction
  · right
    constructor
    · rw [same, leftOver_concat_of_not count differs, counted]
    · rw [lastGrant_concat_of_not differs, same]
      exact written

/-- A group that met no retry so far: what it matches first, if anything, is none. -/
theorem GroupState.unmet (group : GroupState R cmd state uri count past)
    (notRetries : ∀ entry rest, held R uri state.view = entry :: rest → ¬ Retries cmd entry) :
    Unmet R cmd state uri count past := by
  rcases group with ⟨_, _, entry, rest, isHeld, retries, _⟩ | isUnmet
  · exact absurd retries (notRetries entry rest isHeld)
  · exact isUnmet

/-- What applies is no retry. -/
theorem Applies.not_retries {entry : Entry K} (applies : Applies cmd entry) :
    ¬ Retries cmd entry := by
  rintro ⟨unwritten, sameCall, sameSequence⟩
  rcases applies with written | otherCall | older
  · rw [unwritten] at written
    contradiction
  · exact otherCall sameCall
  · omega

/-- An operation of a group moves it on. -/
theorem OpStep.groupState_of_equivalent (step : OpStep R cmd state op granted (.ok next))
    (unambiguous : Unambiguous R known ops) (opsKnown : ∀ uri ∈ ops, uri ∈ known)
    (within : Known known state.view) (isOp : op.uri ∈ ops) (uriOp : uri ∈ ops)
    (equivalent : R.equivalent op.uri uri = true) (group : GroupState R cmd state uri count past) :
    GroupState R cmd next uri count (past ++ [(op, granted)]) := by
  have last : lastGrant R uri (past ++ [(op, granted)]) = some granted :=
    lastGrant_concat equivalent
  have left : leftOver R uri count (past ++ [(op, granted)]) = if granted = 0 then _ else _ :=
    leftOver_concat count equivalent
  have heldNow : held R uri state.view = held R op.uri state.view :=
    (unambiguous.held_eq within isOp uriOp equivalent).symm
  have heldNext : held R uri next.view = held R op.uri next.view :=
    (unambiguous.held_eq (step.known within (opsKnown _ isOp)) isOp uriOp equivalent).symm
  have reflexive := R.equivalent_refl op.uri
  have unmetApplies : ∀ {before entry after},
      FirstMatch R op.uri state.view.entries before entry after → Applies cmd entry →
        Unmet R cmd state uri count past := by
    intro before entry after first applies
    apply group.unmet
    intro other rest heldEq retries
    rw [heldNow, first.held_eq, List.cons.injEq] at heldEq
    exact applies.not_retries (heldEq.1 ▸ retries)
  cases step with
  | ignored absent removal =>
      have empty := held_eq_nil_iff.mpr absent
      have unmet := group.unmet (by simp [heldNow, empty])
      refine .inr ⟨?_, ?_⟩
      · have counted := unmet.counted
        rw [heldNow, empty, List.length_nil] at counted
        rw [heldNext, empty, List.length_nil, left, if_pos removal, ← counted]
      · intro other positive isLast
        rw [last, Option.some.injEq] at isLast
        exact absurd (isLast.symm.trans removal) positive
  | added absent positive =>
      have empty := held_eq_nil_iff.mpr absent
      have unmet := group.unmet (by simp [heldNow, empty])
      have now := held_insert_of_match (bindingFor op cmd granted cmd.now) reflexive empty
      refine .inr ⟨?_, ?_⟩
      · have counted := unmet.counted
        rw [heldNow, empty, List.length_nil] at counted
        rw [heldNext, now, List.length_singleton, left, if_neg positive, ← counted]
        rfl
      · intro other _ isLast
        rw [last, Option.some.injEq] at isLast
        rw [heldNext, now, ← isLast]
        exact ⟨_, _, rfl, op, cmd.now, rfl⟩
  | retried before entry after first retries holds =>
      exact .inl ⟨granted, last, entry, _, by rw [heldNext, first.held_eq], retries, .inl holds⟩
  | deferred before entry after first retries _ =>
      refine .inl ⟨granted, last, entry, _, by rw [heldNext, first.held_eq], retries, .inr ?_⟩
      exact ⟨⟨entry.2.id, entry.1, granted⟩, List.mem_append_right _ List.mem_cons_self, rfl, rfl,
        rfl⟩
  | removed before entry after first applies removal =>
      have unmet := unmetApplies first applies
      refine .inr ⟨?_, ?_⟩
      · have counted := unmet.counted
        rw [heldNow, first.held_eq, List.length_cons] at counted
        rw [heldNext, held_remove_of_first first, left, if_pos removal, ← counted,
          Nat.add_sub_cancel]
      · intro other positive isLast
        rw [last, Option.some.injEq] at isLast
        exact absurd (isLast.symm.trans removal) positive
  | replaced before entry after first applies positive =>
      have unmet := unmetApplies first applies
      have now := held_replace_of_first (bindingFor op cmd granted entry.1.registeredAt)
        first reflexive
      refine .inr ⟨?_, ?_⟩
      · have counted := unmet.counted
        rw [heldNow, first.held_eq, List.length_cons] at counted
        rw [heldNext, now, List.length_cons, left, if_neg positive, ← counted,
          Nat.max_eq_left (Nat.le_add_left 1 _)]
      · intro other _ isLast
        rw [last, Option.some.injEq] at isLast
        rw [heldNext, now, ← isLast]
        exact ⟨_, _, rfl, op, entry.1.registeredAt, rfl⟩

end Step

/-! ## A whole delivery -/

/-- The bindings a URI matches. -/
def matching (R : ContactRules K) (uri : K.Uri) (set : BindingSet) : List Binding :=
  set.filter fun binding => (K.parseUri binding.contact).any fun stored => R.equivalent stored uri

/-- The contacts of a set that parse. -/
def contactsOf (K : Kernel) (set : BindingSet) : List K.Uri :=
  set.filterMap fun binding => K.parseUri binding.contact

theorem map_fst_held {R : ContactRules K} {view : Reconciling K} (parsed : Parsed view)
    (uri : K.Uri) : (held R uri view).map Prod.fst = matching R uri view.set := by
  rw [matching, ← view.map_fst_entries, List.filter_map, held]
  congr 1
  apply List.filter_congr
  intro entry member
  rw [Entry.isMatch, parsed entry member]
  rfl

theorem known_new (set : BindingSet) (others : List K.Uri) :
    Known (contactsOf K set ++ others) (Reconciling.new set) := by
  intro entry member uri holds
  apply List.mem_append_left
  have stands : entry.1 ∈ set := by
    have mapped : entry.1 ∈ (Reconciling.new set : Reconciling K).entries.map Prod.fst :=
      List.mem_map_of_mem member
    rwa [Reconciling.map_fst_entries] at mapped
  rw [parsed_new set entry member] at holds
  exact List.mem_filterMap.mpr ⟨entry.1, stands, holds⟩

/-- The operations of a request tell the contacts they meet apart. -/
def TellsApart (R : ContactRules K) (cmd : RegisterCommand K) (set : BindingSet)
    (ops : List (ContactOp K)) : Prop :=
  Unambiguous R (contactsOf K (set.dropExpired cmd.now) ++ ops.map ContactOp.uri)
    (ops.map ContactOp.uri)

section Delivered

variable {R : ContactRules K} {cmd : RegisterCommand K} {current : BindingSet}
  {policy : TenantPolicy} {ops : List (ContactOp K)} {grants : List Nat} {op : ContactOp K}
  {state : Reconciliation K}

theorem mem_requests {request : OpRequest K} (member : request ∈ requests cmd policy ops) :
    request.1 ∈ ops := by
  obtain ⟨op, isOp, rfl⟩ := List.mem_map.mp member
  exact isOp

/-- How far each group comes. -/
theorem Reconciled.groupState (reconciled : Reconciled R cmd current policy ops grants state)
    (apart : TellsApart R cmd current ops) (isOp : op ∈ ops) :
    GroupState R cmd state op.uri (matching R op.uri (current.dropExpired cmd.now)).length
      (requests cmd policy ops) := by
  have run := reconciled.reconciled
  rw [zip_grants reconciled.granted] at run
  have opsKnown : ∀ uri ∈ ops.map ContactOp.uri,
      uri ∈ contactsOf K (current.dropExpired cmd.now) ++ ops.map ContactOp.uri :=
    fun uri member => List.mem_append_right _ member
  have uriOp := List.mem_map_of_mem (f := ContactOp.uri) isOp
  refine (reconcile_prefix_induction (fun past state =>
    Known (contactsOf K (current.dropExpired cmd.now) ++ ops.map ContactOp.uri) state.view ∧
      Named state.view ∧ GroupState R cmd state op.uri
        (matching R op.uri (current.dropExpired cmd.now)).length past) ?_ ?_ run).2.2
  · rintro past next granted state after member ⟨within, named, group⟩ step
    have nextOp := List.mem_map_of_mem (f := ContactOp.uri) (mem_requests member)
    refine ⟨step.known within (opsKnown _ nextOp), step.named named, ?_⟩
    cases equivalent : R.equivalent next.uri op.uri with
    | true =>
        exact step.groupState_of_equivalent apart opsKnown within nextOp uriOp equivalent group
    | false => exact step.groupState_of_not apart within named nextOp uriOp equivalent group
  · refine ⟨known_new _ _, named_new _, .inr ⟨?_, ?_⟩⟩
    · have heldMatching := map_fst_held (R := R)
        (parsed_new (K := K) (current.dropExpired cmd.now)) op.uri
      have lengths := congrArg List.length heldMatching
      rwa [List.length_map] at lengths
    · intro granted _ isLast
      contradiction

theorem Reconciled.parsed (reconciled : Reconciled R cmd current policy ops grants state) :
    Parsed state.view := by
  have run := reconciled.reconciled
  rw [zip_grants reconciled.granted] at run
  exact reconcile_prefix_induction (fun _ state => Parsed state.view)
    (fun _ _ _ _ _ _ parsed step => step.parsed parsed) (parsed_new _) run

/-- What a group met in an earlier delivery is what it asks for. -/
theorem Reconciled.holds_of_met (reconciled : Reconciled R cmd current policy ops grants state)
    {uri : K.Uri} {granted : Nat} (met : Met R cmd state uri granted) :
    ∃ binding rest, matching R uri state.view.set = binding :: rest ∧
      Holds cmd granted binding := by
  obtain ⟨entry, rest, isHeld, ⟨-, sameCall, sameSequence⟩, settled⟩ := met
  refine ⟨entry.1, rest.map Prod.fst, ?_, sameCall, sameSequence, ?_⟩
  · rw [← map_fst_held reconciled.parsed, isHeld, List.map_cons]
  · rcases settled with holds | ⟨deferred, member, -, stored, net⟩
    · exact holds
    · have retried := reconciled.retried deferred member
      rwa [stored, net] at retried

/-- A group that ends in a grant leaves a binding that holds it. -/
theorem Reconciled.matching_of_grant
    (reconciled : Reconciled R cmd current policy ops grants state)
    (apart : TellsApart R cmd current ops) (isOp : op ∈ ops) {granted : Nat}
    (isLast : lastGrant R op.uri (requests cmd policy ops) = some granted)
    (positive : granted ≠ 0) (inTime : cmd.now + granted * nanosPerSecond ≤ lastInstant) :
    ∃ binding rest, matching R op.uri state.view.set = binding :: rest ∧
      Holds cmd granted binding := by
  rcases reconciled.groupState apart isOp with ⟨other, otherLast, met⟩ | unmet
  · rw [isLast, Option.some.injEq] at otherLast
    rw [otherLast]
    exact reconciled.holds_of_met met
  · obtain ⟨entry, rest, isHeld, writer, registeredAt, written⟩ :=
      unmet.written granted positive isLast
    refine ⟨entry.1, rest.map Prod.fst, ?_, ?_⟩
    · rw [← map_fst_held reconciled.parsed, isHeld, List.map_cons]
    · rw [written]
      exact holds_bindingFor writer cmd positive inTime registeredAt

/-- A group that ends in a removal and removes as often as it matches leaves nothing
it matches. -/
theorem Reconciled.matching_of_removal
    (reconciled : Reconciled R cmd current policy ops grants state)
    (apart : TellsApart R cmd current ops) (isOp : op ∈ ops)
    (isLast : lastGrant R op.uri (requests cmd policy ops) = some 0)
    (exhausted : leftOver R op.uri (matching R op.uri (current.dropExpired cmd.now)).length
      (requests cmd policy ops) = 0) : matching R op.uri state.view.set = [] := by
  rcases reconciled.groupState apart isOp with ⟨other, otherLast, met⟩ | unmet
  · rw [isLast, Option.some.injEq] at otherLast
    rw [← otherLast] at met
    obtain ⟨binding, rest, -, -, -, holds⟩ := reconciled.holds_of_met met
    rw [alreadyHolds, if_pos rfl] at holds
    contradiction
  · have none := unmet.counted
    rw [exhausted, List.length_eq_zero_iff] at none
    rw [← map_fst_held reconciled.parsed, none, List.map_nil]

end Delivered

end SipxClstr.Registrar
