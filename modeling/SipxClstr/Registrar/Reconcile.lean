import SipxClstr.Registrar.Process

/-!
# What one contact operation does

The set under reconciliation and its slots, read as one list of entries.  An
operation adds an entry, removes or replaces the first one its contact matches, or
leaves the entries as they are; this file lists the cases with their guards.
-/

namespace SipxClstr.Registrar

open SipxClstr.Sip

variable {K : Kernel}

/-- A binding and what reconciliation knows about it. -/
abbrev Entry (K : Kernel) := Binding × Slot K

/-- Whether the contact of an entry is equivalent to this URI. -/
def Entry.isMatch (R : ContactRules K) (uri : K.Uri) (entry : Entry K) : Bool :=
  entry.2.uri.any fun stored => R.equivalent stored uri

/-- This entry is the first one the URI matches. -/
structure FirstMatch (R : ContactRules K) (uri : K.Uri) (entries before : List (Entry K))
    (entry : Entry K) (after : List (Entry K)) : Prop where
  split : entries = before ++ entry :: after
  earlier : ∀ other ∈ before, other.isMatch R uri = false
  isMatch : entry.isMatch R uri = true

namespace Reconciling

/-- The set and the slots, side by side. -/
def entries (view : Reconciling K) : List (Entry K) :=
  view.set.zip view.slots

theorem map_fst_entries (view : Reconciling K) : view.entries.map Prod.fst = view.set :=
  List.map_fst_zip (Nat.le_of_eq view.aligned.symm)

theorem map_snd_entries (view : Reconciling K) : view.entries.map Prod.snd = view.slots :=
  List.map_snd_zip (Nat.le_of_eq view.aligned)

theorem length_entries (view : Reconciling K) : view.entries.length = view.set.length := by
  rw [← view.map_fst_entries, List.length_map]

/-- Entries are known by their two halves. -/
theorem entries_eq {view : Reconciling K} {entries : List (Entry K)}
    (bindings : entries.map Prod.fst = view.set) (slots : entries.map Prod.snd = view.slots) :
    view.entries = entries :=
  (List.zip_of_prod bindings slots).symm

theorem entries_new (set : BindingSet) :
    (Reconciling.new set : Reconciling K).entries =
      set.mapIdx fun index binding => (binding, ⟨index, K.parseUri binding.contact, false⟩) := by
  apply entries_eq
  · apply List.ext_getElem
    · simp [new]
    · intro index _ _
      simp [new]
  · apply List.ext_getElem
    · simp [new]
    · intro index _ _
      simp [new]

/-! ## Finding an entry -/

theorem find_eq (R : ContactRules K) (view : Reconciling K) (uri : K.Uri) :
    view.find R uri = view.entries.findIdx? (Entry.isMatch R uri) := by
  rw [find, ← view.map_snd_entries, List.findIdx?_map]
  rfl

theorem find_eq_none_iff {R : ContactRules K} {view : Reconciling K} {uri : K.Uri} :
    view.find R uri = none ↔ ∀ entry ∈ view.entries, entry.isMatch R uri = false := by
  rw [find_eq, List.findIdx?_eq_none_iff]

theorem exists_firstMatch {R : ContactRules K} {view : Reconciling K} {uri : K.Uri} {index : Nat}
    (found : view.find R uri = some index) :
    ∃ before entry after, FirstMatch R uri view.entries before entry after ∧
      before.length = index := by
  rw [find_eq, List.findIdx?_eq_some_iff_getElem] at found
  obtain ⟨bound, isMatch, earlier⟩ := found
  refine ⟨view.entries.take index, view.entries[index], view.entries.drop (index + 1), ⟨?_, ?_, ?_⟩,
    ?_⟩
  · rw [List.cons_getElem_drop_succ, List.take_append_drop]
  · intro other member
    obtain ⟨place, placed, rfl⟩ := List.mem_take_iff_getElem.mp member
    exact Bool.eq_false_of_not_eq_true (earlier place (by omega))
  · exact isMatch
  · rw [List.length_take]
    omega

theorem find_of_firstMatch {R : ContactRules K} {view : Reconciling K} {uri : K.Uri}
    {before after : List (Entry K)} {entry : Entry K}
    (first : FirstMatch R uri view.entries before entry after) :
    view.find R uri = some before.length := by
  have noEarlier : before.findIdx? (Entry.isMatch R uri) = none :=
    List.findIdx?_eq_none_iff.mpr first.earlier
  rw [find_eq, first.split, List.findIdx?_append, noEarlier, List.findIdx?_cons, first.isMatch]
  simp

/-! ## The halves of an entry -/

section Split

variable {view : Reconciling K} {before after : List (Entry K)} {entry : Entry K}

theorem set_eq_of_split (split : view.entries = before ++ entry :: after) :
    view.set = before.map Prod.fst ++ entry.1 :: after.map Prod.fst := by
  rw [← view.map_fst_entries, split, List.map_append, List.map_cons]

theorem slots_eq_of_split (split : view.entries = before ++ entry :: after) :
    view.slots = before.map Prod.snd ++ entry.2 :: after.map Prod.snd := by
  rw [← view.map_snd_entries, split, List.map_append, List.map_cons]

theorem getElem?_slots (split : view.entries = before ++ entry :: after) :
    view.slots[before.length]? = some entry.2 := by
  rw [slots_eq_of_split split, List.getElem?_append_right (by simp), List.length_map, Nat.sub_self,
    List.getElem?_cons_zero]

theorem get_of_split (split : view.entries = before ++ entry :: after) :
    view.get before.length = some entry.1 := by
  rw [get, set_eq_of_split split, List.getElem?_append_right (by simp), List.length_map,
    Nat.sub_self, List.getElem?_cons_zero]

theorem slotId_of_split (split : view.entries = before ++ entry :: after) :
    view.slotId before.length = some entry.2.id := by
  rw [slotId, getElem?_slots split, Option.map_some]

theorem writtenHere_of_split (split : view.entries = before ++ entry :: after) :
    view.writtenHere before.length = entry.2.writtenHere := by
  rw [writtenHere, getElem?_slots split, Option.any_some]

/-! ## Changing an entry -/

theorem entries_insert (R : ContactRules K) (view : Reconciling K) (binding : Binding)
    (uri : K.Uri) :
    (view.insert R binding uri).entries =
      view.entries.take (view.set.position R binding) ++
        (binding, ⟨view.nextId, some uri, true⟩) ::
          view.entries.drop (view.set.position R binding) := by
  have bound : view.set.position R binding ≤ view.slots.length := by
    rw [view.aligned]
    exact BindingSet.position_le view.set binding
  have landed : min (view.set.insertAt R binding).2 view.slots.length =
      view.set.position R binding := Nat.min_eq_left bound
  apply entries_eq
  · rw [List.map_append, List.map_cons, List.map_take, List.map_drop, view.map_fst_entries]
    rfl
  · rw [List.map_append, List.map_cons, List.map_take, List.map_drop, view.map_snd_entries]
    simp only [insert, landed]

theorem entries_replace (split : view.entries = before ++ entry :: after) (binding : Binding)
    (uri : K.Uri) :
    (view.replace before.length binding uri).entries =
      before ++ (binding, { entry.2 with uri := some uri, writtenHere := true }) :: after := by
  have slot := getElem?_slots split
  have lengths : (before.map Prod.fst).length = before.length := List.length_map _
  have slotLengths : (before.map Prod.snd).length = before.length := List.length_map _
  apply entries_eq
  · simp only [replace, slot, BindingSet.replace]
    rw [set_eq_of_split split, ← lengths, List.set_append_right _ _ (Nat.le_refl _), Nat.sub_self]
    simp
  · simp only [replace, slot]
    rw [slots_eq_of_split split, ← slotLengths, List.set_append_right _ _ (Nat.le_refl _),
      Nat.sub_self]
    simp

theorem entries_remove (split : view.entries = before ++ entry :: after) :
    (view.remove before.length).entries = before ++ after := by
  have inside : before.length < view.slots.length := by
    rw [slots_eq_of_split split]
    simp
  have lengths : (before.map Prod.fst).length = before.length := List.length_map _
  have slotLengths : (before.map Prod.snd).length = before.length := List.length_map _
  apply entries_eq
  · simp only [remove, inside, if_true, BindingSet.remove]
    rw [set_eq_of_split split, ← lengths, List.eraseIdx_append_of_length_le (Nat.le_refl _),
      Nat.sub_self]
    simp
  · simp only [remove, inside, if_true]
    rw [slots_eq_of_split split, ← slotLengths,
      List.eraseIdx_append_of_length_le (Nat.le_refl _), Nat.sub_self]
    simp

theorem set_replace (split : view.entries = before ++ entry :: after) (binding : Binding)
    (uri : K.Uri) :
    (view.replace before.length binding uri).set =
      before.map Prod.fst ++ binding :: after.map Prod.fst := by
  rw [← map_fst_entries, entries_replace split, List.map_append, List.map_cons]

theorem set_remove (split : view.entries = before ++ entry :: after) :
    (view.remove before.length).set = before.map Prod.fst ++ after.map Prod.fst := by
  rw [← map_fst_entries, entries_remove split, List.map_append]

/-- What stands before the entry. -/
theorem take_set (split : view.entries = before ++ entry :: after) :
    view.set.take before.length = before.map Prod.fst := by
  rw [set_eq_of_split split, ← List.length_map Prod.fst, List.take_left]

/-- What stands behind the entry. -/
theorem drop_set (split : view.entries = before ++ entry :: after) :
    view.set.drop (before.length + 1) = after.map Prod.fst := by
  rw [set_eq_of_split split, ← List.length_map Prod.fst, ← List.drop_drop, List.drop_left,
    List.drop_one, List.tail_cons]

@[simp]
theorem nextId_replace (view : Reconciling K) (index : Nat) (binding : Binding) (uri : K.Uri) :
    (view.replace index binding uri).nextId = view.nextId := by
  unfold replace
  split <;> rfl

@[simp]
theorem nextId_remove (view : Reconciling K) (index : Nat) :
    (view.remove index).nextId = view.nextId := by
  unfold remove
  split <;> rfl

end Split

end Reconciling

/-! ## One operation -/

/-- A slot is overwritten when this request wrote it, or when its binding does not
carry the request's token or a newer one. -/
def Applies (cmd : RegisterCommand K) (entry : Entry K) : Prop :=
  entry.2.writtenHere = true ∨ entry.1.callId ≠ cmd.callId ∨ entry.1.cseq < cmd.cseq

/-- The binding carries the token of this request, which an earlier delivery wrote. -/
def Retries (cmd : RegisterCommand K) (entry : Entry K) : Prop :=
  entry.2.writtenHere = false ∧ entry.1.callId = cmd.callId ∧ entry.1.cseq = cmd.cseq

/-- How an operation goes. -/
inductive OpStep (R : ContactRules K) (cmd : RegisterCommand K) (state : Reconciliation K)
    (op : ContactOp K) (granted : Nat) : Except Rejection (Reconciliation K) → Prop where
  /-- B1: a removal of a contact that is not there. -/
  | ignored (absent : ∀ entry ∈ state.view.entries, entry.isMatch R op.uri = false)
      (removal : granted = 0) : OpStep R cmd state op granted (.ok state)
  /-- B1: a contact that is not there is added. -/
  | added (absent : ∀ entry ∈ state.view.entries, entry.isMatch R op.uri = false)
      (positive : granted ≠ 0) :
      OpStep R cmd state op granted
        (.ok ⟨state.view.insert R (bindingFor op cmd granted cmd.now) op.uri, true, state.pending⟩)
  /-- B5: the token went backwards. -/
  | stale (before : List (Entry K)) (entry : Entry K) (after : List (Entry K))
      (first : FirstMatch R op.uri state.view.entries before entry after)
      (unwritten : entry.2.writtenHere = false) (sameCall : entry.1.callId = cmd.callId)
      (older : cmd.cseq < entry.1.cseq) : OpStep R cmd state op granted (.error .staleSequence)
  /-- B4: the stored state already is what the operation asks for. -/
  | retried (before : List (Entry K)) (entry : Entry K) (after : List (Entry K))
      (first : FirstMatch R op.uri state.view.entries before entry after)
      (retries : Retries cmd entry) (holds : alreadyHolds entry.1 cmd granted = true) :
      OpStep R cmd state op granted
        (.ok ⟨state.view, state.changed, rebase entry.2.id granted state.pending⟩)
  /-- B8: whether it is depends on what is still to come. -/
  | deferred (before : List (Entry K)) (entry : Entry K) (after : List (Entry K))
      (first : FirstMatch R op.uri state.view.entries before entry after)
      (retries : Retries cmd entry) (differs : alreadyHolds entry.1 cmd granted = false) :
      OpStep R cmd state op granted
        (.ok ⟨state.view, state.changed,
          rebase entry.2.id granted state.pending ++ [⟨entry.2.id, entry.1, granted⟩]⟩)
  /-- B2, B3 and B7: the binding is removed. -/
  | removed (before : List (Entry K)) (entry : Entry K) (after : List (Entry K))
      (first : FirstMatch R op.uri state.view.entries before entry after)
      (applies : Applies cmd entry) (removal : granted = 0) :
      OpStep R cmd state op granted
        (.ok ⟨state.view.remove before.length, true, rebase entry.2.id granted state.pending⟩)
  /-- B2, B3 and B7: the binding is replaced. -/
  | replaced (before : List (Entry K)) (entry : Entry K) (after : List (Entry K))
      (first : FirstMatch R op.uri state.view.entries before entry after)
      (applies : Applies cmd entry) (positive : granted ≠ 0) :
      OpStep R cmd state op granted
        (.ok ⟨state.view.replace before.length
            (bindingFor op cmd granted entry.1.registeredAt) op.uri, true,
          rebase entry.2.id granted state.pending⟩)

theorem applyOp_step (R : ContactRules K) (cmd : RegisterCommand K) (state : Reconciliation K)
    (op : ContactOp K) (granted : Nat) :
    OpStep R cmd state op granted (applyOp R cmd state op granted) := by
  unfold applyOp
  cases found : state.view.find R op.uri with
  | none =>
      have absent := Reconciling.find_eq_none_iff.mp found
      by_cases removal : granted = 0
      · rw [if_pos removal]
        exact .ignored absent removal
      · rw [if_neg removal]
        exact .added absent removal
  | some index =>
      obtain ⟨before, entry, after, first, rfl⟩ := Reconciling.exists_firstMatch found
      simp only [Reconciling.slotId_of_split first.split, Reconciling.get_of_split first.split,
        Reconciling.writtenHere_of_split first.split]
      have applied : Applies cmd entry → OpStep R cmd state op granted
          (.ok ⟨overwrite cmd state.view before.length entry.1 op granted, true,
            rebase entry.2.id granted state.pending⟩) := by
        intro applies
        unfold overwrite
        by_cases removal : granted = 0
        · rw [if_pos removal]
          exact .removed before entry after first applies removal
        · rw [if_neg removal]
          exact .replaced before entry after first applies removal
      by_cases durable : (!entry.2.writtenHere && decide (entry.1.callId = cmd.callId)) = true
      · rw [if_pos durable]
        simp only [Bool.and_eq_true, Bool.not_eq_true', decide_eq_true_eq] at durable
        obtain ⟨unwritten, sameCall⟩ := durable
        by_cases older : cmd.cseq < entry.1.cseq
        · rw [if_pos older]
          exact .stale before entry after first unwritten sameCall older
        rw [if_neg older]
        by_cases same : cmd.cseq = entry.1.cseq
        · rw [if_pos same]
          cases holds : alreadyHolds entry.1 cmd granted with
          | true => exact .retried before entry after first ⟨unwritten, sameCall, same.symm⟩ holds
          | false => exact .deferred before entry after first ⟨unwritten, sameCall, same.symm⟩ holds
        · rw [if_neg same]
          exact applied (.inr (.inr (by omega)))
      · rw [if_neg durable]
        apply applied
        simp only [Bool.and_eq_true, Bool.not_eq_true', decide_eq_true_eq, not_and] at durable
        cases written : entry.2.writtenHere with
        | true => exact .inl written
        | false => exact .inr (.inl (durable written))

/-! ## A whole request -/

/-- `condition` holds where each operation of the request is applied. -/
def AlongOps (R : ContactRules K) (cmd : RegisterCommand K)
    (condition : Reconciliation K → ContactOp K → Nat → Prop) :
    Reconciliation K → List (ContactOp K × Nat) → Prop
  | _, [] => True
  | state, (op, granted) :: rest =>
      condition state op granted ∧
        match applyOp R cmd state op granted with
        | .error _ => True
        | .ok next => AlongOps R cmd condition next rest

instance decidableAlongOps (R : ContactRules K) (cmd : RegisterCommand K)
    (condition : Reconciliation K → ContactOp K → Nat → Prop)
    [∀ state op granted, Decidable (condition state op granted)] :
    (state : Reconciliation K) → (ops : List (ContactOp K × Nat)) →
      Decidable (AlongOps R cmd condition state ops)
  | _, [] => .isTrue trivial
  | state, (op, granted) :: rest =>
      match stepped : applyOp R cmd state op granted with
      | .error _ => decidable_of_iff (condition state op granted) (by simp [AlongOps, stepped])
      | .ok next =>
          have := decidableAlongOps R cmd condition next rest
          decidable_of_iff (condition state op granted ∧ AlongOps R cmd condition next rest)
            (by simp [AlongOps, stepped])

/-- Induction over the operations of a request: each keeps a property of how far the
reconciliation has come wherever `condition` holds. -/
theorem reconcile_induction {R : ContactRules K} {cmd : RegisterCommand K}
    {condition : Reconciliation K → ContactOp K → Nat → Prop}
    (property : Reconciliation K → Prop)
    (preserved : ∀ state op granted next, property state → condition state op granted →
      OpStep R cmd state op granted (.ok next) → property next)
    {ops : List (ContactOp K × Nat)} {start final : Reconciliation K} (initial : property start)
    (along : AlongOps R cmd condition start ops) (reconciled : reconcile R cmd start ops = .ok final) :
    property final := by
  induction ops generalizing start with
  | nil =>
      rw [reconcile, Except.ok.injEq] at reconciled
      rw [← reconciled]
      exact initial
  | cons head rest ih =>
      obtain ⟨op, granted⟩ := head
      have step := applyOp_step R cmd start op granted
      unfold AlongOps at along
      unfold reconcile at reconciled
      cases stepped : applyOp R cmd start op granted with
      | error rejection =>
          rw [stepped] at reconciled
          contradiction
      | ok next =>
          rw [stepped] at step along reconciled
          exact ih (preserved start op granted next initial along.1 step) along.2 reconciled

/-- What deciding on an explicit REGISTER rests on: its grants, and the reconciliation
of its operations with every deferred decision answered as a retry. -/
structure Reconciled (R : ContactRules K) (cmd : RegisterCommand K) (current : BindingSet)
    (policy : TenantPolicy) (ops : List (ContactOp K)) (grants : List Nat)
    (state : Reconciliation K) : Prop where
  nonempty : ops ≠ []
  granted : grantedExpiries cmd policy ops = .ok grants
  reconciled : reconcile R cmd (.start (current.dropExpired cmd.now)) (ops.zip grants) = .ok state
  retried : ∀ deferred ∈ state.pending, alreadyHolds deferred.stored cmd deferred.net = true

/-- A reconciled request is decided by the quota and by whether its set is new. -/
theorem Reconciled.explicit_eq {R : ContactRules K} {cmd : RegisterCommand K}
    {current : BindingSet} {policy : TenantPolicy} {ops : List (ContactOp K)} {grants : List Nat}
    {state : Reconciliation K} (reconciled : Reconciled R cmd current policy ops grants state) :
    explicit R cmd current policy ops =
      if policy.maxBindingsPerAor < state.view.set.activeCount cmd.now then
        .reject (.forbidden (text "the address-of-record already holds its maximum bindings"))
      else if state.changed && (decide ((current.dropExpired cmd.now).length ≠ current.length) ||
          decide (state.view.set ≠ current)) then
        .commit state.view.set (describe state.view.set cmd.now)
      else
        .noop (describe state.view.set cmd.now) := by
  have noneRefused : ¬ (state.pending.any fun deferred =>
      !alreadyHolds deferred.stored cmd deferred.net) = true := by
    rw [Bool.not_eq_true, List.any_eq_false]
    intro deferred member
    simp [reconciled.retried deferred member]
  simp only [explicit, reconciled.granted, reconciled.reconciled]
  rw [if_neg (by simpa using reconciled.nonempty), if_neg noneRefused]

/-- What is committed is nothing at all, or the reconciled set of an explicit request. -/
theorem process_commit {R : ContactRules K} {cmd : RegisterCommand K} {current set : BindingSet}
    {policy : TenantPolicy} {response : Accepted}
    (committed : process R cmd current policy = .commit set response) :
    (cmd.contacts = .wildcard ∧ set = []) ∨
      ∃ ops grants state, cmd.contacts = .explicit ops ∧ ops.length ≤ policy.maxContactOps ∧
        Reconciled R cmd current policy ops grants state ∧ set = state.view.set ∧
          state.changed = true ∧ set.activeCount cmd.now ≤ policy.maxBindingsPerAor := by
  unfold process at committed
  simp only at committed
  split at committed
  · contradiction
  split at committed
  · contradiction
  split at committed
  · next isWildcard =>
      left
      unfold wildcard at committed
      split at committed
      · contradiction
      simp only at committed
      split at committed
      · contradiction
      split at committed
      · contradiction
      · obtain ⟨rfl, -⟩ := Outcome.commit.inj committed
        exact ⟨isWildcard, rfl⟩
  · next ops isExplicit =>
      right
      split at committed
      · contradiction
      next within =>
        unfold explicit at committed
        split at committed
        · contradiction
        next nonempty =>
          split at committed
          · contradiction
          next grants granted =>
            simp only at committed
            split at committed
            · contradiction
            next state reconciled =>
              split at committed
              · contradiction
              next retried =>
                simp only [Bool.not_eq_true, List.any_eq_false] at retried
                split at committed
                · contradiction
                next quota =>
                  split at committed
                  · next isNew =>
                      obtain ⟨rfl, -⟩ := Outcome.commit.inj committed
                      simp only [Bool.and_eq_true] at isNew
                      refine ⟨ops, grants, state, isExplicit, by omega,
                        ⟨by simpa using nonempty, granted, reconciled, ?_⟩, rfl, isNew.1, by omega⟩
                      intro deferred member
                      simpa using retried deferred member
                  · contradiction

end SipxClstr.Registrar
