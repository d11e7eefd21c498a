import SipxClstr.Registrar.Findings

/-!
# Recognizing a delivery

A REGISTER that is delivered again is recognized by the bindings that carry its token.  It
changes nothing exactly where every operation finds such a binding or none, where each binding
has what the last operation to find it is granted, and where what is added is taken away again.
-/

namespace SipxClstr.Registrar

open SipxClstr.Sip

variable {K : Kernel}

/-- The binding carries the token of this request. -/
def CarriesToken (cmd : RegisterCommand K) (binding : Binding) : Prop :=
  binding.callId = cmd.callId ∧ binding.cseq = cmd.cseq

instance (cmd : RegisterCommand K) (binding : Binding) : Decidable (CarriesToken cmd binding) :=
  inferInstanceAs (Decidable (_ ∧ _))

/-- What the operation finds, if anything, carries the request's token. -/
def Finding.Ours (cmd : RegisterCommand K) (finding : Finding K) : Prop :=
  ∀ entry ∈ finding.found, CarriesToken cmd entry.1

instance (cmd : RegisterCommand K) (finding : Finding K) : Decidable (finding.Ours cmd) :=
  inferInstanceAs (Decidable (∀ entry ∈ finding.found, CarriesToken cmd entry.1))

/-- Whether the operation finds this slot. -/
def Finding.finds (slot : Nat) (finding : Finding K) : Bool :=
  finding.found.any fun entry => entry.2.id = slot

/-- What the last operation to find a slot is granted. -/
def lastGrantOn (slot : Nat) (findings : List (Finding K)) : Option Nat :=
  ((findings.filter (Finding.finds slot)).getLast?).map Finding.granted

/-- A delivery that finds what an earlier one left. -/
structure Recognized (cmd : RegisterCommand K) (set : BindingSet) (findings : List (Finding K)) :
    Prop where
  /-- An operation that finds a binding finds one of this request. -/
  ours : ∀ finding ∈ findings, finding.Ours cmd
  /-- A binding that an earlier delivery wrote has what the last operation to find it asks. -/
  holds : ∀ finding ∈ findings, ∀ entry ∈ finding.found, entry.2.writtenHere = false →
    ∀ granted ∈ lastGrantOn entry.2.id findings, alreadyHolds entry.1 cmd granted = true
  /-- What this delivery adds it takes away. -/
  undone : removals cmd findings = additions findings
  /-- Where it adds something, nothing has expired. -/
  unreaped : additions findings ≠ 0 → ∀ binding ∈ set, binding.isActive cmd.now = true

section Grants

variable {slot : Nat} {past : List (Finding K)} {finding : Finding K}

theorem lastGrantOn_concat (finds : finding.finds slot = true) :
    lastGrantOn slot (past ++ [finding]) = some finding.granted := by
  rw [lastGrantOn, List.filter_append, List.filter_cons_of_pos finds, List.filter_nil,
    List.getLast?_concat, Option.map_some]

theorem lastGrantOn_concat_of_not (misses : finding.finds slot = false) :
    lastGrantOn slot (past ++ [finding]) = lastGrantOn slot past := by
  rw [lastGrantOn, List.filter_append, List.filter_cons_of_neg (ne_true_of_eq_false misses),
    List.filter_nil, List.append_nil, lastGrantOn]

end Grants

/-! ## Bindings of other requests -/

section Strangers

variable {R : ContactRules K} {cmd : RegisterCommand K} {all : List (OpRequest K)}
  {start final state next : Reconciliation K} {op : ContactOp K} {granted : Nat}

end Strangers

/-! ## A delivery that finds its own bindings -/

/-- A deferred decision is on a binding that stood before, and waits for what the last
operation to find it is granted. -/
def Waiting (start : Reconciling K) (past : List (Finding K)) (deferred : Pending) : Prop :=
  ∃ finding ∈ past, ∃ entry ∈ finding.found, entry ∈ start.entries ∧
    deferred.slot = entry.2.id ∧ deferred.stored = entry.1 ∧
      lastGrantOn entry.2.id past = some deferred.net

/-- How far such a delivery has come.  What it met stands as it was, beside what it has added;
and it has come to a decision, or deferred it, on all it found. -/
structure Replayed (cmd : RegisterCommand K) (start : Reconciling K) (past : List (Finding K))
    (state : Reconciliation K) : Prop where
  named : Named state.view
  kept : (state.view.entries.filter fun entry => !entry.2.writtenHere) = start.entries
  counted : (state.view.entries.countP fun entry => entry.2.writtenHere) + removals cmd past =
    additions past
  changed : state.changed = true ↔ additions past ≠ 0
  stood : ∀ finding ∈ past, ∀ entry ∈ finding.found, entry.2.writtenHere = false →
    entry ∈ start.entries
  waiting : ∀ deferred ∈ state.pending, Waiting start past deferred
  decided : ∀ finding ∈ past, ∀ entry ∈ finding.found, entry.2.writtenHere = false →
    ∀ granted ∈ lastGrantOn entry.2.id past, alreadyHolds entry.1 cmd granted = true ∨
      ∃ deferred ∈ state.pending, deferred.slot = entry.2.id ∧ deferred.stored = entry.1 ∧
        deferred.net = granted

section Replaying

variable {R : ContactRules K} {cmd : RegisterCommand K} {start : Reconciling K}
  {past : List (Finding K)} {state next : Reconciliation K} {op : ContactOp K} {granted : Nat}
  {before after : List (Entry K)} {entry : Entry K}

theorem finds_some_iff {slot : Nat} :
    Finding.finds slot ⟨op, granted, some entry⟩ = true ↔ entry.2.id = slot := by
  simp [Finding.finds]

/-- What a delivery met stands in its view. -/
theorem Replayed.mem_view (replayed : Replayed cmd start past state) (member : entry ∈ start.entries) :
    entry ∈ state.view.entries ∧ entry.2.writtenHere = false := by
  rw [← replayed.kept, List.mem_filter, Bool.not_eq_true'] at member
  exact member

theorem Replayed.mem_start (replayed : Replayed cmd start past state)
    (member : entry ∈ state.view.entries) (unwritten : entry.2.writtenHere = false) :
    entry ∈ start.entries := by
  rw [← replayed.kept, List.mem_filter, unwritten]
  exact ⟨member, rfl⟩

/-- A deferred decision waits on where the next operation finds nothing. -/
theorem Replayed.waiting_none (replayed : Replayed cmd start past state) :
    ∀ deferred ∈ state.pending, Waiting start (past ++ [⟨op, granted, none⟩]) deferred := by
  intro deferred member
  obtain ⟨finding, earlier, entry, found, isStart, slot, stored, net⟩ :=
    replayed.waiting deferred member
  refine ⟨finding, List.mem_append_left _ earlier, entry, found, isStart, slot, stored, ?_⟩
  rw [lastGrantOn_concat_of_not (by rfl), net]

/-- An operation that finds an entry answers for every decision deferred on it. -/
theorem Replayed.waiting_rebase (replayed : Replayed cmd start past state) :
    ∀ deferred ∈ rebase entry.2.id granted state.pending,
      Waiting start (past ++ [⟨op, granted, some entry⟩]) deferred := by
  intro deferred deferredMember
  obtain ⟨earlier, earlierMember, rfl⟩ := List.mem_map.mp deferredMember
  obtain ⟨finding, isPast, other, found, isStart, slot, stored, net⟩ :=
    replayed.waiting earlier earlierMember
  refine ⟨finding, List.mem_append_left _ isPast, other, found, isStart, ?_⟩
  by_cases same : earlier.slot = entry.2.id
  · rw [if_pos same]
    exact ⟨slot, stored, lastGrantOn_concat (finds_some_iff.mpr (same.symm.trans slot))⟩
  · rw [if_neg same]
    have misses : Finding.finds other.2.id ⟨op, granted, some entry⟩ = false := by
      apply Bool.eq_false_of_not_eq_true
      rw [finds_some_iff]
      exact fun sameSlot => same (slot.trans sameSlot.symm)
    exact ⟨slot, stored, by rw [lastGrantOn_concat_of_not misses, net]⟩

/-- What was decided on another entry stays decided. -/
theorem Replayed.decided_other (replayed : Replayed cmd start past state) {finding : Finding K}
    (earlier : finding ∈ past) {other : Entry K} (found : other ∈ finding.found)
    (unwritten : other.2.writtenHere = false) (differs : entry.2.id ≠ other.2.id) {asked : Nat}
    (last : asked ∈ lastGrantOn other.2.id (past ++ [⟨op, granted, some entry⟩])) :
    alreadyHolds other.1 cmd asked = true ∨
      ∃ deferred ∈ rebase entry.2.id granted state.pending, deferred.slot = other.2.id ∧
        deferred.stored = other.1 ∧ deferred.net = asked := by
  have misses : Finding.finds other.2.id ⟨op, granted, some entry⟩ = false := by
    apply Bool.eq_false_of_not_eq_true
    rw [finds_some_iff]
    exact differs
  rw [lastGrantOn_concat_of_not misses] at last
  rcases replayed.decided finding earlier other found unwritten asked last with
    holds | ⟨deferred, member, slot, stored, net⟩
  · exact .inl holds
  · refine .inr ⟨deferred, mem_rebase_of_ne member ?_, slot, stored, net⟩
    rw [slot]
    exact differs.symm

/-- Entries that were found before and have the slot of one that is found now are that one. -/
theorem Replayed.same_of_slot (replayed : Replayed cmd start past state) {other : Entry K}
    (member : entry ∈ state.view.entries) (isStart : other ∈ start.entries)
    (same : entry.2.id = other.2.id) : other = entry :=
  replayed.named.entry_eq (replayed.mem_view isStart).1 member same.symm

/-- An operation that finds a binding of an earlier delivery. -/
theorem Replayed.step_stored (replayed : Replayed cmd start past state)
    (first : FirstMatch R op.uri state.view.entries before entry after) (retries : Retries cmd entry)
    {pending : List Pending}
    (extended : ∀ deferred, deferred ∈ pending ↔
      deferred ∈ rebase entry.2.id granted state.pending ∨
        alreadyHolds entry.1 cmd granted = false ∧ deferred = ⟨entry.2.id, entry.1, granted⟩) :
    Replayed cmd start (past ++ [⟨op, granted, state.view.first R op.uri⟩])
      ⟨state.view, state.changed, pending⟩ := by
  have isStart := replayed.mem_start first.mem retries.1
  have lastHere : lastGrantOn entry.2.id (past ++ [⟨op, granted, some entry⟩]) = some granted :=
    lastGrantOn_concat (finds_some_iff.mpr rfl)
  have added : additions (past ++ [⟨op, granted, some entry⟩]) = additions past := by
    rw [additions_concat]
    simp [Finding.adds]
  have removed : removals cmd (past ++ [⟨op, granted, some entry⟩]) = removals cmd past := by
    rw [removals_concat, takes_of_retries retries]
    simp
  rw [first.first_eq]
  constructor
  · exact replayed.named
  · exact replayed.kept
  · rw [added, removed]
    exact replayed.counted
  · rw [added]
    exact replayed.changed
  · intro finding member other found unwritten
    rcases List.mem_append.mp member with earlier | last
    · exact replayed.stood finding earlier other found unwritten
    · rw [List.mem_singleton] at last
      rw [last, Option.mem_some_iff] at found
      rw [← found]
      exact isStart
  · intro deferred member
    rcases (extended deferred).mp member with rebased | ⟨-, rfl⟩
    · exact replayed.waiting_rebase deferred rebased
    · exact ⟨_, List.mem_append_right _ (List.mem_singleton_self _), entry, rfl, isStart, rfl, rfl,
        lastHere⟩
  · intro finding member other found unwritten asked last
    have otherStart : other ∈ start.entries := by
      rcases List.mem_append.mp member with earlier | isLast
      · exact replayed.stood finding earlier other found unwritten
      · rw [List.mem_singleton] at isLast
        rw [isLast, Option.mem_some_iff] at found
        rw [← found]
        exact isStart
    by_cases same : entry.2.id = other.2.id
    · obtain rfl := replayed.same_of_slot first.mem otherStart same
      rw [lastHere, Option.mem_some_iff] at last
      subst asked
      cases holds : alreadyHolds other.1 cmd granted with
      | true => exact .inl rfl
      | false => exact .inr ⟨_, (extended _).mpr (.inr ⟨holds, rfl⟩), rfl, rfl, rfl⟩
    · rcases List.mem_append.mp member with earlier | isLast
      · rcases replayed.decided_other earlier found unwritten same last with
          holds | ⟨deferred, rebased, decision⟩
        · exact .inl holds
        · exact .inr ⟨deferred, (extended deferred).mpr (.inl rebased), decision⟩
      · rw [List.mem_singleton] at isLast
        rw [isLast, Option.mem_some_iff] at found
        exact absurd (congrArg (fun entry : Entry K => entry.2.id) found) same

/-- An operation that finds a binding of this delivery, and takes it away or writes it again. -/
theorem Replayed.step_written (replayed : Replayed cmd start past state)
    (first : FirstMatch R op.uri state.view.entries before entry after)
    (written : entry.2.writtenHere = true) {view : Reconciling K} (named : Named view)
    (kept : (view.entries.filter fun entry => !entry.2.writtenHere) =
      state.view.entries.filter fun entry => !entry.2.writtenHere)
    (counted : (view.entries.countP fun entry => entry.2.writtenHere) +
      (if Finding.takes cmd ⟨op, granted, some entry⟩ then 1 else 0) =
        state.view.entries.countP fun entry => entry.2.writtenHere) :
    Replayed cmd start (past ++ [⟨op, granted, state.view.first R op.uri⟩])
      ⟨view, true, rebase entry.2.id granted state.pending⟩ := by
  have added : additions (past ++ [⟨op, granted, some entry⟩]) = additions past := by
    rw [additions_concat]
    simp [Finding.adds]
  have present : 0 < state.view.entries.countP fun entry => entry.2.writtenHere :=
    List.countP_pos_iff.mpr ⟨entry, first.mem, written⟩
  have total := replayed.counted
  have isNow : ∀ finding ∈ past ++ [⟨op, granted, some entry⟩], ∀ other ∈ finding.found,
      other.2.writtenHere = false → finding ∈ past := by
    intro finding member other found unwritten
    rcases List.mem_append.mp member with earlier | last
    · exact earlier
    · rw [List.mem_singleton] at last
      rw [last, Option.mem_some_iff] at found
      rw [← found, written] at unwritten
      contradiction
  rw [first.first_eq]
  constructor
  · exact named
  · rw [kept]
    exact replayed.kept
  · rw [added, removals_concat]
    dsimp only
    omega
  · rw [added]
    exact ⟨fun _ => by omega, fun _ => rfl⟩
  · intro finding member other found unwritten
    exact replayed.stood finding (isNow finding member other found unwritten) other found unwritten
  · exact replayed.waiting_rebase
  · intro finding member other found unwritten asked last
    have earlier := isNow finding member other found unwritten
    apply replayed.decided_other earlier found unwritten ?_ last
    intro same
    rw [replayed.same_of_slot first.mem (replayed.stood finding earlier other found unwritten) same,
      written] at unwritten
    contradiction

/-- An operation that finds nothing. -/
theorem Replayed.step_none (replayed : Replayed cmd start past state) {view : Reconciling K}
    {changed : Bool} (named : Named view)
    (kept : (view.entries.filter fun entry => !entry.2.writtenHere) =
      state.view.entries.filter fun entry => !entry.2.writtenHere)
    (counted : (view.entries.countP fun entry => entry.2.writtenHere) =
      (state.view.entries.countP fun entry => entry.2.writtenHere) +
        if Finding.adds (⟨op, granted, none⟩ : Finding K) then 1 else 0)
    (isChanged : changed = (state.changed || Finding.adds (⟨op, granted, none⟩ : Finding K))) :
    Replayed cmd start (past ++ [⟨op, granted, none⟩]) ⟨view, changed, state.pending⟩ := by
  have total := replayed.counted
  have isNow : ∀ finding ∈ past ++ [⟨op, granted, none⟩], ∀ other ∈ finding.found,
      finding ∈ past := by
    intro finding member other found
    rcases List.mem_append.mp member with earlier | last
    · exact earlier
    · rw [List.mem_singleton] at last
      rw [last] at found
      contradiction
  constructor
  · exact named
  · rw [kept]
    exact replayed.kept
  · rw [removals_concat, additions_concat]
    simp only [Finding.takes, Option.any_none, Bool.false_and, Bool.false_eq_true, if_false]
    omega
  · rw [isChanged, Bool.or_eq_true, replayed.changed, additions_concat]
    split
    · next adds => simp [adds]
    · next keeps => simp [keeps]
  · intro finding member other found unwritten
    exact replayed.stood finding (isNow finding member other found) other found unwritten
  · exact replayed.waiting_none
  · intro finding member other found unwritten asked last
    rw [lastGrantOn_concat_of_not (by rfl)] at last
    exact replayed.decided finding (isNow finding member other found) other found unwritten asked last

/-- What is written here is not what stood, so it leaves what stands. -/
theorem filter_unwritten_middle {new : Entry K} (written : new.2.writtenHere = true) :
    ((before ++ new :: after).filter fun entry => !entry.2.writtenHere) =
      (before ++ after).filter fun entry => !entry.2.writtenHere := by
  rw [filter_middle (by simp [written]), List.filter_append]

theorem countP_written_middle {new : Entry K} (written : new.2.writtenHere = true) :
    ((before ++ new :: after).countP fun entry => entry.2.writtenHere) =
      ((before ++ after).countP fun entry => entry.2.writtenHere) + 1 := by
  rw [List.countP_append, List.countP_append, List.countP_cons, if_pos written, Nat.add_assoc]

/-- An operation that finds nothing, or a binding of its request. -/
theorem Replayed.step (replayed : Replayed cmd start past state)
    (ours : Finding.Ours cmd ⟨op, granted, state.view.first R op.uri⟩)
    {result : Except Rejection (Reconciliation K)} (step : OpStep R cmd state op granted result) :
    ∃ next, result = .ok next ∧
      Replayed cmd start (past ++ [⟨op, granted, state.view.first R op.uri⟩]) next := by
  have carries : ∀ {before entry after}, FirstMatch R op.uri state.view.entries before entry after →
      CarriesToken cmd entry.1 := fun first => ours _ first.first_eq
  have isWritten : ∀ {before entry after},
      FirstMatch R op.uri state.view.entries before entry after → Applies cmd entry →
        entry.2.writtenHere = true := by
    intro before entry after first applies
    obtain ⟨sameCall, sameSequence⟩ := carries first
    rcases applies with written | otherCall | older
    · exact written
    · exact absurd sameCall otherCall
    · omega
  cases step with
  | ignored absent removal =>
      rw [first_eq_none_iff.mpr absent]
      refine ⟨state, rfl, replayed.step_none replayed.named rfl ?_ ?_⟩
      · simp [Finding.adds, removal]
      · simp [Finding.adds, removal]
  | added absent positive =>
      have named := (OpStep.added absent positive : OpStep R cmd state op granted _).named replayed.named
      rw [first_eq_none_iff.mpr absent]
      refine ⟨_, rfl, replayed.step_none named ?_ ?_ ?_⟩
      · rw [Reconciling.entries_insert, filter_unwritten_middle rfl, List.take_append_drop]
      · rw [Reconciling.entries_insert, countP_written_middle rfl, List.take_append_drop]
        simp [Finding.adds, positive]
      · simp [Finding.adds, positive]
  | stale before entry after first _ _ older =>
      obtain ⟨-, sameSequence⟩ := carries first
      omega
  | retried before entry after first retries holds =>
      refine ⟨_, rfl, replayed.step_stored first retries fun deferred => ?_⟩
      simp [holds]
  | deferred before entry after first retries differs =>
      refine ⟨_, rfl, replayed.step_stored first retries fun deferred => ?_⟩
      simp [differs]
  | removed before entry after first applies removal =>
      have written := isWritten first applies
      have named := (OpStep.removed before entry after first applies removal).named replayed.named
      refine ⟨_, rfl, replayed.step_written first written named ?_ ?_⟩
      · rw [Reconciling.entries_remove first.split, first.split, filter_unwritten_middle written]
      · rw [Reconciling.entries_remove first.split, first.split, countP_written_middle written]
        simp [Finding.takes, applies, removal]
  | replaced before entry after first applies positive =>
      have written := isWritten first applies
      have named := (OpStep.replaced before entry after first applies positive).named replayed.named
      refine ⟨_, rfl, replayed.step_written first written named ?_ ?_⟩
      · rw [Reconciling.entries_replace first.split, first.split, filter_unwritten_middle rfl,
          filter_unwritten_middle written]
      · rw [Reconciling.entries_replace first.split, first.split, countP_written_middle rfl,
          countP_written_middle written]
        simp [Finding.takes, positive]

/-- Start entries were not written by this delivery. -/
theorem unwritten_new {set : BindingSet} {entry : Entry K}
    (member : entry ∈ (Reconciling.new set : Reconciling K).entries) :
    entry.2.writtenHere = false := by
  rw [Reconciling.entries_new] at member
  obtain ⟨index, bound, rfl⟩ := List.mem_mapIdx.mp member
  rfl

theorem replayed_start (cmd : RegisterCommand K) (set : BindingSet) :
    Replayed cmd (.new set) [] (.start set) := by
  have nothing : ∀ entry ∈ (Reconciling.new set : Reconciling K).entries,
      ¬ entry.2.writtenHere = true := by
    intro entry member
    rw [unwritten_new member]
    exact Bool.false_ne_true
  constructor
  · exact named_new set
  · refine List.filter_eq_self.mpr fun entry member => ?_
    simpa using nothing entry member
  · rw [Reconciliation.start, List.countP_eq_zero.mpr nothing]
    rfl
  · simp [Reconciliation.start, additions]
  · exact fun _ member => absurd member List.not_mem_nil
  · exact fun _ member => absurd member List.not_mem_nil
  · exact fun _ member => absurd member List.not_mem_nil

/-- Where all that is found is the request's own, its operations go through. -/
theorem exists_replayed {set : BindingSet} {all : List (OpRequest K)}
    (ours : ∀ finding ∈ findings R cmd (.start set) all, finding.Ours cmd) :
    ∃ final, reconcile R cmd (.start set) all = .ok final ∧
      Replayed cmd (.new set) (findings R cmd (.start set) all) final :=
  findings_total (Finding.Ours cmd) (Replayed cmd (.new set))
    (fun _ _ _ _ _ replayed ours step => replayed.step ours step) (replayed_start cmd set) ours

/-- A delivery that takes away what it added leaves the set it met. -/
theorem Replayed.set_eq {set : BindingSet} (replayed : Replayed cmd (.new set) past state)
    (undone : removals cmd past = additions past) : state.view.set = set := by
  have counted := replayed.counted
  have nothing : (state.view.entries.countP fun entry => entry.2.writtenHere) = 0 := by omega
  have all : (state.view.entries.filter fun entry => !entry.2.writtenHere) = state.view.entries := by
    rw [List.filter_eq_self]
    intro entry member
    simpa using List.countP_eq_zero.mp nothing entry member
  rw [← state.view.map_fst_entries, ← all, replayed.kept, Reconciling.map_fst_entries]
  rfl

theorem Replayed.undone {set : BindingSet} (replayed : Replayed cmd (.new set) past state)
    (same : state.view.set = set) : removals cmd past = additions past := by
  have counted := replayed.counted
  have stood := congrArg List.length replayed.kept
  rw [Reconciling.length_entries] at stood
  change _ = set.length at stood
  have apart := List.length_eq_countP_add_countP (fun entry : Entry K => entry.2.writtenHere)
    (l := state.view.entries)
  have others : (state.view.entries.countP fun entry => decide ¬entry.2.writtenHere = true) =
      set.length := by
    rw [List.countP_eq_length_filter]
    simpa using stood
  rw [Reconciling.length_entries, same, others] at apart
  omega

end Replaying

/-! ## Recognized deliveries -/

section Recognized

variable {R : ContactRules K} {cmd : RegisterCommand K} {set : BindingSet} {policy : TenantPolicy}
  {ops : List (ContactOp K)} {grants : List Nat}

theorem filter_isActive_eq_self {now : Timestamp} :
    set.dropExpired now = set ↔ ∀ binding ∈ set, binding.isActive now = true :=
  List.filter_eq_self

/-- A recognized delivery is reconciled with the set it met, and has nothing to commit. -/
theorem Recognized.reconciled (recognized : Recognized cmd set (findingsIn R cmd set policy ops))
    (nonempty : ops ≠ []) (granted : grantedExpiries cmd policy ops = .ok grants) :
    ∃ state, Reconciled R cmd set policy ops grants state ∧
      state.view.set = set.dropExpired cmd.now ∧
        (state.changed = true → set.dropExpired cmd.now = set) := by
  obtain ⟨state, reached, replayed⟩ := exists_replayed recognized.ours
  refine ⟨state, ⟨nonempty, granted, ?_, ?_⟩, replayed.set_eq recognized.undone, ?_⟩
  · rw [zip_grants granted]
    exact reached
  · intro deferred member
    obtain ⟨finding, isFinding, entry, found, isStart, -, stored, net⟩ :=
      replayed.waiting deferred member
    rw [stored]
    exact recognized.holds finding isFinding entry found (unwritten_new isStart) _ net
  · intro changed
    exact filter_isActive_eq_self.mpr (recognized.unreaped (replayed.changed.mp changed))

end Recognized

end SipxClstr.Registrar
