import SipxClstr.Registrar.Quota
import SipxClstr.Registrar.Recognition

/-!
# The Path of an answer

An answer enumerates contacts and states one Path, that of the first of them.  It speaks
for the others where every binding of the set was written with the same Path.
-/

namespace SipxClstr.Registrar

open SipxClstr.Sip Reactive Reactive.Machine

variable {K : Kernel} {R : ContactRules K}

/-- All bindings of the set carry one Path. -/
def UniformPath (set : BindingSet) : Prop :=
  ∀ first ∈ set, ∀ second ∈ set, first.path = second.path

instance (set : BindingSet) : Decidable (UniformPath set) :=
  inferInstanceAs (Decidable (∀ first ∈ set, ∀ second ∈ set, first.path = second.path))

/-- The answer's Path is that of every binding of the set that is live. -/
def StatesPathOf (set : BindingSet) (now : Timestamp) (response : Accepted) : Prop :=
  ∀ binding ∈ set.active now, response.path = binding.path

/-- The answer to an accepted request. -/
def Outcome.accepted : Outcome → Option Accepted
  | .commit _ response => some response
  | .noop response => some response
  | .reject _ => none

/-- After a request its set carries one Path, and what an explicit request is answered with
is the Path of every contact the answer enumerates. -/
structure AnswersPath (R : ContactRules K) (set : BindingSet) (registration : Registration K) :
    Prop where
  uniform : UniformPath (registrar R set registration).1
  states : ∀ ops response, registration.1.contacts = .explicit ops →
    (process R registration.1 set registration.2).accepted = some response →
      StatesPathOf (registrar R set registration).1 registration.1.now response

/-- A grant writes a binding, a new one or one over what an earlier request wrote. -/
def Finding.writes (cmd : RegisterCommand K) (finding : Finding K) : Bool :=
  finding.granted ≠ 0 &&
    finding.found.all fun entry => !entry.2.writtenHere && decide (Applies cmd entry)

/-- A removal takes back a binding that its own request wrote. -/
def Finding.takesBack (finding : Finding K) : Bool :=
  finding.granted = 0 && finding.found.any fun entry => entry.2.writtenHere

/-- The request leaves a binding that it wrote. -/
def LeavesOwn (cmd : RegisterCommand K) (findings : List (Finding K)) : Prop :=
  findings.countP Finding.takesBack < findings.countP (Finding.writes cmd)

instance (cmd : RegisterCommand K) (findings : List (Finding K)) :
    Decidable (LeavesOwn cmd findings) :=
  inferInstanceAs (Decidable (_ < _))

/-- The request writes over this binding, or removes it. -/
def Overwritten (cmd : RegisterCommand K) (findings : List (Finding K)) (entry : Entry K) : Prop :=
  ∃ finding ∈ findings, entry ∈ finding.found ∧ Applies cmd entry

instance [DecidableEq K.Uri] : DecidableEq (Slot K) := fun first second =>
  decidable_of_iff
    (first.id = second.id ∧ first.uri = second.uri ∧ first.writtenHere = second.writtenHere) (by
      cases first
      cases second
      simp)

instance [DecidableEq K.Uri] (cmd : RegisterCommand K) (findings : List (Finding K))
    (entry : Entry K) : Decidable (Overwritten cmd findings entry) :=
  inferInstanceAs (Decidable (∃ finding ∈ findings, _ ∧ _))

/-- Where a request that commits leaves a binding of its own, the live bindings that it does not
overwrite carry its Path. -/
def WritesAlike (R : ContactRules K) (set : BindingSet) (registration : Registration K) : Prop :=
  ∀ ops committed response, registration.1.contacts = .explicit ops →
    process R registration.1 set registration.2 = .commit committed response →
    LeavesOwn registration.1 (findingsIn R registration.1 set registration.2 ops) →
    ∀ entry ∈ (Reconciling.new (set.dropExpired registration.1.now) : Reconciling K).entries,
      ¬ Overwritten registration.1 (findingsIn R registration.1 set registration.2 ops) entry →
        entry.1.path = registration.1.path

theorem writesAlike_of_explicit {set : BindingSet} {registration : Registration K}
    {ops : List (ContactOp K)} (isExplicit : registration.1.contacts = .explicit ops)
    (alike : LeavesOwn registration.1 (findingsIn R registration.1 set registration.2 ops) →
      ∀ entry ∈ (Reconciling.new (set.dropExpired registration.1.now) : Reconciling K).entries,
        ¬ Overwritten registration.1 (findingsIn R registration.1 set registration.2 ops) entry →
          entry.1.path = registration.1.path) : WritesAlike R set registration := by
  intro given _ _ isGiven _
  cases isExplicit.symm.trans isGiven
  exact alike

theorem UniformPath.states {set : BindingSet} (uniform : UniformPath set) (now : Timestamp) :
    StatesPathOf set now (describe set now) := by
  intro binding member
  unfold describe
  cases isActive : set.active now with
  | nil => simp [isActive] at member
  | cons first rest =>
      have isFirst : first ∈ set.active now := by
        rw [isActive]
        exact List.mem_cons_self
      exact uniform first (List.mem_filter.mp isFirst).1 binding (List.mem_filter.mp member).1

/-! ## Where the bindings of a reconciled set come from -/

section Reconciled

variable {cmd : RegisterCommand K} {current : BindingSet} {policy : TenantPolicy}
  {ops : List (ContactOp K)} {grants : List Nat} {state : Reconciliation K}

/-- An entry is one that was live and that nothing wrote, or one the request wrote, with its
own Path. -/
theorem Reconciled.source (reconciled : Reconciled R cmd current policy ops grants state)
    {entry : Entry K} (member : entry ∈ state.view.entries) :
    entry.2.writtenHere = false ∧ entry.1 ∈ current ∨
      entry.2.writtenHere = true ∧ entry.1.path = cmd.path := by
  refine reconcile_invariant (fun state => ∀ entry ∈ state.view.entries,
    entry.2.writtenHere = false ∧ entry.1 ∈ current ∨
      entry.2.writtenHere = true ∧ entry.1.path = cmd.path) ?_ ?_ reconciled.reconciled entry member
  · intro state op granted next sources step entry member
    rcases step.origin member with stood | ⟨⟨registeredAt, written⟩, -, here⟩
    · exact sources entry stood
    · exact .inr ⟨here, congrArg Binding.path written⟩
  · intro entry member
    left
    have stands : entry.1 ∈ current.dropExpired cmd.now := by
      have mapped := List.mem_map_of_mem (f := Prod.fst) member
      rwa [Reconciling.map_fst_entries] at mapped
    change entry ∈ (Reconciling.new (current.dropExpired cmd.now) : Reconciling K).entries at member
    rw [Reconciling.entries_new] at member
    rcases List.mem_mapIdx.mp member with ⟨index, bound, rfl⟩
    exact ⟨rfl, (List.mem_filter.mp stands).1⟩

/-- A request that changed nothing leaves what was live. -/
theorem Reconciled.set_eq (reconciled : Reconciled R cmd current policy ops grants state)
    (unchanged : state.changed = false) : state.view.set = current.dropExpired cmd.now := by
  refine reconcile_invariant
    (fun state => state.changed = false → state.view.set = current.dropExpired cmd.now) ?_
    (fun _ => rfl) reconciled.reconciled unchanged
  intro state op granted next kept step unchanged
  cases step with
  | ignored _ _ => exact kept unchanged
  | retried _ _ _ _ _ _ => exact kept unchanged
  | deferred _ _ _ _ _ _ => exact kept unchanged
  | added _ _ => contradiction
  | removed _ _ _ _ _ _ => contradiction
  | replaced _ _ _ _ _ _ => contradiction

end Reconciled

/-! ## What a request writes and what it spares -/

section Findings

variable {cmd : RegisterCommand K} {start : Reconciling K} {past : List (Finding K)}
  {state next : Reconciliation K} {op : ContactOp K} {granted : Nat} {before after : List (Entry K)}
  {entry : Entry K}

theorem overwritten_concat {finding : Finding K} :
    Overwritten cmd (past ++ [finding]) entry ↔
      Overwritten cmd past entry ∨ entry ∈ finding.found ∧ Applies cmd entry := by
  simp only [Overwritten, List.mem_append, List.mem_singleton, or_and_right, exists_or,
    exists_eq_left]

/-- How many bindings of its own a request has written so far, and which it has spared. -/
structure Tracked (cmd : RegisterCommand K) (start : Reconciling K) (past : List (Finding K))
    (state : Reconciliation K) : Prop where
  named : Named state.view
  written : (state.view.entries.countP fun entry => entry.2.writtenHere) +
    past.countP Finding.takesBack = past.countP (Finding.writes cmd)
  spared : ∀ entry, entry ∈ state.view.entries ∧ entry.2.writtenHere = false ↔
    entry ∈ start.entries ∧ ¬ Overwritten cmd past entry

/-- An operation that leaves the entries overwrites none of them. -/
theorem Tracked.step_kept (tracked : Tracked cmd start past state) {finding : Finding K}
    {changed : Bool} {pending : List Pending} (writesNot : finding.writes cmd = false)
    (takesNot : finding.takesBack = false)
    (spares : ∀ entry ∈ finding.found, ¬ Applies cmd entry) :
    Tracked cmd start (past ++ [finding]) ⟨state.view, changed, pending⟩ := by
  constructor
  · exact tracked.named
  · rw [List.countP_append, List.countP_append, List.countP_singleton, List.countP_singleton,
      if_neg (ne_true_of_eq_false writesNot), if_neg (ne_true_of_eq_false takesNot)]
    exact tracked.written
  · intro entry
    rw [tracked.spared, overwritten_concat, not_or, not_and]
    constructor
    · rintro ⟨stood, free⟩
      exact ⟨stood, free, spares entry⟩
    · rintro ⟨stood, free, -⟩
      exact ⟨stood, free⟩

/-- Of an entry's neighbours none is that entry. -/
theorem Named.ne_of_split {view : Reconciling K} (named : Named view)
    (split : view.entries = before ++ entry :: after) {other : Entry K}
    (member : other ∈ before ++ after) : other ≠ entry := by
  have distinct := named.distinct
  rw [split, List.map_append, List.map_cons, List.nodup_middle, ← List.map_append,
    List.nodup_cons] at distinct
  rintro rfl
  exact distinct.1 (List.mem_map_of_mem member)

/-- An operation that applies to an entry overwrites that one. -/
theorem Tracked.step_overwritten (tracked : Tracked cmd start past state)
    (first : FirstMatch R op.uri state.view.entries before entry after)
    (applies : Applies cmd entry) {view : Reconciling K} {changed : Bool} {pending : List Pending}
    (named : Named view)
    (kept : ∀ other, other ∈ view.entries ∧ other.2.writtenHere = false ↔
      other ∈ before ++ after ∧ other.2.writtenHere = false)
    (written : (view.entries.countP fun entry => entry.2.writtenHere) =
      ((before ++ after).countP fun entry => entry.2.writtenHere) + if granted = 0 then 0 else 1) :
    Tracked cmd start (past ++ [⟨op, granted, some entry⟩]) ⟨view, changed, pending⟩ := by
  constructor
  · exact named
  · have counted := tracked.written
    rw [first.split, List.countP_append, List.countP_cons, ← Nat.add_assoc,
      ← List.countP_append] at counted
    rw [List.countP_append, List.countP_append, List.countP_singleton, List.countP_singleton,
      written]
    cases here : entry.2.writtenHere with
    | true =>
        by_cases removal : granted = 0
        · simp [Finding.takesBack, Finding.writes, here, removal] at counted ⊢
          omega
        · simp [Finding.takesBack, Finding.writes, here, removal] at counted ⊢
          omega
    | false =>
        by_cases removal : granted = 0
        · simp [Finding.takesBack, Finding.writes, here, removal] at counted ⊢
          omega
        · simp [Finding.takesBack, Finding.writes, here, removal, applies] at counted ⊢
          omega
  · intro other
    rw [overwritten_concat, not_or, ← and_assoc, ← tracked.spared, kept, first.split]
    constructor
    · rintro ⟨member, unwritten⟩
      refine ⟨⟨?_, unwritten⟩, ?_⟩
      · rw [List.mem_append] at member
        exact List.mem_append.mpr (member.imp_right (List.mem_cons_of_mem entry))
      · rintro ⟨same, -⟩
        exact tracked.named.ne_of_split first.split member (Option.some.inj same).symm
    · rintro ⟨⟨member, unwritten⟩, free⟩
      refine ⟨?_, unwritten⟩
      rcases List.mem_append.mp member with earlier | rest
      · exact List.mem_append_left _ earlier
      rcases List.mem_cons.mp rest with rfl | later
      · exact absurd ⟨rfl, applies⟩ free
      · exact List.mem_append_right _ later

theorem Tracked.step (tracked : Tracked cmd start past state)
    (step : OpStep R cmd state op granted (.ok next)) :
    Tracked cmd start (past ++ [⟨op, granted, state.view.first R op.uri⟩]) next := by
  have named := step.named tracked.named
  cases step with
  | ignored absent removal =>
      rw [first_eq_none_iff.mpr absent]
      apply tracked.step_kept
      · simp [Finding.writes, removal]
      · simp [Finding.takesBack]
      · simp
  | added absent positive =>
      rw [first_eq_none_iff.mpr absent]
      constructor
      · exact named
      · rw [Reconciling.entries_insert, countP_written_middle rfl, List.take_append_drop,
          List.countP_append, List.countP_append, List.countP_singleton, List.countP_singleton]
        have counted := tracked.written
        simp [Finding.writes, Finding.takesBack, positive]
        omega
      · intro entry
        have nothing : entry ∉ (none : Option (Entry K)) := Option.not_mem_none entry
        rw [overwritten_concat, not_or, not_and, ← and_assoc, ← tracked.spared,
          Reconciling.entries_insert]
        simp only [nothing, false_imp_iff, and_true]
        constructor
        · rintro ⟨member, unwritten⟩
          refine ⟨?_, unwritten⟩
          rcases List.mem_append.mp member with earlier | rest
          · exact List.mem_of_mem_take earlier
          rcases List.mem_cons.mp rest with rfl | later
          · exact absurd unwritten (by simp)
          · exact List.mem_of_mem_drop later
        · rintro ⟨member, unwritten⟩
          refine ⟨?_, unwritten⟩
          rw [← List.take_append_drop
            (state.view.set.position R (bindingFor op cmd granted cmd.now)) state.view.entries,
            List.mem_append] at member
          exact List.mem_append.mpr (member.imp_right (List.mem_cons_of_mem _))
  | retried before entry after first retries _ =>
      rw [first.first_eq]
      have free : ¬ Applies cmd entry := fun applies => applies.not_retries retries
      apply tracked.step_kept
      · simp [Finding.writes, free]
      · simp [Finding.takesBack, retries.1]
      · simpa using free
  | deferred before entry after first retries _ =>
      rw [first.first_eq]
      have free : ¬ Applies cmd entry := fun applies => applies.not_retries retries
      apply tracked.step_kept
      · simp [Finding.writes, free]
      · simp [Finding.takesBack, retries.1]
      · simpa using free
  | removed before entry after first applies removal =>
      rw [first.first_eq]
      apply tracked.step_overwritten first applies named
      · intro other
        rw [Reconciling.entries_remove first.split]
      · rw [Reconciling.entries_remove first.split, if_pos removal]
        rfl
  | replaced before entry after first applies positive =>
      rw [first.first_eq]
      apply tracked.step_overwritten first applies named
      · intro other
        rw [Reconciling.entries_replace first.split, List.mem_append, List.mem_append,
          List.mem_cons]
        constructor
        · rintro ⟨earlier | rfl | later, unwritten⟩
          · exact ⟨.inl earlier, unwritten⟩
          · exact absurd unwritten (by simp)
          · exact ⟨.inr later, unwritten⟩
        · rintro ⟨earlier | later, unwritten⟩
          · exact ⟨.inl earlier, unwritten⟩
          · exact ⟨.inr (.inr later), unwritten⟩
      · rw [Reconciling.entries_replace first.split, countP_written_middle rfl, if_neg positive]

theorem tracked_start (cmd : RegisterCommand K) (set : BindingSet) :
    Tracked cmd (.new set) [] (.start set) := by
  constructor
  · exact named_new set
  · exact List.countP_eq_zero.mpr fun entry member => by simp [unwritten_new member]
  · intro entry
    constructor
    · rintro ⟨member, -⟩
      exact ⟨member, by simp [Overwritten]⟩
    · rintro ⟨member, -⟩
      exact ⟨member, unwritten_new member⟩

theorem Reconciled.tracked {current : BindingSet} {policy : TenantPolicy}
    {ops : List (ContactOp K)} {grants : List Nat}
    (reconciled : Reconciled R cmd current policy ops grants state) :
    Tracked cmd (.new (current.dropExpired cmd.now)) (findingsIn R cmd current policy ops)
      state := by
  have run := reconciled.reconciled
  rw [zip_grants reconciled.granted] at run
  exact findings_induction (Tracked cmd _) (fun _ _ _ _ _ tracked step => tracked.step step)
    (tracked_start cmd _) run

/-- A request leaves a binding of its own exactly where one of those it leaves is its own. -/
theorem Tracked.leavesOwn_iff (tracked : Tracked cmd start past state) :
    LeavesOwn cmd past ↔ ∃ entry ∈ state.view.entries, entry.2.writtenHere = true := by
  rw [← List.countP_pos_iff, LeavesOwn, ← tracked.written]
  omega

end Findings

theorem describe_dropExpired (set : BindingSet) (now : Timestamp) :
    describe (set.dropExpired now) now = describe set now := by
  have same : (set.dropExpired now).active now = set.active now := by
    rw [BindingSet.active, BindingSet.dropExpired, List.filter_filter]
    simp only [Bool.and_self]
    rfl
  rw [describe, describe, same]

/-- What an explicit request that is accepted rests on: it asks for nothing, or it was
reconciled. -/
theorem exists_reconciled {cmd : RegisterCommand K} {current : BindingSet} {policy : TenantPolicy}
    {ops : List (ContactOp K)} (accepted : (explicit R cmd current policy ops).accepted.isSome) :
    ops = [] ∨ ∃ grants state, Reconciled R cmd current policy ops grants state := by
  unfold explicit at accepted
  split at accepted
  · next empty => exact .inl (List.isEmpty_iff.mp empty)
  next nonempty =>
    split at accepted
    · simp [Outcome.accepted] at accepted
    next grants granted =>
      dsimp only at accepted
      split at accepted
      · simp [Outcome.accepted] at accepted
      next state reconciled =>
        split at accepted
        · simp [Outcome.accepted] at accepted
        next retried =>
          right
          refine ⟨grants, state, by simpa using nonempty, granted, reconciled, ?_⟩
          simp only [Bool.not_eq_true, List.any_eq_false] at retried
          intro deferred member
          simpa using retried deferred member

/-- An accepted explicit request is answered with the set it leaves. -/
theorem accepted_eq_describe {cmd : RegisterCommand K} {current : BindingSet}
    {policy : TenantPolicy} {ops : List (ContactOp K)} {response : Accepted}
    (isExplicit : cmd.contacts = .explicit ops)
    (accepted : (process R cmd current policy).accepted = some response) :
    response = describe (registrar R current (cmd, policy)).1 cmd.now := by
  change response = describe ((process R cmd current policy).committed.getD current) cmd.now
  rcases process_explicit R current policy isExplicit with
    decided | ⟨rejection, refused, -⟩
  · rw [decided] at accepted ⊢
    rcases exists_reconciled (by rw [accepted]; rfl) with rfl | ⟨grants, state, reconciled⟩
    · exact (Option.some.inj accepted).symm
    · rw [reconciled.explicit_eq] at accepted ⊢
      split at accepted
      · simp [Outcome.accepted] at accepted
      next within =>
        rw [if_neg within]
        split at accepted
        · next isNew =>
            rw [if_pos isNew]
            exact (Option.some.inj accepted).symm
        · next notNew =>
            rw [if_neg notNew]
            obtain rfl := Option.some.inj accepted
            change describe state.view.set cmd.now = describe current cmd.now
            cases changed : state.changed with
            | false => rw [reconciled.set_eq changed, describe_dropExpired]
            | true =>
                simp only [changed, Bool.true_and, Bool.or_eq_true, decide_eq_true_eq, not_or,
                  not_not] at notNew
                rw [notNew.2]
  · rw [refused] at accepted
    simp [Outcome.accepted] at accepted

/-- What a request that commits leaves carries one Path where it writes alike. -/
theorem uniformPath_iff {set : BindingSet} {registration : Registration K}
    (uniform : UniformPath set) :
    UniformPath (registrar R set registration).1 ↔ WritesAlike R set registration := by
  rcases registration with ⟨cmd, policy⟩
  constructor
  · intro uniformNext ops committed response isExplicit commits leaves entry member spared
    have isNext : (registrar R set (cmd, policy)).1 = committed := by
      change (process R cmd set policy).committed.getD set = committed
      rw [commits]
      rfl
    rw [isNext] at uniformNext
    rcases process_commit commits with
      ⟨isWildcard, -⟩ | ⟨given, grants, state, isGiven, -, reconciled, rfl, -, -⟩
    · rw [isWildcard] at isExplicit
      contradiction
    cases isExplicit.symm.trans isGiven
    have tracked := reconciled.tracked
    obtain ⟨own, isOwn, written⟩ := tracked.leavesOwn_iff.mp leaves
    obtain ⟨stands, -⟩ := (tracked.spared entry).mpr ⟨member, spared⟩
    have ownPath : own.1.path = cmd.path := by
      rcases reconciled.source isOwn with ⟨unwritten, -⟩ | ⟨-, path⟩
      · rw [written] at unwritten
        contradiction
      · exact path
    have inSet : ∀ {entry}, entry ∈ state.view.entries → entry.1 ∈ state.view.set := by
      intro entry member
      rw [← state.view.map_fst_entries]
      exact List.mem_map_of_mem member
    exact (uniformNext _ (inSet stands) _ (inSet isOwn)).trans ownPath
  · intro alike
    change UniformPath ((process R cmd set policy).committed.getD set)
    cases outcome : process R cmd set policy with
    | noop response => exact uniform
    | reject rejection => exact uniform
    | commit committed response =>
        rcases process_commit outcome with
          ⟨-, rfl⟩ | ⟨ops, grants, state, isExplicit, -, reconciled, rfl, -, -⟩
        · intro first member
          simp [Outcome.committed] at member
        · have tracked := reconciled.tracked
          have stranger : ∀ own ∈ state.view.entries, own.2.writtenHere = true →
              ∀ entry ∈ state.view.entries, entry.2.writtenHere = false →
                entry.1.path = cmd.path := by
            intro own isOwn written entry member unwritten
            obtain ⟨stood, spared⟩ := (tracked.spared entry).mp ⟨member, unwritten⟩
            exact alike ops _ response isExplicit outcome
              (tracked.leavesOwn_iff.mpr ⟨own, isOwn, written⟩) entry stood spared
          intro first isFirst second isSecond
          change first ∈ state.view.set at isFirst
          change second ∈ state.view.set at isSecond
          rw [← state.view.map_fst_entries] at isFirst isSecond
          rcases List.mem_map.mp isFirst with ⟨one, isOne, rfl⟩
          rcases List.mem_map.mp isSecond with ⟨other, isOther, rfl⟩
          rcases reconciled.source isOne with ⟨unwritten, held⟩ | ⟨written, path⟩
          · rcases reconciled.source isOther with ⟨-, otherHeld⟩ | ⟨otherWritten, otherPath⟩
            · exact uniform _ held _ otherHeld
            · rw [otherPath, stranger other isOther otherWritten one isOne unwritten]
          · rcases reconciled.source isOther with ⟨otherUnwritten, -⟩ | ⟨-, otherPath⟩
            · rw [path, stranger one isOne written other isOther otherUnwritten]
            · rw [path, otherPath]

/-- A request that meets one Path leaves one, and is answered with it, exactly where it writes
alike. -/
theorem answersPath_iff_writesAlike {set : BindingSet} {registration : Registration K}
    (uniform : UniformPath set) :
    AnswersPath R set registration ↔ WritesAlike R set registration := by
  rw [← uniformPath_iff uniform]
  constructor
  · exact AnswersPath.uniform
  · intro uniformNext
    refine ⟨uniformNext, ?_⟩
    intro ops response isExplicit accepted
    rw [accepted_eq_describe isExplicit accepted]
    exact uniformNext.states registration.1.now

/-- In every history whose requests write alike every set carries one Path, and every answer
states it. -/
theorem answersPath_of_history (R : ContactRules K) {history past future : List (Registration K)}
    {registration : Registration K}
    (alike : Along (registrar R) (WritesAlike R) [] history)
    (split : history = past ++ registration :: future) :
    AnswersPath R (after (registrar R) [] past) registration := by
  have uniform : ∀ {past}, Along (registrar R) (WritesAlike R) [] past →
      UniformPath (after (registrar R) [] past) := by
    intro past along
    refine run_induction (registrar R) (fun _ _ set => UniformPath set) ?_ ?_ along
    · intro first member
      simp at member
    · intro past effects set registration uniform alike
      exact (uniformPath_iff uniform).mpr alike
  rcases alike.at_step split with ⟨before, now⟩
  exact (answersPath_iff_writesAlike (uniform before)).mpr now

section TwoAgents

open Reference Sip.Reference

/-- A REGISTER that came along this Path. -/
def along (path : String) (command : RegisterCommand kernel) : RegisterCommand kernel :=
  { command with path := [bytes path], supportsPath := true }

def firstAgent : Registration kernel :=
  (along "<sip:edge1>" (registerAt 0 "a" 1 (.explicit [opLine1 3600])), .default)

def secondAgent (path : String) : Registration kernel :=
  (along path (registerAt 60 "b" 1 (.explicit [opLine2 3600])), .default)

/-- The first agent again, which has moved behind this edge. -/
def movedAgent (path : String) : Registration kernel :=
  (along path (registerAt 30 "a" 2 (.explicit [opLine1 3600])), .default)

instance : DecidableEq kernel.Uri :=
  inferInstanceAs (DecidableEq ParsedUri)

/-- Two user agents behind one edge are answered with their Path, also where one of them has moved
there. -/
theorem answersPath_oneEdge :
    AnswersPath rules (after (registrar rules) [] [firstAgent, movedAgent "<sip:edge2>"])
      (secondAgent "<sip:edge2>") := by
  have alike : Along (registrar rules) (WritesAlike rules) []
      [firstAgent, movedAgent "<sip:edge2>", secondAgent "<sip:edge2>"] := by
    refine ⟨?_, ?_, ?_, trivial⟩
    · exact writesAlike_of_explicit rfl fun _ => by decide +kernel
    · exact writesAlike_of_explicit rfl fun _ => by decide +kernel
    · exact writesAlike_of_explicit rfl fun _ => by decide +kernel
  have split : [firstAgent, movedAgent "<sip:edge2>", secondAgent "<sip:edge2>"] =
      [firstAgent, movedAgent "<sip:edge2>"] ++ secondAgent "<sip:edge2>" :: [] := rfl
  exact answersPath_of_history rules alike split

/-- A user agent behind another edge is answered with the Path of the first. -/
theorem not_answersPath_otherEdge :
    ¬ ∀ (history past future : List (Registration kernel)) (registration : Registration kernel),
      history = past ++ registration :: future →
      AnswersPath rules (after (registrar rules) [] past) registration := by
  intro answers
  have uniform := (answers [firstAgent, secondAgent "<sip:edge2>"] [firstAgent] []
    (secondAgent "<sip:edge2>") rfl).uniform
  exact absurd uniform (by decide +kernel)

end TwoAgents

end SipxClstr.Registrar
