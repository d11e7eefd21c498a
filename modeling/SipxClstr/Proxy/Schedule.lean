import SipxClstr.Proxy.CopyHeaders
import SipxClstr.Proxy.FinalAnswer
import SipxClstr.Proxy.Flight
import Mathlib.Algebra.Order.BigOperators.Group.List
import Mathlib.Algebra.Order.Group.Nat

/-!
# The fork queue

Targets go out most preferred first, one group at a time, and a group is no wider
than the `Max-Breadth` it shares.  The next group waits until every branch of the
one before has concluded, so a group of which nothing goes out is never followed
by another.
-/

namespace SipxClstr.Proxy

open SipxClstr.Sip ResponseContext Reactive Reactive.Machine

variable (K : Kernel)

/-- The `Max-Breadth` a copy carries. -/
def carriedBreadth (copy : Copy K.Uri) : Nat :=
  (headerNumber K u32Max copy.request .maxBreadth).getD 0

/-- The context holds its request and waits for targets: it has forwarded nothing. -/
structure AwaitsTargets (context : ResponseContext K.Uri) (request : Request K.Uri)
    (validated : Validated) : Prop where
  requestEq : context.request = some request
  validatedEq : context.validated = some validated
  unfinished : context.finished = false
  noBranches : context.branches = []
  noQueue : context.queued = []

/-- The groups a run of these inputs forks from a context. -/
def groupsFrom (context : ResponseContext K.Uri) (inputs : List (Input K.Uri)) :
    List (List (ForwardPlan K.Uri)) :=
  observed (onInput K) (plansOf K) context inputs

/-- Whether this step forks a group of which nothing can be built while targets
stay queued behind it. -/
def strandsQueue (context : ResponseContext K.Uri) (input : Input K.Uri) : Bool :=
  (forkedBy K context input).any fun (forking, _) =>
    !(plansOf K context input).any (builds K context.config) &&
      (plansOf K context input).length < forking.queued.length

/-- The targets go out in order, group by group and within the breadth. -/
structure ForksInOrder (breadth : Nat) (context : ResponseContext K.Uri) (targets : List Target)
    (events : List (Input K.Uri)) : Prop where
  descending : (orderByQ targets).Pairwise fun first second => second.q ≤ first.q
  ties : ∀ q, (orderByQ targets).filter (fun target => target.q = q) =
    targets.filter fun target => target.q = q
  tried : (groupsFrom K context (.targetsResolved targets :: events)).flatten.map
    ForwardPlan.target <+: orderByQ targets
  forwarded : (copies (emitted (onInput K) context (.targetsResolved targets :: events))).map
      Copy.target =
    ((groupsFrom K context (.targetsResolved targets :: events)).flatten.filter
      (builds K context.config)).map ForwardPlan.target
  complete : inFlight K context (.targetsResolved targets :: events) = [] →
    (groupsFrom K context (.targetsResolved targets :: events)).flatten.map ForwardPlan.target =
      orderByQ targets
  concluded : ∀ past input future, .targetsResolved targets :: events = past ++ input :: future →
    copies (onInput K (after (onInput K) context past) input).2 ≠ [] →
      inFlight K context (past ++ [input]) =
        copies (onInput K (after (onInput K) context past) input).2
  level : ∀ group ∈ groupsFrom K context (.targetsResolved targets :: events),
    ∀ plan ∈ group, ∀ other ∈ group, plan.target.q = other.target.q
  withinBreadth : ((inFlight K context (.targetsResolved targets :: events)).map
    (carriedBreadth K)).sum ≤ breadth
  carries : ∀ copy ∈ inFlight K context (.targetsResolved targets :: events),
    1 ≤ carriedBreadth K copy

variable {K}

/-! ## The lookup order -/

theorem orderByQ_descending (targets : List Target) :
    (orderByQ targets).Pairwise fun first second => second.q ≤ first.q := by
  have total : Std.Total fun first second : Target => second.q ≤ first.q :=
    ⟨fun first second => Nat.le_total second.q first.q⟩
  have transitive : IsTrans Target fun first second => second.q ≤ first.q :=
    ⟨fun _ _ _ left right => Nat.le_trans right left⟩
  exact List.pairwise_insertionSort _ targets

/-- Inserting a target keeps the targets of its preference behind it in order. -/
theorem filter_orderedInsert (target : Target) (targets : List Target) (q : Nat) :
    (targets.orderedInsert (fun first second => second.q ≤ first.q) target).filter
        (fun entry => entry.q = q) =
      (target :: targets).filter fun entry => entry.q = q := by
  induction targets with
  | nil => rfl
  | cons head rest ih =>
      rw [List.orderedInsert_cons]
      by_cases before : head.q ≤ target.q
      · rw [if_pos before]
      · rw [if_neg before, List.filter_cons, ih]
        by_cases isHead : head.q = q
        · have notTarget : ¬ target.q = q := by omega
          simp [isHead, notTarget]
        · by_cases isTarget : target.q = q <;> simp [isHead, isTarget]

theorem orderByQ_ties (targets : List Target) (q : Nat) :
    (orderByQ targets).filter (fun target => target.q = q) =
      targets.filter fun target => target.q = q := by
  induction targets with
  | nil => rfl
  | cons target rest ih =>
      rw [orderByQ, List.insertionSort_cons, filter_orderedInsert]
      simp only [List.filter_cons]
      rw [← ih]
      rfl

/-! ## One group -/

theorem map_target_groupPlans (context : ResponseContext K.Uri) (request : Request K.Uri)
    (validated : Validated) :
    (groupPlans K context request validated).map ForwardPlan.target =
      context.queued.take (groupSize context.queued validated.maxBreadth) := by
  apply List.ext_getElem
  · simp [groupPlans, nextGroup]
  · intro offset _ _
    simp [groupPlans, nextGroup, forkPlan]

theorem length_groupPlans (context : ResponseContext K.Uri) (request : Request K.Uri)
    (validated : Validated) :
    (groupPlans K context request validated).length =
      min (groupSize context.queued validated.maxBreadth) context.queued.length := by
  rw [← List.length_map ForwardPlan.target, map_target_groupPlans, List.length_take]

/-- A group is of one preference. -/
theorem q_of_mem_groupPlans {context : ResponseContext K.Uri} {request : Request K.Uri}
    {validated : Validated} {plan : ForwardPlan K.Uri}
    (member : plan ∈ groupPlans K context request validated) :
    plan.target.q = (context.queued.head?.map Target.q).getD 0 := by
  have listed : plan.target ∈ context.queued.take
      (groupSize context.queued validated.maxBreadth) := by
    rw [← map_target_groupPlans context request validated]
    exact List.mem_map_of_mem member
  obtain ⟨place, bound, found⟩ := List.mem_take_iff_getElem.mp listed
  have early : place < context.queued.findIdx fun target =>
      target.q ≠ (context.queued.head?.map Target.q).getD 0 := by
    have leading : groupSize context.queued validated.maxBreadth ≤ context.queued.findIdx fun target =>
        target.q ≠ (context.queued.head?.map Target.q).getD 0 := Nat.min_le_left _ _
    omega
  have sameQ := List.not_of_lt_findIdx early
  rw [found] at sameQ
  simpa using sameQ

/-- A copy of a group carries its share of the breadth. -/
theorem carriedBreadth_of_buildCopy (accepts : AcceptsNumbers K) {context : ResponseContext K.Uri}
    {request : Request K.Uri} {validated : Validated} {config : ProxyConfig}
    {plan : ForwardPlan K.Uri} {copy : Copy K.Uri} (fits : validated.maxBreadth ≤ u32Max)
    (member : plan ∈ groupPlans K context request validated)
    (built : buildCopy K config plan = some copy) :
    carriedBreadth K copy =
      breadthShare validated (min (nextGroup K context validated).length u32Max) := by
  have planned : plan.validated = validated ∧
      plan.parallelBranches = min (nextGroup K context validated).length u32Max := by
    obtain ⟨offset, bound, rfl⟩ := List.mem_iff_getElem.mp member
    simp [groupPlans, forkPlan]
  have small : breadthShare plan.validated plan.parallelBranches ≤ u32Max := by
    rw [breadthShare, planned.1]
    apply max_le
    · exact Nat.le_trans (Nat.div_le_self _ _) fits
    · decide
  unfold buildCopy at built
  split at built
  · contradiction
  · next branch forwarded nextHop copied =>
      rw [← Option.some.inj built, carriedBreadth,
        headerNumber_maxBreadth_forward accepts copied small, planned.1, planned.2]
      rfl

/-- The copies of a group share the breadth and no more. -/
theorem sum_carriedBreadth_le (accepts : AcceptsNumbers K) {context : ResponseContext K.Uri}
    {request : Request K.Uri} {validated : Validated} {config : ProxyConfig}
    (atLeastOne : 1 ≤ validated.maxBreadth) (fits : validated.maxBreadth ≤ u32Max) :
    (((groupPlans K context request validated).filterMap (buildCopy K config)).map
      (carriedBreadth K)).sum ≤ validated.maxBreadth := by
  have width : (nextGroup K context validated).length ≤ validated.maxBreadth := by
    have cut : groupSize context.queued validated.maxBreadth ≤ max validated.maxBreadth 1 :=
      Nat.min_le_right _ _
    rw [nextGroup, List.length_take]
    omega
  have share : ((groupPlans K context request validated).filterMap (buildCopy K config)).map
      (carriedBreadth K) =
        List.replicate ((groupPlans K context request validated).filterMap (buildCopy K config)).length
          (breadthShare validated (nextGroup K context validated).length) := by
    rw [List.eq_replicate_iff]
    constructor
    · exact List.length_map _
    · intro carried member
      obtain ⟨copy, copyMember, rfl⟩ := List.mem_map.mp member
      obtain ⟨plan, planMember, built⟩ := List.mem_filterMap.mp copyMember
      rw [carriedBreadth_of_buildCopy accepts fits planMember built,
        Nat.min_eq_left (Nat.le_trans width fits)]
  have count : ((groupPlans K context request validated).filterMap (buildCopy K config)).length ≤
      (nextGroup K context validated).length := by
    apply Nat.le_trans (List.length_filterMap_le _ _)
    simp [groupPlans]
  rw [share, List.sum_replicate_nat]
  have product : (nextGroup K context validated).length *
      breadthShare validated (nextGroup K context validated).length ≤ validated.maxBreadth := by
    cases length : (nextGroup K context validated).length with
    | zero => simp
    | succ rest =>
        have quotient : 1 ≤ validated.maxBreadth / (rest + 1) := by
          rw [Nat.le_div_iff_mul_le (Nat.succ_pos rest)]
          omega
        have shared : breadthShare validated (rest + 1) = validated.maxBreadth / (rest + 1) := by
          rw [breadthShare, Nat.max_eq_left (Nat.succ_pos rest), Nat.max_eq_left quotient]
        rw [shared]
        exact Nat.mul_div_le _ _
  exact Nat.le_trans (Nat.mul_le_mul_right _ count) product

/-! ## The schedule of a run -/

/-- Where a run stands: the targets tried and those queued make up the lookup
order, and the copies in flight are those of the branches that owe a final. -/
structure Scheduled (config : ProxyConfig) (request : Request K.Uri) (validated : Validated)
    (order tried : List Target) (flying : List (Copy K.Uri)) (state : ResponseContext K.Uri) :
    Prop where
  configEq : state.config = config
  requestEq : state.request = some request
  validatedEq : state.validated = some validated
  order : tried ++ state.queued = order
  live : ∀ branch, isLive state branch ↔ ∃ copy ∈ flying, copy.branch = branch
  breadth : (flying.map (carriedBreadth K)).sum ≤ validated.maxBreadth
  carries : ∀ copy ∈ flying, 1 ≤ carriedBreadth K copy
  unanswered : state.finished = false → state.answered = false
  ended : state.finished = true → state.queued = [] ∧ flying = []
  moving : state.finished = false → state.queued ≠ [] → flying ≠ []

section Runs

variable {config : ProxyConfig} {request : Request K.Uri} {validated : Validated}
  {order tried : List Target} {flying : List (Copy K.Uri)} {state : ResponseContext K.Uri}

/-- Forking a settled context moves its group from the queue to what was tried. -/
theorem Forks.scheduled (accepts : AcceptsNumbers K) (atLeastOne : 1 ≤ validated.maxBreadth)
    (fits : validated.maxBreadth ≤ u32Max) {forking : ResponseContext K.Uri}
    {outcome : Outcome K.Uri} (forks : Forks forking request validated outcome)
    (configEq : forking.config = config) (sameConfig : outcome.1.config = config)
    (orderEq : tried ++ forking.queued = order)
    (moves : (groupPlans K forking request validated).any (builds K config) = true ∨
      forking.queued.length ≤ (groupPlans K forking request validated).length) :
    Scheduled config request validated order
      (tried ++ (groupPlans K forking request validated).map ForwardPlan.target)
      (copies outcome.2) outcome.1 where
  configEq := sameConfig
  requestEq := forks.requestEq
  validatedEq := forks.validatedEq
  order := by
    rw [forks.queued, map_target_groupPlans, List.append_assoc, List.take_append_drop]
    exact orderEq
  live := forks.live
  breadth := by
    rw [forks.forwards]
    exact sum_carriedBreadth_le accepts atLeastOne fits
  carries copy member := by
    rw [forks.forwards] at member
    obtain ⟨plan, planMember, built⟩ := List.mem_filterMap.mp member
    rw [carriedBreadth_of_buildCopy accepts fits planMember built]
    exact Nat.le_max_right _ _
  unanswered := forks.unanswered
  ended := forks.ended
  moving _ queued := by
    rw [forks.forwards, configEq]
    rcases moves with someBuilt | whole
    · obtain ⟨plan, member, built⟩ := List.any_eq_true.mp someBuilt
      obtain ⟨copy, copyEq⟩ := Option.isSome_iff_exists.mp built
      exact List.ne_nil_of_mem (List.mem_filterMap.mpr ⟨plan, member, copyEq⟩)
    · rw [length_groupPlans] at whole
      rw [forks.queued] at queued
      apply absurd _ queued
      apply List.drop_eq_nil_of_le
      omega

/-- How a step takes a schedule on: to what it tried now, and to what is in flight
now, which is the copies it forwards when it forwards any. -/
structure TakesOn (config : ProxyConfig) (request : Request K.Uri) (validated : Validated)
    (order tried : List Target) (flying : List (Copy K.Uri)) (state : ResponseContext K.Uri)
    (input : Input K.Uri) : Prop where
  scheduled : Scheduled config request validated order
    (tried ++ (plansOf K state input).map ForwardPlan.target)
    (remaining state input flying ++ copies (onInput K state input).2) (onInput K state input).1
  alone : copies (onInput K state input).2 ≠ [] → remaining state input flying = []
  level : ∀ plan ∈ plansOf K state input, ∀ other ∈ plansOf K state input,
    plan.target.q = other.target.q

/-- A step that idles leaves the schedule as it is. -/
theorem Scheduled.idle {input : Input K.Uri}
    (scheduled : Scheduled config request validated order tried flying state)
    (idles : Idles state input (onInput K state input)) :
    TakesOn config request validated order tried flying state input := by
  have unplanned := idles.unplanned
  have kept := remaining_of_idles scheduled.live idles
  constructor
  · rw [unplanned, kept, idles.forwards, List.map_nil, List.append_nil, List.append_nil]
    constructor
    · exact idles.config.trans scheduled.configEq
    · exact idles.request.trans scheduled.requestEq
    · exact idles.validated.trans scheduled.validatedEq
    · rw [idles.queued]
      exact scheduled.order
    · intro branch
      rw [idles.live]
      exact scheduled.live branch
    · exact scheduled.breadth
    · exact scheduled.carries
    · rw [idles.finished, idles.answered]
      exact scheduled.unanswered
    · rw [idles.finished, idles.queued]
      exact scheduled.ended
    · rw [idles.finished, idles.queued]
      exact scheduled.moving
  · intro forwards
    exact absurd idles.forwards forwards
  · intro plan member
    rw [unplanned] at member
    contradiction

theorem Scheduled.finished {input : Input K.Uri}
    (scheduled : Scheduled config request validated order tried flying state)
    (finished : state.finished = true) :
    TakesOn config request validated order tried flying state input := by
  have unplanned := plansOf_of_finished finished input
  have landed : remaining state input flying = [] := by
    rw [(scheduled.ended finished).2]
    rfl
  constructor
  · rw [unplanned, onInput_finished finished, landed]
    rw [(scheduled.ended finished).2] at scheduled
    simpa using scheduled
  · exact fun _ => landed
  · intro plan member
    rw [unplanned] at member
    contradiction

/-- The copies left in flight share no more breadth than those there were. -/
theorem sum_remaining_le (input : Input K.Uri) :
    ((remaining state input flying).map (carriedBreadth K)).sum ≤
      (flying.map (carriedBreadth K)).sum :=
  (List.filter_sublist.map _).sum_le_sum fun _ _ => Nat.zero_le _

/-- A step that records a final waits, forks the next group or ends. -/
theorem Scheduled.record (accepts : AcceptsNumbers K) (atLeastOne : 1 ≤ validated.maxBreadth)
    (fits : validated.maxBreadth ≤ u32Max) {input : Input K.Uri} {branch : BranchId}
    {recorded : ResponseContext K.Uri} (coherent : Coherent state)
    (scheduled : Scheduled config request validated order tried flying state)
    (unfinished : state.finished = false)
    (records : Records K state request input branch recorded)
    (concludes : concludedBy K state input = some branch)
    (continues : onInput K state input = continueSelection K recorded request)
    (moves : strandsQueue K state input = false) :
    TakesOn config request validated order tried flying state input := by
  obtain ⟨status, final, recordedEq⟩ := records.frame
  have live := isLive_of_records scheduled.live records concludes
  have requestEq : recorded.request = some request := by
    rw [recordedEq]; exact scheduled.requestEq
  have validatedEq : recorded.validated = some validated := by
    rw [recordedEq]; exact scheduled.validatedEq
  have configEq : recorded.config = config := by rw [recordedEq]; exact scheduled.configEq
  have queuedEq : recorded.queued = state.queued := by rw [recordedEq]; rfl
  have open_ : recorded.finished = false := by rw [recordedEq]; exact unfinished
  have unanswered : recorded.answered = false := by
    rw [recordedEq]; exact scheduled.unanswered unfinished
  have planned := plansOf_of_records unfinished scheduled.requestEq records validatedEq
  have landed := landed_of_settled live
  have sameConfig : (onInput K state input).1.config = config :=
    (onInput_advances coherent input).config.trans scheduled.configEq
  cases pending : recorded.hasPending with
  | true =>
      -- Other branches owe their finals.
      have waits : onInput K state input = (recorded, []) := by
        rw [continues, continueSelection, if_pos pending]
      have unplanned : plansOf K state input = [] := by
        rw [planned]
        simp [pending]
      constructor
      · rw [unplanned, waits, List.map_nil, List.append_nil, copies_nil, List.append_nil]
        constructor
        · exact configEq
        · exact requestEq
        · exact validatedEq
        · rw [queuedEq]
          exact scheduled.order
        · exact live
        · exact Nat.le_trans (sum_remaining_le input) scheduled.breadth
        · exact fun copy member => scheduled.carries copy (mem_remaining.mp member).1
        · exact fun _ => unanswered
        · intro finished
          rw [open_] at finished
          contradiction
        · intro _ _ landedAll
          obtain ⟨other, otherLive⟩ := hasPending_iff.mp pending
          obtain ⟨copy, member, -⟩ := (live other).mp otherLive
          rw [landedAll] at member
          contradiction
      · rw [waits]
        exact fun forwards => absurd rfl forwards
      · intro plan member
        rw [unplanned] at member
        contradiction
  | false =>
      cases mayFork : recorded.mayForkNextGroup with
      | true =>
          have forkEq : onInput K state input = forkNextGroup K recorded := by
            rw [continues, continueSelection, if_neg (by simp [pending]), if_pos mayFork]
          have plannedGroup : plansOf K state input = groupPlans K recorded request validated := by
            rw [planned]
            simp [pending, mayFork]
          have forks := forkNextGroup_forks requestEq validatedEq (queued_ne_nil_of_mayFork mayFork)
            pending open_ unanswered
          have someBuilt : (groupPlans K recorded request validated).any (builds K config) = true ∨
              recorded.queued.length ≤ (groupPlans K recorded request validated).length := by
            have forkedEq : forkedBy K state input = some (recorded, request) := by
              simp [forkedBy, unfinished, records.untargeted, scheduled.requestEq,
                records.recordedBy_eq, pending, mayFork]
            simp only [strandsQueue, forkedEq, Option.any_some, plannedGroup, scheduled.configEq,
              Bool.and_eq_false_iff, Bool.not_eq_eq_eq_not, Bool.not_false, decide_eq_false_iff_not,
              Nat.not_lt] at moves
            exact moves
          constructor
          · rw [plannedGroup, landed pending, List.nil_append]
            rw [forkEq] at sameConfig ⊢
            exact forks.scheduled accepts atLeastOne fits configEq sameConfig
              (by rw [queuedEq]; exact scheduled.order) someBuilt
          · exact fun _ => landed pending
          · intro plan member other otherMember
            rw [plannedGroup] at member otherMember
            rw [q_of_mem_groupPlans member, q_of_mem_groupPlans otherMember]
      | false =>
          -- Nothing is left to fork: the context ends.
          have selectEq : onInput K state input = selectAndAnswer K recorded request := by
            rw [continues, continueSelection, if_neg (by simp [pending]),
              if_neg (by simp [mayFork])]
          have unplanned : plansOf K state input = [] := by
            rw [planned]
            simp [mayFork]
          have noQueue : recorded.queued = [] := by
            simpa [mayForkNextGroup, unanswered, open_] using mayFork
          have ended : (onInput K state input).1 =
              { recorded with answered := true, finished := true } := by
            rw [selectEq]
            rcases selectAndAnswer_cases pending request with
              ⟨answered, _⟩ | ⟨_, selected⟩ | ⟨_, best, response, _, _, _, selected⟩
            · rw [unanswered] at answered
              contradiction
            · rw [selected, respondAndFinish_fst]
            · rw [selected]
          have noCopies : copies (onInput K state input).2 = [] := by
            rw [selectEq]
            exact copies_selectAndAnswer pending request
          constructor
          · rw [unplanned, noCopies, landed pending, ended]
            constructor
            · exact configEq
            · exact requestEq
            · exact validatedEq
            · rw [← scheduled.order, ← queuedEq]
              simp
            · intro other
              have noneLive := live other
              rw [landed pending] at noneLive
              exact noneLive
            · exact Nat.zero_le _
            · exact fun copy member => absurd member List.not_mem_nil
            · exact fun finished => absurd finished (by simp)
            · exact fun _ => ⟨noQueue, rfl⟩
            · exact fun finished => absurd finished (by simp)
          · exact fun forwards => absurd noCopies forwards
          · intro plan member
            rw [unplanned] at member
            contradiction

/-- Taking up the targets starts the schedule. -/
theorem scheduled_start (accepts : AcceptsNumbers K) (atLeastOne : 1 ≤ validated.maxBreadth)
    (fits : validated.maxBreadth ≤ u32Max) (coherent : Coherent state)
    (awaits : AwaitsTargets K state request validated) (unanswered : state.answered = false)
    (targets : List Target) (moves : strandsQueue K state (.targetsResolved targets) = false) :
    Scheduled state.config request validated (orderByQ targets)
        ((plansOf K state (.targetsResolved targets)).map ForwardPlan.target)
        (copies (onInput K state (.targetsResolved targets)).2)
        (onInput K state (.targetsResolved targets)).1 ∧
      ∀ plan ∈ plansOf K state (.targetsResolved targets),
        ∀ other ∈ plansOf K state (.targetsResolved targets), plan.target.q = other.target.q := by
  have sameConfig : (onInput K state (.targetsResolved targets)).1.config = state.config :=
    (onInput_advances coherent _).config
  by_cases empty : targets = []
  · -- An empty set is answered at once.
    subst empty
    have answered : onInput K state (.targetsResolved []) =
        respondAndFinish K state request 480 (text "Temporarily Unavailable") := by
      simp [onInput, awaits.unfinished, onTargets, awaits.requestEq]
    have unplanned : plansOf K state (.targetsResolved []) = [] := by
      apply plansOf_of_stands
      · rfl
      · exact fun _ _ => rfl
    have noCopies : copies (onInput K state (.targetsResolved [])).2 = [] := by
      rw [answered, copies_eq_nil_iff]
      exact launches_respondAndFinish _ _ _ _
    have ended : (onInput K state (.targetsResolved [])).1 =
        { state with answered := true, finished := true } := by
      rw [answered, respondAndFinish_fst]
    constructor
    · rw [unplanned, noCopies, ended]
      constructor
      · rfl
      · exact awaits.requestEq
      · exact awaits.validatedEq
      · exact awaits.noQueue
      · intro branch
        constructor
        · rintro ⟨entry, member, -⟩
          rw [show state.branches = [] from awaits.noBranches] at member
          contradiction
        · rintro ⟨copy, member, -⟩
          contradiction
      · exact Nat.zero_le _
      · exact fun copy member => absurd member List.not_mem_nil
      · exact fun finished => absurd finished (by simp)
      · exact fun _ => ⟨awaits.noQueue, rfl⟩
      · exact fun finished => absurd finished (by simp)
    · intro plan member
      rw [unplanned] at member
      contradiction
  · have takes : TakesTargets K state (.targetsResolved targets)
        { state with queued := orderByQ targets } request :=
      .resolved request targets awaits.requestEq empty
    have forkEq := onInput_of_takesTargets awaits.unfinished takes
    have planned := plansOf_of_takes awaits.unfinished takes awaits.validatedEq
    have settled : ({ state with queued := orderByQ targets } :
        ResponseContext K.Uri).hasPending = false := by
      simp [hasPending, awaits.noBranches]
    have forks := forkNextGroup_forks takes.request_eq awaits.validatedEq takes.queued_ne_nil settled
      awaits.unfinished unanswered
    have forkedEq : forkedBy K state (.targetsResolved targets) =
        some ({ state with queued := orderByQ targets }, request) := by
      simp [forkedBy, awaits.unfinished, takes.targetedBy_eq]
    simp only [strandsQueue, forkedEq, Option.any_some, planned, Bool.and_eq_false_iff,
      Bool.not_eq_eq_eq_not, Bool.not_false, decide_eq_false_iff_not, Nat.not_lt] at moves
    constructor
    · rw [planned]
      rw [forkEq] at sameConfig ⊢
      have scheduled : Scheduled state.config request validated (orderByQ targets)
          ([] ++ _) _ _ :=
        forks.scheduled accepts atLeastOne fits rfl sameConfig rfl moves
      exact scheduled
    · intro plan member other otherMember
      rw [planned] at member otherMember
      rw [q_of_mem_groupPlans member, q_of_mem_groupPlans otherMember]

end Runs

/-! ## Every run -/

/-- A branch event takes the schedule on. -/
theorem Scheduled.takesOn (accepts : AcceptsNumbers K) {config : ProxyConfig}
    {request : Request K.Uri} {validated : Validated} {order tried : List Target}
    {flying : List (Copy K.Uri)} {state : ResponseContext K.Uri} {input : Input K.Uri}
    (atLeastOne : 1 ≤ validated.maxBreadth) (fits : validated.maxBreadth ≤ u32Max)
    (coherent : Coherent state)
    (scheduled : Scheduled config request validated order tried flying state)
    (event : IsBranchEvent K request input) (moves : strandsQueue K state input = false) :
    TakesOn config request validated order tried flying state input := by
  cases finished : state.finished with
  | true => exact scheduled.finished finished
  | false =>
      rcases branchEvent_cases coherent finished scheduled.requestEq event with
        ⟨branch, recorded, records, concludes, continues⟩ | idles
      · exact scheduled.record accepts atLeastOne fits coherent finished records concludes continues
          moves
      · exact scheduled.idle idles

variable {config : ProxyConfig} {past : List (Input K.Uri)} {request : Request K.Uri}
  {validated : Validated}

theorem groupsFrom_concat (context : ResponseContext K.Uri) (inputs : List (Input K.Uri))
    (input : Input K.Uri) :
    groupsFrom K context (inputs ++ [input]) =
      groupsFrom K context inputs ++ [plansOf K (after (onInput K) context inputs) input] :=
  observed_concat (onInput K) (plansOf K) context inputs input

/-- Where a run stands that took up its targets: its schedule, and what each of its
steps so far forwarded and forked. -/
structure RunScheduled (context : ResponseContext K.Uri) (request : Request K.Uri)
    (validated : Validated) (targets : List Target) (inputs : List (Input K.Uri)) : Prop where
  coherent : Coherent (after (onInput K) context inputs)
  scheduled : Scheduled context.config request validated (orderByQ targets)
    ((groupsFrom K context inputs).flatten.map ForwardPlan.target) (inFlight K context inputs)
    (after (onInput K) context inputs)
  concluded : ∀ earlier input later, inputs = earlier ++ input :: later →
    copies (onInput K (after (onInput K) context earlier) input).2 ≠ [] →
      inFlight K context (earlier ++ [input]) =
        copies (onInput K (after (onInput K) context earlier) input).2
  level : ∀ group ∈ groupsFrom K context inputs, ∀ plan ∈ group, ∀ other ∈ group,
    plan.target.q = other.target.q
  forwarded : copies (emitted (onInput K) context inputs) =
    (groupsFrom K context inputs).flatten.filterMap (buildCopy K context.config)

theorem runScheduled (accepts : AcceptsNumbers K) {context : ResponseContext K.Uri}
    (coherent : Coherent context) (awaits : AwaitsTargets K context request validated)
    (unanswered : context.answered = false) (atLeastOne : 1 ≤ validated.maxBreadth)
    (fits : validated.maxBreadth ≤ u32Max) (targets : List Target) (events : List (Input K.Uri))
    (areEvents : ∀ input ∈ events, IsBranchEvent K request input)
    (moves : Along (onInput K) (fun state input => strandsQueue K state input = false) context
      (.targetsResolved targets :: events)) :
    RunScheduled context request validated targets (.targetsResolved targets :: events) := by
  induction events using List.reverseRecOn with
  | nil =>
      obtain ⟨scheduled, level⟩ := scheduled_start accepts atLeastOne fits coherent awaits unanswered
        targets moves.1
      have flying : inFlight K context [.targetsResolved targets] =
          copies (onInput K context (.targetsResolved targets)).2 := by
        rw [← List.nil_append [Input.targetsResolved targets], inFlight_concat]
        rfl
      have groups : groupsFrom K context [.targetsResolved targets] =
          [plansOf K context (.targetsResolved targets)] := rfl
      constructor
      · exact (onInput_advances coherent _).coherent
      · rw [groups, flying, List.flatten_singleton]
        exact scheduled
      · intro earlier input later split forwards
        cases earlier with
        | nil =>
            obtain ⟨rfl, rfl⟩ := List.cons.inj split
            exact flying
        | cons first rest =>
            have lengths := congrArg List.length split
            simp at lengths
      · rw [groups]
        intro group member
        rw [List.mem_singleton.mp member]
        exact level
      · rw [groups, List.flatten_singleton, emitted_cons, emitted_nil, List.append_nil]
        exact onInput_copies coherent _
  | append_singleton events input ih =>
      rw [← List.cons_append] at moves ⊢
      rw [along_append] at moves
      have earlier := ih (fun input member => areEvents input (List.mem_append_left _ member)) moves.1
      have takesOn := earlier.scheduled.takesOn accepts atLeastOne fits earlier.coherent
        (areEvents input (by simp)) moves.2.1
      constructor
      · rw [after_concat]
        exact (onInput_advances earlier.coherent input).coherent
      · rw [after_concat, inFlight_concat, groupsFrom_concat, List.flatten_concat, List.map_append]
        exact takesOn.scheduled
      · intro before cause later split forwards
        rcases concat_eq_append_cons split with ⟨rfl, rfl, rfl⟩ | ⟨between, rfl, held⟩
        · rw [inFlight_concat, takesOn.alone forwards, List.nil_append]
        · exact earlier.concluded before cause between held forwards
      · rw [groupsFrom_concat]
        intro group member
        rcases List.mem_append.mp member with old | new
        · exact earlier.level group old
        · rw [List.mem_singleton.mp new]
          exact takesOn.level
      · rw [emitted_concat, copies_append, earlier.forwarded, groupsFrom_concat,
          List.flatten_concat, List.filterMap_append, onInput_copies earlier.coherent,
          earlier.scheduled.configEq]

/-- What was built of what was tried, in the order it was tried. -/
theorem map_target_copies (config : ProxyConfig) (plans : List (ForwardPlan K.Uri)) :
    (plans.filterMap (buildCopy K config)).map Copy.target =
      (plans.filter (builds K config)).map ForwardPlan.target := by
  induction plans with
  | nil => rfl
  | cons plan rest ih =>
      cases built : buildCopy K config plan with
      | none => simp [builds, built, ih]
      | some copy =>
          have sameTarget : copy.target = plan.target := by
            unfold buildCopy at built
            split at built
            · contradiction
            · rw [← Option.some.inj built]
          simp [builds, built, ih, sameTarget]

/-- In a run none of whose groups strands the queue the targets go out in order,
none is dropped, and the branches outstanding stay within the breadth. -/
theorem forksInOrder_of_not_strandsQueue (accepts : AcceptsNumbers K)
    (awaits : AwaitsTargets K (after (onInput K) (.new config) past) request validated)
    (atLeastOne : 1 ≤ validated.maxBreadth) (fits : validated.maxBreadth ≤ u32Max)
    (targets : List Target) (events : List (Input K.Uri))
    (areEvents : ∀ input ∈ events, IsBranchEvent K request input)
    (moves : Along (onInput K) (fun state input => strandsQueue K state input = false)
      (after (onInput K) (.new config) past) (.targetsResolved targets :: events)) :
    ForksInOrder K validated.maxBreadth (after (onInput K) (.new config) past) targets events := by
  have unanswered : (after (onInput K) (.new config) past).answered = false := by
    cases answered : (after (onInput K) (.new config) past).answered with
    | false => rfl
    | true =>
        have branches := (answered_after_final config past).2 answered awaits.unfinished
        exact absurd awaits.noBranches branches
  have run := runScheduled accepts (coherent_after config past) awaits unanswered atLeastOne fits
    targets events areEvents moves
  have scheduled := run.scheduled
  constructor
  · exact orderByQ_descending targets
  · exact orderByQ_ties targets
  · exact ⟨_, scheduled.order⟩
  · rw [run.forwarded]
    exact map_target_copies _ _
  · intro landed
    have noQueue : (after (onInput K) (after (onInput K) (.new config) past)
        (.targetsResolved targets :: events)).queued = [] := by
      cases finished : (after (onInput K) (after (onInput K) (.new config) past)
          (.targetsResolved targets :: events)).finished with
      | true => exact (scheduled.ended finished).1
      | false =>
          by_contra queued
          exact scheduled.moving finished queued landed
    rw [← scheduled.order, noQueue, List.append_nil]
  · exact run.concluded
  · exact run.level
  · exact scheduled.breadth
  · exact scheduled.carries

/-- A request whose targets are asked for on its arrival awaits them. -/
theorem awaitsTargets_of_asked {arrived : Request K.Uri}
    (accepted : validate K arrived config = .ok validated)
    (untokened : (preprocess K arrived config).2 = none)
    (asked : isPredetermined K (preprocess K arrived config).1 = false) :
    AwaitsTargets K (after (onInput K) (.new config) [.upstream arrived])
      (preprocess K arrived config).1 validated := by
  simp only [isPredetermined, Bool.or_eq_false_iff] at asked
  have routed : after (onInput K) (.new config) [.upstream arrived] =
      arrivedContext K (.new config) arrived validated := by
    rw [after_cons, after_nil]
    simp only [onInput, onUpstream, ResponseContext.new, accepted, untokened, routeIt, asked,
      Bool.false_eq_true, if_false, arrivedContext]
  rw [routed]
  constructor <;> rfl

/-- What validation learns of `invite`. -/
def inviteValidated : Validated where
  maxForwards := 70
  maxBreadth := 60
  cookieInput := CookieInput.fromRequest Reference.kernel invite

/-- The reference kernel accepts numbers: no digit breaks the line. -/
theorem acceptsNumbers_reference : AcceptsNumbers Reference.kernel := by
  intro name value
  change (utf8 (decimal value)).all (fun byte => byte ≠ 0x0D && byte ≠ 0x0A) = true
  rw [List.all_eq_true]
  intro byte member
  obtain ⟨digit, digitMember, encoded⟩ := List.mem_flatMap.mp member
  have isDigit := isDigit_of_mem_decimal digitMember
  simp only [Char.isDigit, Bool.and_eq_true, decide_eq_true_eq, UInt32.le_iff_toNat_le] at isDigit
  obtain ⟨low, high⟩ := isDigit
  change 48 ≤ digit.val.toNat at low
  change digit.val.toNat ≤ 57 at high
  have ascii : digit.val.toNat ≤ 0x7f := by omega
  rw [String.utf8EncodeChar, if_pos ascii, List.mem_singleton] at encoded
  have code : byte.toNat = digit.val.toNat := by
    rw [encoded]
    exact uint8_toNat_ofNat (by omega)
  have notReturn : byte ≠ 0x0D := by
    rintro rfl
    rw [show (0x0D : UInt8).toNat = 13 from rfl] at code
    omega
  have notFeed : byte ≠ 0x0A := by
    rintro rfl
    rw [show (0x0A : UInt8).toNat = 10 from rfl] at code
    omega
  simp [notReturn, notFeed]

/-- The only target of the first group does not parse: nothing is in flight, and the
second target is never tried. -/
theorem not_forksInOrder_unbuildable_group :
    ¬ ForksInOrder Reference.kernel 60
      (after (onInput Reference.kernel) (.new edge) [.upstream invite])
      [phone "" 1000, phone "sip:bob@10.0.0.2" 500] [] := by
  intro inOrder
  have landed : inFlight Reference.kernel
      (after (onInput Reference.kernel) (.new edge) [.upstream invite])
      [.targetsResolved [phone "" 1000, phone "sip:bob@10.0.0.2" 500]] = [] := by
    apply List.length_eq_zero_iff.mp
    decide +kernel
  exact absurd (inOrder.complete landed) (by decide +kernel)

/-- When the first group's only branch is busy the second group goes out. -/
theorem forksInOrder_second_group :
    ForksInOrder Reference.kernel inviteValidated.maxBreadth
      (after (onInput Reference.kernel) (.new edge) [.upstream invite])
      [phone "sip:bob@10.0.0.1" 1000, phone "" 500, phone "sip:bob@10.0.0.2" 500]
      [.branchResponse (reply ⟨486, by decide⟩ branchA) branchA] :=
  forksInOrder_of_not_strandsQueue acceptsNumbers_reference
    (awaitsTargets_of_asked (by decide +kernel) (by decide +kernel) (by decide +kernel))
    (by decide) (by decide) _ _ (by decide) (by decide +kernel)

end SipxClstr.Proxy
