import SipxClstr.Proxy.LoopDetection
import SipxClstr.Proxy.Schedule
import SipxClstr.Reactive.Delegation
import SipxClstr.Sip.Ascii

/-!
# Amplification

A copy that goes out may be taken up by a further context, whose own copies may be taken up in
turn, loops and spirals included.  Every context divides the `Max-Breadth` it was given among the
copies it has in flight and gives each of them one hop less, so the request at the root bounds what
the whole tree has in flight and how deep it goes.
-/

namespace SipxClstr.Proxy

open SipxClstr.Sip ResponseContext Reactive Reactive.Machine

variable (K : Kernel)

/-- A context at work on a request: how it is configured, the request that arrived, and what it
took in since. -/
structure Serving where
  config : ProxyConfig
  request : Request K.Uri
  later : List (Input K.Uri)

namespace Serving

variable {K}

def inputs (serving : Serving K) : List (Input K.Uri) :=
  .upstream serving.request :: serving.later

def state (serving : Serving K) : ResponseContext K.Uri :=
  after (onInput K) (.new serving.config) serving.inputs

/-- The `Max-Breadth` it has to divide: what the request says, or its own default; none when it
refuses the request. -/
def breadth (serving : Serving K) : Nat :=
  match validate K serving.request serving.config with
  | .ok validated => validated.maxBreadth
  | .error _ => 0

/-- The hops it has left: what the request says, or its own default; none when it refuses the
request. -/
def hops (serving : Serving K) : Nat :=
  match validate K serving.request serving.config with
  | .ok validated => validated.maxForwards
  | .error _ => 0

/-- The context takes one more input in. -/
def feed (serving : Serving K) (input : Input K.Uri) : Serving K :=
  { serving with later := serving.later ++ [input] }

end Serving

/-- A tree of contexts: each copy in flight waits for someone to take it up, or a context works on
it that has copies in flight itself. -/
abbrev Tree := Work (Serving K) (Copy K.Uri)

/-- What the driver tells a context before a copy goes out: the targets, the verdict on a token,
the tokens to record. -/
def IsDecision : Input K.Uri → Prop
  | .targetsResolved _ => True
  | .targetsUnavailable => True
  | .tokenFact _ => True
  | .tokensMinted _ => True
  | _ => False

variable {K}

/-- What comes back for a copy: a context sends what it answered, an endpoint may send anything. -/
def Answers : Tree K → Response → Prop
  | .waiting, _ => True
  | .worker serving _, response =>
      response ∈ answers (emitted (onInput K) (.new serving.config) serving.inputs)

/-- The copies in flight once the context has taken this input in, with what is being done about
them: a copy whose branch concludes is gone, and nobody has taken up those that go out. -/
def Serving.flying (serving : Serving K) (input : Input K.Uri)
    (works : List (Copy K.Uri × Tree K)) : List (Copy K.Uri × Tree K) :=
  (works.filter fun entry => !decide (concludedBy K serving.state input = some entry.1.branch)) ++
    (copies (onInput K serving.state input).2).map fun copy => (copy, .waiting)

/-- A request arrives at a context. -/
def arrive (config : ProxyConfig) (request : Request K.Uri) : Tree K :=
  .worker ⟨config, request, []⟩
    ((copies (onInput K (.new config) (.upstream request)).2).map fun copy => (copy, .waiting))

/-- What happens at one context of the tree: its driver decides before any copy has gone out, one
of its branches answers, or a further context takes a copy up.  A branch concludes by the final
response its copy received, and no answer accepts or rejects the request for every branch. -/
inductive Acts : Serving K → List (Copy K.Uri × Tree K) → Serving K →
    List (Copy K.Uri × Tree K) → Prop where
  | decides {serving : Serving K} {works : List (Copy K.Uri × Tree K)} (input : Input K.Uri)
      (decision : IsDecision K input) (early : serving.state.branches = []) :
      Acts serving works (serving.feed input) (serving.flying input works)
  | hears {serving : Serving K} {works : List (Copy K.Uri × Tree K)} {entry : Copy K.Uri × Tree K}
      (member : entry ∈ works) (response : Response) (answers : Answers entry.2 response)
      (event : ∀ request, serving.state.request = some request →
        IsBranchEvent K request (.branchResponse response entry.1.branch)) :
      Acts serving works (serving.feed (.branchResponse response entry.1.branch))
        (serving.flying (.branchResponse response entry.1.branch) works)
  | takesUp {serving : Serving K} {works : List (Copy K.Uri × Tree K)} {copy : Copy K.Uri}
      (place : Nat) (unclaimed : works[place]? = some (copy, .waiting)) (config : ProxyConfig) :
      Acts serving works serving (works.set place (copy, arrive config copy.request))

/-- What the request at the root bounds. -/
structure BoundedBy (breadth hops : Nat) (tree : Tree K) : Prop where
  /-- The copies outstanding anywhere that no context is working on. -/
  outstanding : tree.unclaimed ≤ breadth
  /-- The copies one behind the other. -/
  chain : tree.links ≤ hops
  /-- The tree shows what its contexts have in flight. -/
  flight : ∀ serving flying, tree.Has serving flying →
    flying = inFlight K (.new serving.config) serving.inputs
  /-- Each of them carries a breadth within its context's, and fewer hops. -/
  carried : ∀ serving flying, tree.Has serving flying → ∀ copy ∈ flying,
    (∃ share, headerNumber K u32Max copy.request .maxBreadth = some share ∧ 1 ≤ share ∧
        share ≤ serving.breadth) ∧
      ∃ left, headerNumber K u8Max copy.request .maxForwards = some left ∧ left < serving.hops
  /-- A context that has answered finally has nothing in flight. -/
  settled : ∀ serving flying, tree.Has serving flying →
    (∃ response ∈ answers (emitted (onInput K) (.new serving.config) serving.inputs),
      200 ≤ response.status.code) → flying = []

/-! ## What a copy carries -/

/-- The hops a copy carries. -/
def carriedHops (copy : Copy K.Uri) : Nat :=
  (headerNumber K u8Max copy.request .maxForwards).getD u8Max

/-- What the numbers of an accepted request fit in. -/
structure Limited (validated : Validated) : Prop where
  someBreadth : 1 ≤ validated.maxBreadth
  breadthFits : validated.maxBreadth ≤ u32Max
  someHops : 1 ≤ validated.maxForwards
  hopsFit : validated.maxForwards ≤ u8Max

theorem headerNumber_le {max number : Nat} {request : Request K.Uri} {name : HeaderName}
    (found : headerNumber K max request name = some number) : number ≤ max := by
  obtain ⟨value, -, parsed⟩ := Option.bind_eq_some_iff.mp found
  obtain ⟨_, _, _, _, _, _, _, fits⟩ := parseUnsigned_eq_some_iff.mp parsed
  exact fits

/-- What validation takes from the request, and what from the configuration. -/
theorem numbers_of_validate {request : Request K.Uri} {config : ProxyConfig} {validated : Validated}
    (accepted : validate K request config = .ok validated) :
    headerNumber K u8Max request .maxForwards ≠ some 0 ∧
      headerNumber K u32Max request .maxBreadth ≠ some 0 ∧
      validated.maxForwards =
        (headerNumber K u8Max request .maxForwards).getD config.defaultMaxForwards ∧
      validated.maxBreadth =
        (headerNumber K u32Max request .maxBreadth).getD config.defaultMaxBreadth := by
  unfold validate at accepted
  simp only [bind, Except.bind, pure, Except.pure, throw, throwThe, MonadExceptOf.throw] at accepted
  cases hops : headerNumber K u8Max request .maxForwards with
  | none =>
      cases breadth : headerNumber K u32Max request .maxBreadth with
      | none => grind
      | some share => cases share <;> grind
  | some left =>
      cases breadth : headerNumber K u32Max request .maxBreadth with
      | none => cases left <;> grind
      | some share => cases left <;> cases share <;> grind

theorem limited_of_validate {request : Request K.Uri} {config : ProxyConfig}
    {validated : Validated} (accepted : validate K request config = .ok validated)
    (someBreadth : 1 ≤ config.defaultMaxBreadth) (breadthFits : config.defaultMaxBreadth ≤ u32Max)
    (someHops : 1 ≤ config.defaultMaxForwards) (hopsFit : config.defaultMaxForwards ≤ u8Max) :
    Limited validated := by
  obtain ⟨notZeroHops, notZeroBreadth, isHops, isBreadth⟩ := numbers_of_validate accepted
  have breadthRange : 1 ≤ validated.maxBreadth ∧ validated.maxBreadth ≤ u32Max := by
    rw [isBreadth]
    cases found : headerNumber K u32Max request .maxBreadth with
    | none => exact ⟨someBreadth, breadthFits⟩
    | some share =>
        rw [found] at notZeroBreadth
        exact ⟨Nat.pos_of_ne_zero fun zero => notZeroBreadth (congrArg some zero),
          headerNumber_le found⟩
  have hopsRange : 1 ≤ validated.maxForwards ∧ validated.maxForwards ≤ u8Max := by
    rw [isHops]
    cases found : headerNumber K u8Max request .maxForwards with
    | none => exact ⟨someHops, hopsFit⟩
    | some left =>
        rw [found] at notZeroHops
        exact ⟨Nat.pos_of_ne_zero fun zero => notZeroHops (congrArg some zero),
          headerNumber_le found⟩
  exact ⟨breadthRange.1, breadthRange.2, hopsRange.1, hopsRange.2⟩

/-- A copy carries one hop less than its request had. -/
theorem headerNumber_maxForwards_forward (accepts : AcceptsNumbers K) {plan : ForwardPlan K.Uri}
    {config : ProxyConfig} {branch : BranchId} {request : Request K.Uri} {nextHop : Bytes}
    (built : forward K plan config = .ok (branch, request, nextHop))
    (fits : plan.validated.maxForwards - 1 ≤ u8Max) :
    headerNumber K u8Max request .maxForwards = some (plan.validated.maxForwards - 1) := by
  obtain ⟨uri, stamped, via, -, stamping, pushed, -, -, rfl⟩ := forward_eq_ok built
  have notVia : via.name ≠ .maxForwards := by
    rw [Header.build_name pushed]
    decide
  apply headerNumber_of_getAll _ fits
  rw [Headers.getAll_pushFront_of_ne _ notVia, getAll_routedCopy (by decide),
    getAll_stampedHeaders_hop (by decide) stamping, hopHeaders, getAll_setHeader_of_ne (by decide),
    getAll_setHeader_self, Header.build, if_pos (accepts _ _)]
  rfl

/-- A copy of a group has one hop less than its request, and shows it. -/
theorem hops_of_buildCopy (accepts : AcceptsNumbers K) {context : ResponseContext K.Uri}
    {request : Request K.Uri} {validated : Validated} {config : ProxyConfig}
    {plan : ForwardPlan K.Uri} {copy : Copy K.Uri} (limited : Limited validated)
    (member : plan ∈ groupPlans K context request validated)
    (built : buildCopy K config plan = some copy) :
    headerNumber K u8Max copy.request .maxForwards = some (validated.maxForwards - 1) := by
  have planned : plan.validated = validated := by
    obtain ⟨offset, bound, rfl⟩ := List.mem_iff_getElem.mp member
    simp [groupPlans, forkPlan]
  have fits := limited.hopsFit
  unfold buildCopy at built
  split at built
  · contradiction
  · next branch forwarded nextHop copied =>
      rw [← Option.some.inj built, ← planned]
      apply headerNumber_maxForwards_forward accepts copied
      rw [planned]
      omega

/-! ## One context -/

/-- Where a context stands that divides this breadth and these hops among its copies. -/
structure Spreads (breadth hops : Nat) (state : ResponseContext K.Uri)
    (flying : List (Copy K.Uri)) : Prop where
  live : ∀ branch, isLive state branch ↔ ∃ copy ∈ flying, copy.branch = branch
  breadth : (flying.map (carriedBreadth K)).sum ≤ breadth
  carries : ∀ copy ∈ flying, 1 ≤ carriedBreadth K copy
  falls : ∀ copy ∈ flying, ∃ left,
    headerNumber K u8Max copy.request .maxForwards = some left ∧ left < hops
  unanswered : state.finished = false → state.answered = false
  ended : state.finished = true → flying = []

section Spreading

variable {breadth hops : Nat} {state : ResponseContext K.Uri} {flying : List (Copy K.Uri)}

/-- Nothing has gone out of a new context. -/
theorem spreads_new (config : ProxyConfig) :
    Spreads breadth hops (.new config : ResponseContext K.Uri) [] where
  live branch := by
    constructor
    · rintro ⟨entry, member, -⟩
      exact absurd member List.not_mem_nil
    · rintro ⟨copy, member, -⟩
      exact absurd member List.not_mem_nil
  breadth := Nat.zero_le _
  carries copy member := absurd member List.not_mem_nil
  falls copy member := absurd member List.not_mem_nil
  unanswered _ := rfl
  ended _ := rfl

/-- Forking a settled context divides what it was given among the copies of the group. -/
theorem Forks.spreads (accepts : AcceptsNumbers K) {forking : ResponseContext K.Uri}
    {request : Request K.Uri} {validated : Validated} {outcome : Outcome K.Uri}
    (forks : Forks forking request validated outcome) (limited : Limited validated)
    (withinBreadth : validated.maxBreadth ≤ breadth) (withinHops : validated.maxForwards ≤ hops) :
    Spreads breadth hops outcome.1 (copies outcome.2) where
  live := forks.live
  breadth := by
    rw [forks.forwards]
    exact Nat.le_trans
      (sum_carriedBreadth_le accepts limited.someBreadth limited.breadthFits) withinBreadth
  carries copy member := by
    rw [forks.forwards] at member
    obtain ⟨plan, planMember, built⟩ := List.mem_filterMap.mp member
    rw [carriedBreadth_of_buildCopy accepts limited.breadthFits planMember built]
    exact Nat.le_max_right _ _
  falls copy member := by
    rw [forks.forwards] at member
    obtain ⟨plan, planMember, built⟩ := List.mem_filterMap.mp member
    refine ⟨_, hops_of_buildCopy accepts limited planMember built, ?_⟩
    have someHops := limited.someHops
    omega
  unanswered := forks.unanswered
  ended finished := (forks.ended finished).2

/-- Where no copy has gone out, none is in flight. -/
theorem Spreads.grounded (spreads : Spreads breadth hops state flying)
    (noBranches : state.branches = []) : flying = [] := by
  apply List.eq_nil_iff_forall_not_mem.mpr
  intro copy member
  obtain ⟨entry, held, -⟩ := (spreads.live copy.branch).mpr ⟨copy, member, rfl⟩
  rw [noBranches] at held
  contradiction

/-- An input that finds nothing gone out forks the first group, or sends nothing out. -/
theorem Spreads.early (accepts : AcceptsNumbers K) (coherent : Coherent state)
    (spreads : Spreads breadth hops state flying) (noBranches : state.branches = [])
    (input : Input K.Uri)
    (limits : ∀ validated, (onInput K state input).1.validated = some validated →
      Limited validated ∧ validated.maxBreadth ≤ breadth ∧ validated.maxForwards ≤ hops)
    (quiet : (onInput K state input).1.answered = true →
      (onInput K state input).1.finished = false → (onInput K state input).1.branches ≠ []) :
    Spreads breadth hops (onInput K state input).1
      (remaining state input flying ++ copies (onInput K state input).2) := by
  have none_left : remaining state input flying = [] := by
    rw [spreads.grounded noBranches]
    rfl
  rw [none_left, List.nil_append]
  cases onInput_course coherent input with
  | ended finished =>
      have grounded := spreads.grounded noBranches
      subst grounded
      rw [onInput_finished finished]
      exact spreads
  | @takes targeted request validated unfinished takes validatedEq forksEq =>
      have frame := takes.frame
      have settled : targeted.hasPending = false := by
        simp [hasPending, frame.branches, noBranches]
      have forks := forkNextGroup_forks takes.request_eq validatedEq takes.queued_ne_nil settled
        (frame.finished.trans unfinished) (frame.answered.trans (spreads.unanswered unfinished))
      rw [← forksEq] at forks
      obtain ⟨limited, withinBreadth, withinHops⟩ := limits validated forks.validatedEq
      exact forks.spreads accepts limited withinBreadth withinHops
  | @records request branch recorded _ _ _ records _ _ =>
      have known : state.knows branch = true := by
        cases records with
        | received _ _ known _ _ _ _ => exact known
        | unavailable _ _ known _ => exact known
        | failed _ known => exact known
        | silent _ silent =>
            obtain ⟨entry, member, isBranch, -⟩ := knows_of_sawProvisional silent
            exact knows_iff.mpr (List.mem_map.mpr ⟨entry, member, isBranch⟩)
      simp [knows, noBranches] at known
  | stands unfinished untargeted unrecorded =>
      have step := onInput_step coherent unfinished input
      have noCopies := step.copies_of_unforked untargeted unrecorded
      have noneHeld : (onInput K state input).1.branches = [] := by
        have ids := (onInput_advances coherent input).ids
        rw [noBranches, copies_eq_nil_iff.mp noCopies] at ids
        exact List.map_eq_nil_iff.mp ids
      rw [noCopies]
      constructor
      · intro branch
        constructor
        · rintro ⟨entry, member, -⟩
          rw [noneHeld] at member
          contradiction
        · rintro ⟨copy, member, -⟩
          exact absurd member List.not_mem_nil
      · exact Nat.zero_le _
      · exact fun copy member => absurd member List.not_mem_nil
      · exact fun copy member => absurd member List.not_mem_nil
      · intro open_
        cases answered : (onInput K state input).1.answered with
        | false => rfl
        | true => exact absurd noneHeld (quiet answered open_)
      · exact fun _ => rfl

/-- What stays in flight shares no more than what was. -/
theorem Spreads.keeps (spreads : Spreads breadth hops state flying) (input : Input K.Uri)
    {next : ResponseContext K.Uri}
    (live : ∀ branch, isLive next branch ↔
      ∃ copy ∈ remaining state input flying, copy.branch = branch)
    (unanswered : next.finished = false → next.answered = false)
    (ended : next.finished = true → remaining state input flying = []) :
    Spreads breadth hops next (remaining state input flying) where
  live := live
  breadth := Nat.le_trans (sum_remaining_le input) spreads.breadth
  carries copy member := spreads.carries copy (mem_remaining.mp member).1
  falls copy member := spreads.falls copy (mem_remaining.mp member).1
  unanswered := unanswered
  ended := ended

/-- A branch event that a context hears of a copy in flight waits for the other copies, forks the
next group or ends the context. -/
theorem Spreads.heard (accepts : AcceptsNumbers K) (coherent : Coherent state)
    (spreads : Spreads breadth hops state flying) (unfinished : state.finished = false)
    {request : Request K.Uri} (requestEq : state.request = some request) {input : Input K.Uri}
    (event : IsBranchEvent K request input)
    (limits : ∀ validated, state.validated = some validated →
      Limited validated ∧ validated.maxBreadth ≤ breadth ∧ validated.maxForwards ≤ hops) :
    Spreads breadth hops (onInput K state input).1
      (remaining state input flying ++ copies (onInput K state input).2) := by
  have unanswered := spreads.unanswered unfinished
  rcases branchEvent_cases coherent unfinished requestEq event with
    ⟨branch, recorded, records, concludes, continues⟩ | idles
  · obtain ⟨status, final, recordedEq⟩ := records.frame
    have live := isLive_of_records spreads.live records concludes
    have recordedAnswered : recorded.answered = false := by rw [recordedEq]; exact unanswered
    have recordedOpen : recorded.finished = false := by rw [recordedEq]; exact unfinished
    rw [continues, continueSelection]
    cases pending : recorded.hasPending with
    | true =>
        rw [if_pos rfl, copies_nil, List.append_nil]
        apply spreads.keeps input live
        · exact fun _ => recordedAnswered
        · intro finished
          rw [recordedOpen] at finished
          contradiction
    | false =>
        have landed := landed_of_settled live pending
        rw [if_neg (by decide), landed, List.nil_append]
        cases mayFork : recorded.mayForkNextGroup with
        | true =>
            obtain ⟨validated, validatedEq⟩ := coherent.exists_validated requestEq
            obtain ⟨limited, withinBreadth, withinHops⟩ := limits validated validatedEq
            have sameRequest : recorded.request = some request := by
              rw [recordedEq]; exact requestEq
            have sameValidated : recorded.validated = some validated := by
              rw [recordedEq]; exact validatedEq
            have forks := forkNextGroup_forks sameRequest sameValidated
              (queued_ne_nil_of_mayFork mayFork) pending recordedOpen recordedAnswered
            rw [if_pos rfl]
            exact forks.spreads accepts limited withinBreadth withinHops
        | false =>
            rw [if_neg (by decide), copies_selectAndAnswer pending request]
            have ended : (selectAndAnswer K recorded request).1 =
                { recorded with answered := true, finished := true } := by
              rcases selectAndAnswer_cases pending request with
                ⟨answered, _⟩ | ⟨_, selected⟩ | ⟨_, best, response, _, _, _, selected⟩
              · rw [recordedAnswered] at answered
                contradiction
              · rw [selected, respondAndFinish_fst]
              · rw [selected]
            rw [ended]
            constructor
            · intro other
              have noneLive := live other
              rw [landed] at noneLive
              exact noneLive
            · exact Nat.zero_le _
            · exact fun copy member => absurd member List.not_mem_nil
            · exact fun copy member => absurd member List.not_mem_nil
            · exact fun finished => absurd finished (by simp)
            · exact fun _ => rfl
  · have kept := remaining_of_idles spreads.live idles
    rw [idles.forwards, List.append_nil, kept]
    constructor
    · intro branch
      rw [idles.live]
      exact spreads.live branch
    · exact spreads.breadth
    · exact spreads.carries
    · exact spreads.falls
    · rw [idles.finished, idles.answered]
      exact spreads.unanswered
    · rw [idles.finished]
      exact spreads.ended

end Spreading

/-! ## The tree -/

/-- What a context of the tree and what it has in flight hold to. -/
structure Serves (serving : Serving K) (flying : List (Copy K.Uri)) : Prop where
  flight : flying = inFlight K (.new serving.config) serving.inputs
  alone : ∀ arrived, .upstream arrived ∉ serving.later
  limits : ∀ validated, validate K serving.request serving.config = .ok validated →
    Limited validated
  spreads : Spreads serving.breadth serving.hops serving.state flying

/-- A context was taken on for a copy that carries all it has. -/
structure TakenFor (copy : Copy K.Uri) (serving : Serving K) : Prop where
  breadth : serving.breadth ≤ carriedBreadth K copy
  hops : serving.hops ≤ carriedHops copy

section Trees

variable {serving : Serving K} {flying : List (Copy K.Uri)}

theorem Serving.state_feed (serving : Serving K) (input : Input K.Uri) :
    (serving.feed input).state = (onInput K serving.state input).1 := by
  rw [Serving.state, Serving.inputs, Serving.feed, ← List.cons_append, after_concat]
  rfl

theorem Serving.inFlight_feed (serving : Serving K) (input : Input K.Uri) :
    inFlight K (.new serving.config) (serving.feed input).inputs =
      remaining serving.state input (inFlight K (.new serving.config) serving.inputs) ++
        copies (onInput K serving.state input).2 := by
  rw [Serving.inputs, Serving.feed, ← List.cons_append, inFlight_concat]
  rfl

/-- The tree shows a step's copies as the ledger does. -/
theorem Serving.map_fst_flying (serving : Serving K) (input : Input K.Uri)
    (works : List (Copy K.Uri × Tree K)) :
    (serving.flying input works).map Prod.fst =
      remaining serving.state input (works.map Prod.fst) ++
        copies (onInput K serving.state input).2 := by
  have fresh : ((copies (onInput K serving.state input).2).map fun copy =>
      ((copy, .waiting) : Copy K.Uri × Tree K)).map Prod.fst =
        copies (onInput K serving.state input).2 := by
    rw [List.map_map]
    exact List.map_id _
  rw [Serving.flying, List.map_append, fresh, remaining, List.filter_map]
  rfl

/-- The only request a context ever holds is the one that arrived first. -/
theorem validated_of_alone {serving : Serving K} (alone : ∀ arrived, .upstream arrived ∉ serving.later)
    {validated : Validated} (kept : serving.state.validated = some validated) :
    validate K serving.request serving.config = .ok validated := by
  obtain ⟨input, member, arrived, rfl, accepted⟩ := exists_accepts_after _ _ _ kept
  rcases List.mem_cons.mp member with first | later
  · rw [← Input.upstream.inj first]
    exact accepted
  · exact absurd later (alone arrived)

/-- What a context keeps of its request is within its limits. -/
theorem Serving.limits_of_alone (serving : Serving K)
    (alone : ∀ arrived, .upstream arrived ∉ serving.later)
    (limits : ∀ validated, validate K serving.request serving.config = .ok validated →
      Limited validated) (validated : Validated)
    (kept : serving.state.validated = some validated) :
    Limited validated ∧ validated.maxBreadth ≤ serving.breadth ∧
      validated.maxForwards ≤ serving.hops := by
  have accepted := validated_of_alone alone kept
  refine ⟨limits validated accepted, ?_, ?_⟩
  · rw [Serving.breadth, accepted]
  · rw [Serving.hops, accepted]

/-- A context that has answered finally has nothing in flight. -/
theorem Serves.settled (serves : Serves serving flying)
    (final : ∃ response ∈ answers (emitted (onInput K) (.new serving.config) serving.inputs),
      200 ≤ response.status.code) : flying = [] := by
  rcases (answered_after_final serving.config serving.inputs).1 final with answered | finished
  · cases finished : serving.state.finished with
    | true => exact serves.spreads.ended finished
    | false =>
        have unanswered := serves.spreads.unanswered finished
        rw [Serving.state, answered] at unanswered
        contradiction
  · exact serves.spreads.ended finished

/-- A request that arrives within the limits is served within them. -/
theorem serves_arrive (accepts : AcceptsNumbers K) (config : ProxyConfig) (request : Request K.Uri)
    (limits : ∀ validated, validate K request config = .ok validated → Limited validated) :
    Serves ⟨config, request, []⟩ (copies (onInput K (.new config) (.upstream request)).2) where
  flight := (inFlight_concat (.new config) [] (.upstream request)).symm
  alone arrived member := absurd member List.not_mem_nil
  limits := limits
  spreads := by
    have alone : ∀ arrived, Input.upstream arrived ∉
        (⟨config, request, []⟩ : Serving K).later := fun _ member => absurd member List.not_mem_nil
    have quiet := (answered_after_final config [.upstream request]).2
    exact (spreads_new config).early accepts (coherent_new config) rfl (.upstream request)
      ((⟨config, request, []⟩ : Serving K).limits_of_alone alone limits) quiet

/-- An input other than a request leaves a context serving. -/
theorem Serves.feed (serves : Serves serving flying) {input : Input K.Uri}
    (notArrival : ∀ arrived, input ≠ .upstream arrived)
    (spreads : Spreads serving.breadth serving.hops (onInput K serving.state input).1
      (remaining serving.state input flying ++ copies (onInput K serving.state input).2)) :
    Serves (serving.feed input)
      (remaining serving.state input flying ++ copies (onInput K serving.state input).2) where
  flight := by
    rw [serves.flight]
    exact (serving.inFlight_feed input).symm
  alone arrived member := by
    rcases List.mem_append.mp member with earlier | now
    · exact serves.alone arrived earlier
    · exact notArrival arrived (List.mem_singleton.mp now).symm
  limits := serves.limits
  spreads := by
    rw [serving.state_feed]
    exact spreads

/-- What is being done about a copy goes on while its context goes on. -/
theorem sound_flying {works : List (Copy K.Uri × Tree K)}
    (sound : Work.Sound Serves TakenFor (.worker serving works)) {input : Input K.Uri}
    (serves : Serves (serving.feed input)
      (remaining serving.state input (works.map Prod.fst) ++
        copies (onInput K serving.state input).2)) :
    Work.Sound Serves TakenFor (.worker (serving.feed input) (serving.flying input works)) := by
  cases sound with
  | worker rule fit below =>
      constructor
      · rw [serving.map_fst_flying]
        exact serves
      · intro entry member
        rcases List.mem_append.mp member with old | new
        · exact fit entry (List.mem_of_mem_filter old)
        · obtain ⟨_, _, rfl⟩ := List.mem_map.mp new
          intro _ isTaker
          contradiction
      · intro entry member
        rcases List.mem_append.mp member with old | new
        · exact below entry (List.mem_of_mem_filter old)
        · obtain ⟨_, _, rfl⟩ := List.mem_map.mp new
          exact .waiting

/-- A context taken on for a copy has what the copy carries. -/
theorem takenFor_arrive (serves : Serves serving flying) {copy : Copy K.Uri} (member : copy ∈ flying)
    (config : ProxyConfig) :
    (∀ validated, validate K copy.request config = .ok validated → Limited validated) ∧
      TakenFor copy ⟨config, copy.request, []⟩ := by
  obtain ⟨left, hopsEq, fewer⟩ := serves.spreads.falls copy member
  have share := serves.spreads.carries copy member
  obtain ⟨breadth, breadthEq⟩ : ∃ breadth,
      headerNumber K u32Max copy.request .maxBreadth = some breadth := by
    cases found : headerNumber K u32Max copy.request .maxBreadth with
    | none => simp [carriedBreadth, found] at share
    | some breadth => exact ⟨breadth, rfl⟩
  have numbers : ∀ validated, validate K copy.request config = .ok validated →
      left ≠ 0 ∧ breadth ≠ 0 ∧ validated.maxForwards = left ∧ validated.maxBreadth = breadth := by
    intro validated accepted
    have read := numbers_of_validate accepted
    rw [hopsEq, breadthEq] at read
    simpa using read
  constructor
  · intro validated accepted
    obtain ⟨someHops, someBreadth, isHops, isBreadth⟩ := numbers validated accepted
    constructor
    · rw [isBreadth]
      exact Nat.pos_of_ne_zero someBreadth
    · rw [isBreadth]
      exact headerNumber_le breadthEq
    · rw [isHops]
      exact Nat.pos_of_ne_zero someHops
    · rw [isHops]
      exact headerNumber_le hopsEq
  · constructor
    · rw [Serving.breadth]
      split
      · next validated accepted =>
          rw [(numbers validated accepted).2.2.2, carriedBreadth, breadthEq]
          exact Nat.le_refl _
      · exact Nat.zero_le _
    · rw [Serving.hops]
      split
      · next validated accepted =>
          rw [(numbers validated accepted).2.2.1, carriedHops, hopsEq]
          exact Nat.le_refl _
      · exact Nat.zero_le _

theorem sound_arrive (config : ProxyConfig) (request : Request K.Uri)
    (serves : Serves ⟨config, request, []⟩
      (copies (onInput K (.new config) (.upstream request)).2)) :
    Work.Sound Serves TakenFor (arrive config request) := by
  constructor
  · rw [List.map_map]
    rw [show (Prod.fst ∘ fun copy : Copy K.Uri => (copy, (.waiting : Tree K))) = id from rfl,
      List.map_id]
    exact serves
  · intro entry member
    obtain ⟨_, _, rfl⟩ := List.mem_map.mp member
    intro _ isTaker
    contradiction
  · intro entry member
    obtain ⟨_, _, rfl⟩ := List.mem_map.mp member
    exact .waiting

theorem Serving.breadth_le (serving : Serving K) :
    serving.breadth ≤ (headerNumber K u32Max serving.request .maxBreadth).getD
      serving.config.defaultMaxBreadth := by
  rw [Serving.breadth]
  split
  · next validated accepted => exact Nat.le_of_eq (numbers_of_validate accepted).2.2.2
  · exact Nat.zero_le _

theorem Serving.hops_le (serving : Serving K) :
    serving.hops ≤ (headerNumber K u8Max serving.request .maxForwards).getD
      serving.config.defaultMaxForwards := by
  rw [Serving.hops]
  split
  · next validated accepted => exact Nat.le_of_eq (numbers_of_validate accepted).2.2.1
  · exact Nat.zero_le _

/-- The share of the breadth a copy shows. -/
theorem Spreads.exists_share {breadth hops : Nat} {state : ResponseContext K.Uri}
    (spreads : Spreads breadth hops state flying) {copy : Copy K.Uri} (member : copy ∈ flying) :
    ∃ share, headerNumber K u32Max copy.request .maxBreadth = some share ∧ 1 ≤ share ∧
      share ≤ breadth := by
  have someShare := spreads.carries copy member
  have within : carriedBreadth K copy ≤ breadth :=
    Nat.le_trans (List.single_le_sum (fun _ _ => Nat.zero_le _) _ (List.mem_map_of_mem member))
      spreads.breadth
  unfold carriedBreadth at someShare within
  cases found : headerNumber K u32Max copy.request .maxBreadth with
  | none => simp [found] at someShare
  | some share =>
      rw [found] at someShare within
      exact ⟨share, rfl, someShare, within⟩

/-- What happens at one context leaves the tree sound. -/
theorem Acts.sound (accepts : AcceptsNumbers K) {serving next : Serving K}
    {works left : List (Copy K.Uri × Tree K)} (acts : Acts serving works next left)
    (sound : Work.Sound Serves TakenFor (.worker serving works)) :
    Work.Sound Serves TakenFor (.worker next left) := by
  have serves : Serves serving (works.map Prod.fst) := sound.of_has (.here serving works)
  have coherent : Coherent serving.state := coherent_after serving.config serving.inputs
  cases acts with
  | decides input decision early =>
      have notArrival : ∀ arrived, input ≠ .upstream arrived := by
        rintro arrived rfl
        exact decision
      apply sound_flying sound
      apply serves.feed notArrival
      apply serves.spreads.early accepts coherent early input
      · intro validated kept
        rw [← serving.state_feed] at kept
        refine (serving.feed input).limits_of_alone ?_ serves.limits validated kept
        intro arrived member
        rcases List.mem_append.mp member with earlier | now
        · exact serves.alone arrived earlier
        · exact notArrival arrived (List.mem_singleton.mp now).symm
      · have quiet := (answered_after_final serving.config (serving.feed input).inputs).2
        rw [← serving.state_feed]
        exact quiet
  | @hears entry member response answers event =>
      have held : entry.1 ∈ works.map Prod.fst := List.mem_map_of_mem member
      apply sound_flying sound
      apply serves.feed
      · intro arrived isArrival
        cases isArrival
      · cases finished : serving.state.finished with
        | true =>
            rw [serves.spreads.ended finished] at held
            exact absurd held List.not_mem_nil
        | false =>
            obtain ⟨branch, inBranches, -⟩ :=
              (serves.spreads.live entry.1.branch).mpr ⟨entry.1, held, rfl⟩
            obtain ⟨request, requestEq⟩ := Option.isSome_iff_exists.mp
              (coherent.branches (List.ne_nil_of_mem inBranches))
            exact serves.spreads.heard accepts coherent finished requestEq (event request requestEq)
              (serving.limits_of_alone serves.alone serves.limits)
  | @takesUp copy place unclaimed config =>
      have member := List.mem_of_getElem? unclaimed
      obtain ⟨limits, takenFor⟩ :=
        takenFor_arrive serves (List.mem_map_of_mem (f := Prod.fst) member) config
      apply sound.set unclaimed
      · exact sound_arrive config copy.request (serves_arrive accepts config copy.request limits)
      · intro inner isArrived
        rw [← Option.some.inj isArrived]
        exact takenFor

/-- What happens at one context leaves the request it works on and its configuration. -/
theorem Acts.same {serving next : Serving K} {works left : List (Copy K.Uri × Tree K)}
    (acts : Acts serving works next left) :
    next.config = serving.config ∧ next.request = serving.request := by
  cases acts <;> exact ⟨rfl, rfl⟩

theorem TakenFor.acts {copy : Copy K.Uri} {serving next : Serving K}
    {works left : List (Copy K.Uri × Tree K)} (takenFor : TakenFor copy serving)
    (acts : Acts serving works next left) : TakenFor copy next := by
  cases acts <;> exact ⟨takenFor.breadth, takenFor.hops⟩

/-- A request whose defaults are within limits bounds, over every run of the tree of contexts that
comes to work on it, what is in flight anywhere and how deep the tree goes. -/
theorem amplification_bounded (accepts : AcceptsNumbers K) {config : ProxyConfig}
    (someBreadth : 1 ≤ config.defaultMaxBreadth) (breadthFits : config.defaultMaxBreadth ≤ u32Max)
    (someHops : 1 ≤ config.defaultMaxForwards) (hopsFit : config.defaultMaxForwards ≤ u8Max)
    {request : Request K.Uri} {tree : Tree K}
    (run : Relation.ReflTransGen (Work.Moves Acts) (arrive config request) tree) :
    BoundedBy ((headerNumber K u32Max request .maxBreadth).getD config.defaultMaxBreadth)
      ((headerNumber K u8Max request .maxForwards).getD config.defaultMaxForwards) tree := by
  have limits : ∀ validated, validate K request config = .ok validated → Limited validated :=
    fun _ accepted => limited_of_validate accepted someBreadth breadthFits someHops hopsFit
  have start := sound_arrive config request (serves_arrive accepts config request limits)
  have sound : Work.Sound Serves TakenFor tree :=
    start.run (fun _ _ _ _ acts => acts.sound accepts)
      (fun _ _ _ _ _ acts takenFor => takenFor.acts acts) run
  have root : ∀ serving, tree.taker? = some serving →
      serving.config = config ∧ serving.request = request := by
    apply Work.taker_run (fun serving => serving.config = config ∧ serving.request = request) _ run
    · intro serving isRoot
      rw [← Option.some.inj isRoot]
      exact ⟨rfl, rfl⟩
    · intro serving works next left acts same
      exact ⟨acts.same.1.trans same.1, acts.same.2.trans same.2⟩
  have taken := Work.taken_run run (Option.some_ne_none _)
  constructor
  · have shares : ∀ (serving : Serving K) flying, Serves serving flying →
        (flying.map (carriedBreadth K)).sum ≤ serving.breadth ∧
          ∀ copy ∈ flying, 1 ≤ carriedBreadth K copy :=
      fun _ _ serves => ⟨serves.spreads.breadth, serves.spreads.carries⟩
    apply sound.unclaimed_le Serving.breadth (carriedBreadth K) shares
      fun _ _ takenFor => takenFor.breadth
    · exact fun nobody => absurd nobody taken
    · intro serving isRoot
      obtain ⟨rfl, rfl⟩ := root serving isRoot
      exact serving.breadth_le
  · have falls : ∀ (serving : Serving K) flying, Serves serving flying →
        ∀ copy ∈ flying, carriedHops copy < serving.hops := by
      intro serving flying serves copy member
      obtain ⟨left, hopsEq, fewer⟩ := serves.spreads.falls copy member
      rw [carriedHops, hopsEq]
      exact fewer
    apply sound.links_le Serving.hops carriedHops falls fun _ _ takenFor => takenFor.hops
    intro serving isRoot
    obtain ⟨rfl, rfl⟩ := root serving isRoot
    exact serving.hops_le
  · exact fun serving flying has => (sound.of_has has).flight
  · intro serving flying has copy member
    have spreads := (sound.of_has has).spreads
    exact ⟨spreads.exists_share member, spreads.falls copy member⟩
  · exact fun serving flying has => (sound.of_has has).settled

end Trees

/-- Two phones of one preference ring: two copies are outstanding, one hop deep. -/
theorem amplification_bounded_twoPhones :
    BoundedBy 60 70
      (.worker ((⟨edge, invite, []⟩ : Serving Reference.kernel).feed
          (.targetsResolved [phone "sip:bob@10.0.0.1" 1000, phone "sip:bob@10.0.0.2" 1000]))
        ((⟨edge, invite, []⟩ : Serving Reference.kernel).flying
          (.targetsResolved [phone "sip:bob@10.0.0.1" 1000, phone "sip:bob@10.0.0.2" 1000])
          ((copies (onInput Reference.kernel (.new edge) (.upstream invite)).2).map
            fun copy => (copy, .waiting)))) := by
  have breadth : (headerNumber Reference.kernel u32Max invite .maxBreadth).getD
      edge.defaultMaxBreadth = 60 := by decide +kernel
  have hops : (headerNumber Reference.kernel u8Max invite .maxForwards).getD
      edge.defaultMaxForwards = 70 := by decide +kernel
  rw [← breadth, ← hops]
  exact amplification_bounded acceptsNumbers_reference (by decide) (by decide) (by decide)
    (by decide) (.single (.here (.decides _ trivial (by decide +kernel))))

end SipxClstr.Proxy
