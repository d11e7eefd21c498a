import SipxClstr.Node.Driver
import SipxClstr.Proxy.Ending
import SipxClstr.Proxy.Flight

/-!
# What becomes of a proxied request

While every copy can be sent and every reader joins, a driven request settles: each
branch is reported concluded, or the context is over, and a final response has gone
upstream.
-/

namespace SipxClstr.Node

open SipxClstr.Sip SipxClstr.Proxy SipxClstr.Proxy.ResponseContext Reactive Reactive.Machine

variable {K : Kernel}

/-! ## What the driver's inputs do to a context -/

/-- What the driver feeds a context after the request. -/
inductive Feeds {Uri : Type} : Input Uri → Prop where
  | targets (targets : List Target) : Feeds (.targetsResolved targets)
  | unavailable : Feeds .targetsUnavailable
  | rejected : Feeds (.tokenFact .invalid)
  | response (response : Response) (branch : BranchId) : Feeds (.branchResponse response branch)
  | failure (branch : BranchId) : Feeds (.branchTransportError branch)

theorem Feeds.not_determines {context determined : ResponseContext K.Uri} {input : Input K.Uri}
    {request : Request K.Uri} (feeds : Feeds input) :
    ¬ Determines K context input determined request := by
  intro determines
  cases determines <;> cases feeds

/-- Cancelling what is pending leaves every branch that owes a final owing it. -/
theorem isLive_of_cancelPending {Uri : Type} {context : ResponseContext Uri} {branch : BranchId}
    (live : isLive context.cancelPending.1 branch) : isLive context branch := by
  obtain ⟨entry, member, rfl, outstanding⟩ := live
  obtain ⟨source, isSource, rfl⟩ := List.mem_map.mp member
  split at outstanding
  · next cancelled =>
      obtain ⟨pending, held, sameId⟩ := List.mem_map.mp cancelled
      obtain ⟨isEntry, isPending⟩ := List.mem_filter.mp held
      refine ⟨pending, isEntry, ?_, ?_⟩
      · rw [if_pos cancelled]
        exact sameId
      · cases state : pending.state <;> simp_all [BranchState.isPending, BranchState.isOutstanding]
  · next untouched =>
      rw [if_neg untouched]
      exact ⟨source, isSource, rfl, outstanding⟩

theorem isLive_of_tail {context : ResponseContext K.Uri} {request : Request K.Uri}
    {outcome : Outcome K.Uri} (tail : Tail K context request outcome) {branch : BranchId}
    (live : isLive outcome.1 branch) : branch ∈ launches outcome.2 ∨ isLive context branch := by
  obtain ⟨launched, branchesEq, launchesEq, -⟩ := tail.branches_eq
  obtain ⟨entry, member, isBranch, outstanding⟩ := live
  rw [branchesEq] at member
  rcases List.mem_append.mp member with old | new
  · exact .inr ⟨entry, old, isBranch, outstanding⟩
  · left
    rw [launchesEq, ← isBranch]
    exact List.mem_map_of_mem new

theorem isLive_of_recorded {context recorded : ResponseContext K.Uri} {request : Request K.Uri}
    {input : Input K.Uri} {branch other : BranchId}
    (records : Records K context request input branch recorded) (live : isLive recorded other) :
    isLive context other ∧ other ≠ branch := by
  obtain ⟨status, final, rfl⟩ := records.frame
  exact isLive_concludeBranch.mp live

/-- A branch that owes a final after a step was launched by it, or owed it before. -/
theorem isLive_of_step {context : ResponseContext K.Uri} {input : Input K.Uri} {outcome : Outcome K.Uri}
    (step : Step K context input outcome) (feeds : Feeds input) {branch : BranchId}
    (live : isLive outcome.1 branch) : branch ∈ launches outcome.2 ∨ isLive context branch := by
  cases step with
  | absorbed _ => exact .inr live
  | premature _ _ => exact .inr live
  | minted _ => cases feeds
  | refused _ _ _ => cases feeds
  | held _ _ _ _ _ => cases feeds
  | asked determines _ => exact absurd determines feeds.not_determines
  | taken takes tail =>
      rcases isLive_of_tail tail live with launched | earlier
      · exact .inl launched
      · obtain ⟨entry, member, owes⟩ := earlier
        rw [takes.frame.branches] at member
        exact .inr ⟨entry, member, owes⟩
  | concluded _ concludes =>
      rw [respondAndFinish_fst] at live
      obtain ⟨entry, member, owes⟩ := live
      exact .inr ⟨entry, concludes.frame.branches ▸ member, owes⟩
  | provisional _ _ _ _ _ _ _ => exact .inr (isLive_forwardProvisional.mp live)
  | accepted response target _ _ _ _ _ =>
      have accepted := isLive_of_cancelPending live
      exact .inr (isLive_concludeBranch.mp accepted).1
  | rejected response target _ _ _ _ =>
      rw [finishIfSettled_rejected] at live
      have rejected : isLive (rejectedContext K context response target) branch := by
        split at live <;> exact isLive_of_cancelPending live
      exact .inr (isLive_concludeBranch.mp rejected).1
  | recorded _ records tail =>
      rcases isLive_of_tail tail live with launched | earlier
      · exact .inl launched
      · exact .inr (isLive_of_recorded records earlier).1
  | stopped _ _ => cases feeds
  | withdrawn => cases feeds

/-- The failure of a branch's transport concludes it, but for a copy launched just now. -/
theorem isLive_of_failure {context : ResponseContext K.Uri} {outcome : Outcome K.Uri}
    (coherent : Coherent context) {branch : BranchId}
    (step : Step K context (.branchTransportError branch) outcome)
    (live : isLive outcome.1 branch) : branch ∈ launches outcome.2 := by
  cases step with
  | absorbed absorbs => exact absurd live (not_isLive_of_unknown absorbs.2)
  | premature _ absent =>
      obtain ⟨entry, member, -⟩ := live
      have present := coherent.branches (List.ne_nil_of_mem member)
      rw [absent] at present
      contradiction
  | asked determines _ => cases determines
  | taken takes _ =>
      cases takes with
      | predetermined determines _ => cases determines
  | concluded _ concludes => cases concludes
  | recorded _ records tail =>
      rcases isLive_of_tail tail live with launched | earlier
      · exact launched
      · cases records with
        | failed _ known => exact absurd rfl (isLive_concludeBranch.mp earlier).2

/-! ### Questions -/

/-- An effect that the driver answers with an input of its own. -/
def asks {Uri : Type} : Effect Uri → Bool
  | .verifyToken _ _ => true
  | .resolveTargets _ => true
  | _ => false

theorem asks_of_asksVerdict {Uri : Type} {effect : Effect Uri} (asksVerdict : AsksVerdict effect) :
    asks effect = true := by
  cases effect <;> first | rfl | contradiction

theorem asks_of_asksTargets {Uri : Type} {effect : Effect Uri} (asksTargets : AsksTargets effect) :
    asks effect = true := by
  cases effect <;> first | rfl | contradiction

theorem asks_launch (config : ProxyConfig) (plan : Nat → Target → ForwardPlan K.Uri) (offset : Nat)
    (group : List Target) : ∀ effect ∈ (launch K config plan offset group).1, asks effect = false := by
  induction group generalizing offset with
  | nil => simp [launch]
  | cons target rest ih =>
      unfold launch
      cases forward K (plan offset target) config with
      | error refused => exact ih (offset + 1)
      | ok copy =>
          intro effect member
          rcases List.mem_append.mp member with now | later
          · rcases List.mem_cons.mp now with rfl | timer
            · rfl
            · split at timer
              · rw [List.mem_singleton.mp timer]
                rfl
              · contradiction
          · exact ih (offset + 1) effect later

theorem asks_respondAndFinish (context : ResponseContext K.Uri) (request : Request K.Uri)
    (status : Nat) (reason : Text) :
    ∀ effect ∈ (respondAndFinish K context request status reason).2, asks effect = false := by
  unfold respondAndFinish
  split
  · intro effect member
    simp only [List.cons_append, List.mem_cons, List.mem_append, List.mem_map, List.not_mem_nil,
      or_false] at member
    rcases member with rfl | ⟨branch, -, rfl⟩ | rfl <;> rfl
  · intro effect member
    rw [List.mem_singleton.mp member]
    rfl

theorem asks_tail {context : ResponseContext K.Uri} {request : Request K.Uri}
    {outcome : Outcome K.Uri} (tail : Tail K context request outcome) :
    ∀ effect ∈ outcome.2, asks effect = false := by
  cases tail with
  | waits _ => simp
  | forks _ _ _ _ => exact asks_launch _ _ _ _
  | exhausts _ _ _ => exact asks_respondAndFinish _ _ _ _
  | fails _ _ => exact asks_respondAndFinish _ _ _ _
  | selects _ _ _ _ _ _ _ _ => simp [asks]
  | ends _ _ => simp [asks]

/-- What the driver feeds a context brings up no further question. -/
theorem asks_step {context : ResponseContext K.Uri} {input : Input K.Uri} {outcome : Outcome K.Uri}
    (step : Step K context input outcome) (feeds : Feeds input) :
    ∀ effect ∈ outcome.2, asks effect = false := by
  cases step with
  | absorbed _ => simp
  | premature _ _ => simp [terminate, asks]
  | minted _ => cases feeds
  | refused _ _ _ => cases feeds
  | held _ _ _ _ _ => cases feeds
  | asked determines _ => exact absurd determines feeds.not_determines
  | taken _ tail => exact asks_tail tail
  | concluded _ _ => exact asks_respondAndFinish _ _ _ _
  | provisional response branch request _ _ _ _ =>
      cases owed : context.cancelOwed branch <;> by_cases isInvite : request.method = .invite <;>
        simp [forwardProvisional, markProvisional, owed, isInvite, asks]
  | accepted _ _ _ _ _ _ _ => simp [cancelPending, asks]
  | rejected _ _ _ _ _ _ =>
      rw [finishIfSettled_rejected]
      intro effect member
      split at member
      · simp [cancelPending] at member
        grind [asks]
      · simp [cancelPending] at member
        grind [asks]
  | recorded _ _ tail => exact asks_tail tail
  | stopped _ _ => cases feeds
  | withdrawn => cases feeds

/-! ### Copies still to come -/

theorem length_launch_le (config : ProxyConfig) (plan : Nat → Target → ForwardPlan K.Uri)
    (offset : Nat) (group : List Target) :
    (launches (launch K config plan offset group).1).length ≤ group.length := by
  rw [(launch_effects config plan offset group).2.2.1, List.length_map]
  induction group generalizing offset with
  | nil => simp [launch]
  | cons target rest ih =>
      have shorter := ih (offset + 1)
      unfold launch
      cases forward K (plan offset target) config with
      | error refused =>
          simp only [List.length_cons]
          omega
      | ok copy =>
          simp only [List.length_cons]
          omega

/-- A tail forwards no more copies than it takes targets off the queue. -/
theorem length_tail_le {context : ResponseContext K.Uri} {request : Request K.Uri}
    {outcome : Outcome K.Uri} (tail : Tail K context request outcome) :
    (launches outcome.2).length + outcome.1.queued.length ≤ context.queued.length := by
  cases tail with
  | waits _ => simp
  | forks validated _ _ _ =>
      have launched := length_launch_le context.config
        (forkPlan K context request validated (nextGroup K context validated).length) 0
        (nextGroup K context validated)
      simp only [launchGroup, forkedContext, List.length_drop]
      simp only [nextGroup, List.length_take] at launched ⊢
      omega
  | exhausts _ _ _ => simp [respondAndFinish_fst, forkedContext]
  | fails _ _ => simp [respondAndFinish_fst]
  | selects _ _ _ _ _ _ _ _ => simp
  | ends _ _ => simp

/-- A branch's event forwards no more copies than it takes targets off the queue. -/
theorem length_step_le {context : ResponseContext K.Uri} {input : Input K.Uri}
    {outcome : Outcome K.Uri} (step : Step K context input outcome) (feeds : Feeds input)
    (event : ∀ targets, input ≠ .targetsResolved targets) :
    (launches outcome.2).length + outcome.1.queued.length ≤ context.queued.length := by
  cases step with
  | absorbed _ => simp
  | premature _ _ => simp [terminate]
  | minted _ => cases feeds
  | refused _ _ _ => cases feeds
  | held _ _ _ _ _ => cases feeds
  | asked determines _ => exact absurd determines feeds.not_determines
  | taken takes _ =>
      cases takes with
      | predetermined determines _ => exact absurd determines feeds.not_determines
      | resolved _ targets _ _ => exact absurd rfl (event targets)
  | concluded _ concludes =>
      rw [launches_respondAndFinish, respondAndFinish_fst]
      cases concludes <;> simp
  | provisional response branch request _ _ _ _ =>
      rw [(forwardProvisional_effects context request response branch).2.2.1,
        (sameButBranches_forwardProvisional context request response branch).queued]
      simp
  | accepted _ _ _ _ _ _ _ => simp [cancelPending, acceptedContext]
  | rejected _ _ _ _ _ _ =>
      rw [finishIfSettled_rejected]
      split <;> simp [cancelPending, rejectedContext]
  | recorded _ records tail =>
      obtain ⟨status, final, recordedEq⟩ := records.frame
      have bound := length_tail_le tail
      rw [recordedEq] at bound
      exact bound
  | stopped _ _ => cases feeds
  | withdrawn => cases feeds

/-! ## What a run has accounted for -/

/-- What the driver has yet to do about its context: the answers it has not sent are
among its effects, every branch that owes a final is read or about to be sent, and every
question is about to be answered. -/
structure Accounts (world : World) (config : ProxyConfig) (request : Request K.Uri)
    (inputs : List (Input K.Uri)) (effects : List (Effect K.Uri)) (reading : List BranchId)
    (responded : List Response) : Prop where
  begins : ∃ later, inputs = .upstream request :: later ∧ ∀ input ∈ later, Feeds input
  answered : ∀ response ∈ answers (emitted (onInput K) (.new config) inputs),
    response ∈ responded ∨ response ∈ answers effects
  live : (after (onInput K) (.new config) inputs).finished = true ∨
    ∀ branch, isLive (after (onInput K) (.new config) inputs) branch →
      branch ∈ reading ∨ branch ∈ launches effects
  reported : ∀ branch ∈ launches (emitted (onInput K) (.new config) inputs),
    branch ∈ reading ∨ branch ∈ launches effects ∨ .branchTransportError branch ∈ inputs
  verdict : Outstanding (onInput K) AsksVerdict AnswersVerdict (.new config) inputs →
    ∃ effect ∈ effects, AsksVerdict effect
  targets : Outstanding (onInput K) AsksTargets AnswersTargets (.new config) inputs →
    ∃ effect ∈ effects, AsksTargets effect
  unaddressed : ∀ branch request target nextHop,
    .forward branch request target nextHop ∈ emitted (onInput K) (.new config) inputs →
      world.destinationOf nextHop = false →
        .forward branch request target nextHop ∈ effects ∨ .branchTransportError branch ∈ inputs

theorem mem_launches {Uri : Type} {branch : BranchId} {effects : List (Effect Uri)} :
    branch ∈ launches effects ↔
      ∃ request target nextHop, .forward branch request target nextHop ∈ effects := by
  rw [launches, List.mem_filterMap]
  constructor
  · rintro ⟨effect, member, isLaunched⟩
    cases effect with
    | forward launched request target nextHop =>
        rw [← Option.some.inj isLaunched]
        exact ⟨request, target, nextHop, member⟩
    | _ => contradiction
  · rintro ⟨request, target, nextHop, member⟩
    exact ⟨_, member, rfl⟩

section Accounting

variable {world : World} {config : ProxyConfig} {request : Request K.Uri}
  {inputs : List (Input K.Uri)} (popped : List (Effect K.Uri)) {rest : List (Effect K.Uri)}
  {reading reading' : List BranchId} {responded responded' : List Response}

/-- One more input: what was due about the effects popped and the branches dropped is
settled by it. -/
theorem Accounts.feed {input : Input K.Uri}
    (accounts : Accounts world config request inputs (popped ++ rest) reading responded)
    (feeds : Feeds input) (quiet : answers popped = [])
    (verdict : (∃ effect ∈ popped, AsksVerdict effect) → AnswersVerdict input)
    (targets : (∃ effect ∈ popped, AsksTargets effect) → AnswersTargets input)
    (told : ∀ branch request target nextHop, .forward branch request target nextHop ∈ popped →
      input = .branchTransportError branch)
    (kept : ∀ branch ∈ reading, branch ∈ reading' ∨ input = .branchTransportError branch) :
    Accounts world config request (inputs ++ [input])
      ((onInput K (after (onInput K) (.new config) inputs) input).2 ++ rest) reading' responded := by
  have coherent := coherent_after config inputs
  have advances := onInput_advances coherent input
  have stays : ∀ branch, branch ∈ launches (popped ++ rest) ∨ branch ∈ reading →
      branch ∈ reading' ∨ branch ∈ launches rest ∨ input = .branchTransportError branch := by
    intro branch due
    rw [launches_append, List.mem_append, or_assoc, or_left_comm] at due
    rcases due with later | launched | read
    · exact .inr (.inl later)
    · obtain ⟨copy, target, nextHop, member⟩ := mem_launches.mp launched
      exact .inr (.inr (told branch copy target nextHop member))
    · rcases kept branch read with stillRead | failed
      · exact .inl stillRead
      · exact .inr (.inr failed)
  constructor
  · obtain ⟨later, rfl, fed⟩ := accounts.begins
    refine ⟨later ++ [input], by simp, ?_⟩
    intro other member
    rcases List.mem_append.mp member with earlier | now
    · exact fed other earlier
    · rw [List.mem_singleton.mp now]
      exact feeds
  · intro response member
    rw [emitted_concat, answers_append, List.mem_append] at member
    rw [answers_append, List.mem_append]
    rcases member with earlier | now
    · have due := accounts.answered response earlier
      rw [answers_append, quiet, List.nil_append] at due
      rcases due with sent | later
      · exact .inl sent
      · exact .inr (.inr later)
    · exact .inr (.inl now)
  · rw [after_concat]
    rcases accounts.live with finished | live
    · exact .inl (advances.finished finished)
    · cases finished : (after (onInput K) (.new config) inputs).finished with
      | true => exact .inl (advances.finished finished)
      | false =>
          right
          intro branch owes
          have step := onInput_step coherent finished input
          rw [launches_append, List.mem_append]
          rcases isLive_of_step step feeds owes with launched | earlier
          · exact .inr (.inl launched)
          · rcases stays branch (live branch earlier).symm with stillRead | later | rfl
            · exact .inl stillRead
            · exact .inr (.inr later)
            · exact .inr (.inl (isLive_of_failure coherent step owes))
  · intro branch member
    rw [emitted_concat, launches_append, List.mem_append] at member
    rw [launches_append, List.mem_append]
    rcases member with earlier | now
    · rcases accounts.reported branch earlier with read | due | told
      · rcases stays branch (.inr read) with stillRead | later | rfl
        · exact .inl stillRead
        · exact .inr (.inl (.inr later))
        · exact .inr (.inr (by simp))
      · rcases stays branch (.inl due) with stillRead | later | rfl
        · exact .inl stillRead
        · exact .inr (.inl (.inr later))
        · exact .inr (.inr (by simp))
      · exact .inr (.inr (List.mem_append_left _ told))
    · exact .inr (.inl (.inl now))
  · intro outstanding
    rcases (outstanding_concat_iff _).mp outstanding with ⟨effect, member, asked⟩ | ⟨before, silent⟩
    · exact ⟨effect, List.mem_append_left _ member, asked⟩
    · obtain ⟨effect, member, asked⟩ := accounts.verdict before
      rcases List.mem_append.mp member with now | later
      · exact absurd (verdict ⟨effect, now, asked⟩) silent
      · exact ⟨effect, List.mem_append_right _ later, asked⟩
  · intro outstanding
    rcases (outstanding_concat_iff _).mp outstanding with ⟨effect, member, asked⟩ | ⟨before, silent⟩
    · exact ⟨effect, List.mem_append_left _ member, asked⟩
    · obtain ⟨effect, member, asked⟩ := accounts.targets before
      rcases List.mem_append.mp member with now | later
      · exact absurd (targets ⟨effect, now, asked⟩) silent
      · exact ⟨effect, List.mem_append_right _ later, asked⟩
  · intro branch copy target nextHop member none
    rw [emitted_concat, List.mem_append] at member
    rcases member with earlier | now
    · rcases accounts.unaddressed branch copy target nextHop earlier none with due | told
      · rcases List.mem_append.mp due with now | later
        · rw [told branch copy target nextHop now]
          exact .inr (by simp)
        · exact .inl (List.mem_append_right _ later)
      · exact .inr (List.mem_append_left _ told)
    · exact .inl (List.mem_append_left _ now)

/-- Effects performed without an input: answers are sent, copies are read, and nothing
was asked. -/
theorem Accounts.pop
    (accounts : Accounts world config request inputs (popped ++ rest) reading responded)
    (unasked : ∀ effect ∈ popped, asks effect = false)
    (sent : ∀ response, response ∈ answers popped ∨ response ∈ responded → response ∈ responded')
    (read : ∀ branch, branch ∈ launches popped ∨ branch ∈ reading → branch ∈ reading')
    (addressed : ∀ branch request target nextHop,
      .forward branch request target nextHop ∈ popped → world.destinationOf nextHop = true) :
    Accounts world config request inputs rest reading' responded' := by
  constructor
  · exact accounts.begins
  · intro response member
    have due := accounts.answered response member
    rw [answers_append, List.mem_append] at due
    rcases due with earlier | now | later
    · exact .inl (sent response (.inr earlier))
    · exact .inl (sent response (.inl now))
    · exact .inr later
  · rcases accounts.live with finished | live
    · exact .inl finished
    · right
      intro branch owes
      have due := live branch owes
      rw [launches_append, List.mem_append] at due
      rcases due with stillRead | now | later
      · exact .inl (read branch (.inr stillRead))
      · exact .inl (read branch (.inl now))
      · exact .inr later
  · intro branch member
    have due := accounts.reported branch member
    rw [launches_append, List.mem_append] at due
    rcases due with stillRead | (now | later) | told
    · exact .inl (read branch (.inr stillRead))
    · exact .inl (read branch (.inl now))
    · exact .inr (.inl later)
    · exact .inr (.inr told)
  · intro outstanding
    obtain ⟨effect, member, asked⟩ := accounts.verdict outstanding
    rcases List.mem_append.mp member with now | later
    · have none := unasked effect now
      rw [asks_of_asksVerdict asked] at none
      contradiction
    · exact ⟨effect, later, asked⟩
  · intro outstanding
    obtain ⟨effect, member, asked⟩ := accounts.targets outstanding
    rcases List.mem_append.mp member with now | later
    · have none := unasked effect now
      rw [asks_of_asksTargets asked] at none
      contradiction
    · exact ⟨effect, later, asked⟩
  · intro branch copy target nextHop member none
    rcases accounts.unaddressed branch copy target nextHop member none with due | told
    · rcases List.mem_append.mp due with now | later
      · rw [addressed branch copy target nextHop now] at none
        contradiction
      · exact .inl later
    · exact .inr told

end Accounting

/-! ## One step of the driver -/

namespace Driver

/-- Where a running driver stands. -/
structure Sound (world : World) (config : ProxyConfig) (request : Request K.Uri)
    (driver : Driver K.Uri) : Prop where
  isRequest : driver.request = request
  context : driver.context = after (onInput K) (.new config) driver.inputs
  accounts : Accounts world config request driver.inputs driver.effects
    (driver.branches.map Prod.fst) driver.responded

/-- Where it stands when it has returned: the context is over, or every branch has been
reported and nothing is outstanding. -/
structure Returned (world : World) (config : ProxyConfig) (request : Request K.Uri)
    (driver : Driver K.Uri) : Prop where
  context : driver.context = after (onInput K) (.new config) driver.inputs
  accounts : driver.context.finished = true ∧
      (∃ reading, Accounts world config request driver.inputs [] reading driver.responded) ∨
    Accounts world config request driver.inputs [] [] driver.responded

section Steps

variable {world : World} {config : ProxyConfig} {request : Request K.Uri} {driver : Driver K.Uri}

/-- Feeding a driver some of whose effects are done with. -/
theorem Sound.feed (driver : Driver K.Uri) (popped : List (Effect K.Uri))
    {rest : List (Effect K.Uri)} {input : Input K.Uri} {reading : List BranchId}
    (isRequest : driver.request = request)
    (context : driver.context = after (onInput K) (.new config) driver.inputs)
    (accounts : Accounts world config request driver.inputs (popped ++ rest) reading
      driver.responded) (isRest : driver.effects = rest)
    (feeds : Feeds input) (quiet : answers popped = [])
    (verdict : (∃ effect ∈ popped, AsksVerdict effect) → AnswersVerdict input)
    (targets : (∃ effect ∈ popped, AsksTargets effect) → AnswersTargets input)
    (told : ∀ branch request target nextHop, .forward branch request target nextHop ∈ popped →
      input = .branchTransportError branch)
    (kept : ∀ branch ∈ reading,
      branch ∈ driver.branches.map Prod.fst ∨ input = .branchTransportError branch) :
    Sound world config request (driver.feed K input) where
  isRequest := isRequest
  context := by
    rw [Driver.feed, after_concat, context]
  accounts := by
    have fed := accounts.feed popped feeds quiet verdict targets told kept
    rw [← context, ← isRest] at fed
    exact fed

/-- What performing an effect comes to. -/
inductive Performs (world : World) (driver : Driver K.Uri) : Effect K.Uri → Driver K.Uri → Prop where
  | answered {effect : Effect K.Uri} {input : Input K.Uri} (asked : asks effect = true)
      (feeds : Feeds input) (verdict : AsksVerdict effect → AnswersVerdict input)
      (targets : AsksTargets effect → AnswersTargets input) :
      Performs world driver effect (driver.feed K input)
  | unaddressed {branch : BranchId} {copy : Request K.Uri} {target : Target} {nextHop : Bytes}
      (absent : world.destinationOf nextHop = false) :
      Performs world driver (.forward branch copy target nextHop)
        (driver.feed K (.branchTransportError branch))
  | sent {branch : BranchId} {copy : Request K.Uri} {target : Target} {nextHop : Bytes}
      {events : List TuEvent} (addressed : world.destinationOf nextHop = true)
      (isSent : world.send driver.sends = some events) :
      Performs world driver (.forward branch copy target nextHop)
        { driver with
          sends := driver.sends + 1
          branches := driver.branches ++ [(branch, events)] }
  | unsent {branch : BranchId} {copy : Request K.Uri} {target : Target} {nextHop : Bytes}
      (addressed : world.destinationOf nextHop = true) (failed : world.send driver.sends = none) :
      Performs world driver (.forward branch copy target nextHop)
        { driver with status := .failed }
  | responded {response : Response} (succeeds : world.respond driver.responds = true) :
      Performs world driver (.respond response)
        { driver with
          responds := driver.responds + 1
          responded := driver.responded ++ [response] }
  | unanswered {response : Response} (fails : world.respond driver.responds = false) :
      Performs world driver (.respond response) { driver with status := .failed }
  | skipped {effect : Effect K.Uri} (unasked : asks effect = false) (quiet : answers [effect] = [])
      (unlaunched : launches [effect] = []) : Performs world driver effect driver

theorem performs_perform (world : World) (driver : Driver K.Uri) (effect : Effect K.Uri) :
    Performs world driver effect (driver.perform K world effect) := by
  cases effect with
  | resolveTargets query =>
      cases found : world.lookup query with
      | some targets =>
          simp only [perform, found]
          exact .answered rfl (.targets targets) id fun _ => trivial
      | none =>
          simp only [perform, found]
          exact .answered rfl .unavailable id fun _ => trivial
  | forward branch copy target nextHop =>
      cases addressed : world.destinationOf nextHop with
      | false =>
          simp only [perform, addressed]
          exact .unaddressed addressed
      | true =>
          cases isSent : world.send driver.sends with
          | none =>
              simp only [perform, addressed, isSent]
              exact .unsent addressed isSent
          | some events =>
              simp only [perform, addressed, isSent]
              exact .sent addressed isSent
  | verifyToken _ _ => exact .answered rfl .rejected (fun _ => trivial) id
  | respond response =>
      cases succeeds : world.respond driver.responds with
      | true =>
          simp only [perform, succeeds]
          exact .responded succeeds
      | false =>
          simp only [perform, succeeds]
          exact .unanswered succeeds
  | cancelBranch _ => exact .skipped rfl rfl rfl
  | answerCancel => exact .skipped rfl rfl rfl
  | setTimer _ _ _ => exact .skipped rfl rfl rfl
  | clearTimer _ _ => exact .skipped rfl rfl rfl
  | terminate => exact .skipped rfl rfl rfl

/-- Performing an effect, while the transport does its part. -/
theorem sound_perform (smooth : Smooth K world driver) {effect : Effect K.Uri}
    {rest : List (Effect K.Uri)} (sound : Sound world config request driver)
    (effects : driver.effects = effect :: rest) :
    (({ driver with effects := rest } : Driver K.Uri).perform K world effect).status =
        driver.status ∧
      Sound world config request
        (({ driver with effects := rest } : Driver K.Uri).perform K world effect) := by
  unfold Smooth at smooth
  rw [effects] at smooth
  have accounts := sound.accounts
  rw [effects] at accounts
  have single : Accounts world config request driver.inputs ([effect] ++ rest)
      (driver.branches.map Prod.fst) driver.responded := accounts
  have feeds : ∀ input : Input K.Uri, Feeds input → answers [effect] = [] →
      (AsksVerdict effect → AnswersVerdict input) → (AsksTargets effect → AnswersTargets input) →
      (∀ branch copy target nextHop, effect = .forward branch copy target nextHop →
        input = .branchTransportError branch) →
      Sound world config request (({ driver with effects := rest } : Driver K.Uri).feed K input) := by
    intro input feeds quiet verdict targets told
    apply Sound.feed { driver with effects := rest } [effect] sound.isRequest sound.context single
      rfl feeds quiet
    · rintro ⟨asked, member, asksVerdict⟩
      exact verdict (List.mem_singleton.mp member ▸ asksVerdict)
    · rintro ⟨asked, member, asksTargets⟩
      exact targets (List.mem_singleton.mp member ▸ asksTargets)
    · intro branch copy target nextHop member
      exact told branch copy target nextHop (List.mem_singleton.mp member).symm
    · exact fun branch member => .inl member
  have performs := performs_perform world ({ driver with effects := rest } : Driver K.Uri) effect
  generalize ({ driver with effects := rest } : Driver K.Uri).perform K world effect = performed
    at performs ⊢
  cases performs with
  | answered asked fed verdict targets =>
      refine ⟨rfl, feeds _ fed ?_ verdict targets ?_⟩
      · cases effect <;> first | rfl | contradiction
      · rintro branch copy target nextHop rfl
        contradiction
  | unaddressed absent =>
      refine ⟨rfl, feeds _ (.failure _) rfl id id ?_⟩
      rintro _ _ _ _ ⟨⟩
      rfl
  | sent addressed isSent =>
      refine ⟨rfl, sound.isRequest, sound.context, single.pop _ ?_ ?_ ?_ ?_⟩
      · simp [asks]
      · simp
      · simp [or_comm]
      · rintro _ _ _ _ member
        obtain ⟨-, -, -, rfl⟩ := Effect.forward.inj (List.mem_singleton.mp member)
        exact addressed
  | unsent addressed failed =>
      have isSent := smooth addressed
      rw [failed] at isSent
      contradiction
  | responded succeeds =>
      refine ⟨rfl, sound.isRequest, sound.context, single.pop _ ?_ ?_ ?_ ?_⟩
      · simp [asks]
      · simp [or_comm]
      · simp
      · simp
  | unanswered fails =>
      rw [fails] at smooth
      contradiction
  | skipped unasked quiet unlaunched =>
      refine ⟨rfl, sound.isRequest, sound.context, single.pop _ ?_ ?_ ?_ ?_⟩
      · intro other member
        rw [List.mem_singleton.mp member]
        exact unasked
      · simp [quiet]
      · simp [unlaunched]
      · intro branch copy target nextHop member
        have launched := mem_launches.mpr ⟨copy, target, nextHop, member⟩
        rw [unlaunched] at launched
        contradiction

/-- What the context is told of an event is a response or a failure of its branch. -/
theorem inputOf_cases {branch : BranchId} {event : TuEvent} {input : Input K.Uri}
    (told : inputOf K request branch event = some input) :
    (∃ response, input = .branchResponse response branch) ∨ input = .branchTransportError branch := by
  cases event with
  | response response => exact .inl ⟨response, (Option.some.inj told).symm⟩
  | timeout =>
      simp only [inputOf] at told
      split at told
      · exact .inl ⟨_, (Option.some.inj told).symm⟩
      · exact .inr (Option.some.inj told).symm
  | transportError => exact .inr (Option.some.inj told).symm
  | ack => contradiction
  | request => contradiction

theorem feeds_inputOf {branch : BranchId} {event : TuEvent} {input : Input K.Uri}
    (told : inputOf K request branch event = some input) : Feeds input := by
  rcases inputOf_cases told with ⟨response, rfl⟩ | rfl
  · exact .response response branch
  · exact .failure branch

/-- A driver with nothing left to perform returns when its context is over, or when it
reads no branch. -/
theorem Sound.returned (sound : Sound world config request driver) (effects : driver.effects = [])
    (ends : driver.context.finished = true ∨ driver.branches = []) :
    Returned world config request { driver with status := .returned } where
  context := sound.context
  accounts := by
    have accounts := sound.accounts
    rw [effects] at accounts
    rcases ends with finished | unread
    · exact .inl ⟨finished, _, accounts⟩
    · rw [unread] at accounts
      exact .inr accounts

/-- An event of a branch, or the end of its stream: the driver goes on, or returns. -/
theorem sound_joined (driver : Driver K.Uri) {branch : BranchId} {reading : List BranchId}
    (running : driver.status = .running)
    (isRequest : driver.request = request)
    (context : driver.context = after (onInput K) (.new config) driver.inputs)
    (accounts : Accounts world config request driver.inputs [] reading driver.responded)
    (effects : driver.effects = [])
    (kept : ∀ other ∈ reading, other ∈ driver.branches.map Prod.fst ∨ other = branch)
    (events : List TuEvent) :
    ((driver.joined K branch events).status = .running ∧
        Sound world config request (driver.joined K branch events)) ∨
      ((driver.joined K branch events).status = .returned ∧
        Returned world config request (driver.joined K branch events)) := by
  cases events with
  | nil =>
      cases finished : driver.context.finished with
      | true =>
          right
          have ended : driver.joined K branch [] = { driver with status := .returned } :=
            if_pos finished
          rw [ended]
          exact ⟨rfl, context, .inl ⟨finished, reading, accounts⟩⟩
      | false =>
          left
          have failed : driver.joined K branch [] =
              ({ driver with looping := true } : Driver K.Uri).feed K
                (.branchTransportError branch) := if_neg (by simp [finished])
          rw [failed]
          refine ⟨running, Sound.feed { driver with looping := true } [] isRequest
            context accounts effects (.failure branch) rfl (by simp) (by simp) (by simp) ?_⟩
          intro other member
          rcases kept other member with stillRead | rfl
          · exact .inl stillRead
          · exact .inr rfl
  | cons event later =>
      left
      have watched : ∀ other ∈ reading,
          other ∈ (driver.branches ++ [(branch, later)]).map Prod.fst := by
        intro other member
        rw [List.map_append, List.mem_append]
        rcases kept other member with stillRead | rfl
        · exact .inl stillRead
        · exact .inr (List.mem_singleton_self _)
      unfold joined
      cases told : inputOf K driver.request branch event with
      | some input =>
          simp only [told]
          refine ⟨running, Sound.feed
            { driver with branches := driver.branches ++ [(branch, later)], looping := true } []
            isRequest context accounts effects (feeds_inputOf told) rfl (by simp) (by simp)
            (by simp) ?_⟩
          exact fun other member => .inl (watched other member)
      | none =>
          simp only [told]
          have reads : Accounts world config request driver.inputs []
              ((driver.branches ++ [(branch, later)]).map Prod.fst) driver.responded :=
            Accounts.pop [] accounts (by simp) (by simp) (by simpa using watched) (by simp)
          rw [← effects] at reads
          exact ⟨running, isRequest, context, reads⟩

/-- Reading the next branch, when its reader joins: the driver goes on, or returns. -/
theorem sound_joinNext (joins : world.joins driver.reads = true)
    (running : driver.status = .running) (sound : Sound world config request driver)
    (effects : driver.effects = []) :
    ((driver.joinNext K world).status = .running ∧
        Sound world config request (driver.joinNext K world)) ∨
      ((driver.joinNext K world).status = .returned ∧
        Returned world config request (driver.joinNext K world)) := by
  unfold joinNext
  generalize isIndex : world.next driver.reads % driver.branches.length = index
  cases read : driver.branches[index]? with
  | none =>
      right
      have unread : driver.branches = [] := by
        by_contra someRead
        have positive := List.length_pos_iff.mpr someRead
        have inside : index < driver.branches.length := isIndex ▸ Nat.mod_lt _ positive
        rw [List.getElem?_eq_getElem inside] at read
        contradiction
      simp only [read]
      exact ⟨trivial, sound.returned effects (.inr unread)⟩
  | some entry =>
      obtain ⟨branch, events⟩ := entry
      obtain ⟨inside, isEntry⟩ := List.getElem?_eq_some_iff.mp read
      have accounts := sound.accounts
      rw [effects] at accounts
      simp only [read, joins, if_true]
      apply sound_joined
        { driver with reads := driver.reads + 1, branches := driver.branches.eraseIdx index }
        running sound.isRequest sound.context accounts effects
      intro other member
      obtain ⟨item, held, rfl⟩ := List.mem_map.mp member
      obtain ⟨position, isItem⟩ := List.mem_iff_getElem?.mp held
      by_cases same : position = index
      · right
        rw [same, read] at isItem
        rw [← Option.some.inj isItem]
      · left
        apply List.mem_map_of_mem
        exact List.mem_eraseIdx_iff_getElem?.mpr ⟨position, same, isItem⟩

theorem step_of_effect {effect : Effect K.Uri} {rest : List (Effect K.Uri)}
    (running : driver.status = .running) (effects : driver.effects = effect :: rest) :
    step K world driver = ({ driver with effects := rest } : Driver K.Uri).perform K world effect := by
  cases driver
  cases running
  cases effects
  rfl

theorem step_of_idle (running : driver.status = .running) (effects : driver.effects = []) :
    step K world driver =
      if driver.looping && driver.context.finished then { driver with status := .returned }
      else driver.joinNext K world := by
  cases driver
  cases running
  cases effects
  rfl

theorem step_of_stopped (stopped : driver.status ≠ .running) : step K world driver = driver := by
  unfold step
  split
  · contradiction
  · contradiction
  · rfl

/-- One step of a sound driver, while the transport does its part. -/
theorem sound_step (smooth : Smooth K world driver) (running : driver.status = .running)
    (sound : Sound world config request driver) :
    ((step K world driver).status = .running ∧ Sound world config request (step K world driver)) ∨
      ((step K world driver).status = .returned ∧
        Returned world config request (step K world driver)) := by
  cases effects : driver.effects with
  | cons effect rest =>
      obtain ⟨kept, performed⟩ := sound_perform smooth sound effects
      rw [step_of_effect running effects]
      exact .inl ⟨kept.trans running, performed⟩
  | nil =>
      rw [step_of_idle running effects]
      split
      · next ended =>
          rw [Bool.and_eq_true] at ended
          exact .inr ⟨rfl, sound.returned effects (.inl ended.2)⟩
      · apply sound_joinNext _ running sound effects
        unfold Smooth at smooth
        rw [effects] at smooth
        exact smooth

end Steps

end Driver

end SipxClstr.Node
