import SipxClstr.Probe.Attribution

/-!
# What a probe run concludes

The verdict of a run, the steps it records and what it says about its cleanup agree,
unless an answer comes from something that is not the echo, a second step is challenged, or
the run is cancelled while it cleans up.
-/

namespace SipxClstr.Probe

open SipxClstr.Sip

/-- The probe plan. -/
def plan : List Step :=
  [.resolve, .register, .invite, .bye]

/-- The steps of the plan before this one. -/
def Step.before : Step → List Step
  | .resolve => []
  | .register => [.resolve]
  | .invite => [.resolve, .register]
  | .bye => [.resolve, .register, .invite]

theorem before_prefix_plan (step : Step) : step.before ++ [step] <+: plan := by
  cases step <;> decide

/-- Which steps were recorded, and which of them succeeded. -/
def record (steps : List StepOutcome) : List (Step × Bool) :=
  steps.map fun outcome => (outcome.step, outcome.succeeded)

/-- These steps, all of them succeeded. -/
def succeeded (steps : List Step) : List (Step × Bool) :=
  steps.map fun step => (step, true)

theorem record_append (steps : List StepOutcome) (outcome : StepOutcome) :
    record (steps ++ [outcome]) = record steps ++ [(outcome.step, outcome.succeeded)] :=
  List.map_append

theorem not_mem_succeeded (step : Step) (steps : List Step) : (step, false) ∉ succeeded steps := by
  simp [succeeded]

namespace ProbeEngine

/-! ## Sound runs -/

section Runs

variable (K : Kernel) [Inhabited K.Uri]

/-- The INVITE's 2xx carried the run's marker. -/
def Marked (config : ProbeConfig) (marker : Marker) (past : List (Duration × Input))
    (input : Duration × Input) : Prop :=
  ((machine K).after (new config marker) past).waiting = .step .invite ∧
    ∃ response ∈ input.2.answer,
      ((machine K).after (new config marker) past).correlates response = true ∧
        isSuccess response.status = true ∧ Marker.of response.headers = some marker

/-- The run answered a challenge of this step: it sent the step's request again. -/
def AnswersChallenge (config : ProbeConfig) (marker : Marker) (step : Step)
    (past : List (Duration × Input)) (input : Duration × Input) : Prop :=
  ((machine K).after (new config marker) past).waiting = .step step ∧
    (∃ response ∈ input.2.answer, Challenges response ∧
      ((machine K).after (new config marker) past).correlates response = true) ∧
    ((machine K).after (new config marker) (past ++ [input])).waiting = .step step ∧
      requestsOf (machine K ((machine K).after (new config marker) past) input).2 ≠ []

/-- Every cleanup request of the run got a 2xx since, or its number is still pending. -/
def CleanupsHeard (config : ProbeConfig) (marker : Marker) (inputs : List (Duration × Input))
    (pending : Option Nat → Prop) : Prop :=
  ∀ past input later, inputs = past ++ input :: later → ∀ step,
    ((machine K).after (new config marker) (past ++ [input])).waiting = .cleanup step →
      requestsOf (machine K ((machine K).after (new config marker) past) input).2 ≠ [] →
        (∃ response ∈ responsesOf later, isSuccess response.status = true ∧
          cseqNumber response.headers =
            ((machine K).after (new config marker) (past ++ [input])).outstandingCseq) ∨
          pending ((machine K).after (new config marker) (past ++ [input])).outstandingCseq

/-- What a finished run says about itself is what happened. -/
structure Sound (config : ProbeConfig) (marker : Marker) (inputs : List (Duration × Input))
    (run : ProbeRun) : Prop where
  pass : run.verdict = .pass ↔ (record run.steps = succeeded plan ∧
    Reactive.Machine.Happened (Marked K config marker) inputs)
  fail : ∀ step cause, run.verdict = .fail step cause → ∃ earlier last,
    run.steps = earlier ++ [last] ∧ last.step = step ∧ last.succeeded = false ∧
      (∀ outcome ∈ earlier, outcome.succeeded = true) ∧ run.steps.map StepOutcome.step <+: plan
  challenged : ∀ step status, run.verdict = .fail step (.rejected status) →
    (status = 401 ∨ status = 407) →
      Reactive.Machine.Happened (AnswersChallenge K config marker step) inputs
  cleaned : run.cleanupFailed = false → CleanupsHeard K config marker inputs fun _ => False

/-- The runs are sound, and a verdict once decided is never changed. -/
structure VerdictSound (config : ProbeConfig) (marker : Marker) (inputs : List (Duration × Input)) :
    Prop where
  sound : ∀ run, .finish run ∈ (machine K).emitted (new config marker) inputs →
    Sound K config marker inputs run
  stable : ∀ past later verdict, inputs = past ++ later →
    ((machine K).after (new config marker) past).decided = some verdict →
      ((machine K).after (new config marker) inputs).decided = some verdict ∧
        ∀ run, .finish run ∈ (machine K).emitted (new config marker) inputs →
          run.verdict = verdict

/-- An input after which the verdict, the record and the cleanup need not agree. -/
inductive Blurs (config : ProbeConfig) (marker : Marker) (past : List (Duration × Input)) :
    Input → Prop where
  /-- The call was answered by something that is not the echo. -/
  | foreign {response : Response}
      (waiting : ((machine K).after (new config marker) past).waiting = .step .invite)
      (heard : ((machine K).after (new config marker) past).correlates response = true)
      (success : isSuccess response.status = true)
      (unmarked : Marker.of response.headers ≠ some marker) :
      Blurs config marker past (.response response)
  /-- A step is challenged, and the one challenge answered was another's. -/
  | challenged {step : Step} {response : Response}
      (waiting : ((machine K).after (new config marker) past).waiting = .step step)
      (heard : ((machine K).after (new config marker) past).correlates response = true)
      (challenge : Challenges response)
      (answered : ((machine K).after (new config marker) past).state.answeredChallenge = true)
      (other : ¬ Reactive.Machine.Happened (AnswersChallenge K config marker step) past) :
      Blurs config marker past (.response response)
  /-- The run is abandoned while a cleanup is outstanding. -/
  | cancelled {step : Step}
      (waiting : ((machine K).after (new config marker) past).waiting = .cleanup step) :
      Blurs config marker past .cancelled
  | noResource {step : Step}
      (waiting : ((machine K).after (new config marker) past).waiting = .cleanup step) :
      Blurs config marker past .localResourceUnavailable

end Runs

/-! ## One turn -/

section Turns

variable {K : Kernel} [Inhabited K.Uri] {marker : Marker} {marked : Prop} {answered : Step → Prop}
  {engine source : ProbeEngine}

/-- The steps a run of this verdict has recorded. -/
def Shape (marked : Prop) (answered : Step → Prop) : Verdict → List StepOutcome → Prop
  | .pass, steps => record steps = succeeded plan ∧ marked
  | .fail step cause, steps =>
      record steps = succeeded step.before ++ [(step, false)] ∧
        ∀ status, cause = .rejected status → (status = 401 ∨ status = 407) → answered step
  | .inconclusive _, steps => record steps ≠ succeeded plan

theorem Shape.mono {marked' : Prop} {answered' : Step → Prop} {verdict : Verdict}
    {steps : List StepOutcome} (shape : Shape marked answered verdict steps)
    (marks : marked → marked') (answers : ∀ step, answered step → answered' step) :
    Shape marked' answered' verdict steps := by
  cases verdict with
  | pass => exact ⟨shape.1, marks shape.2⟩
  | fail step cause =>
      exact ⟨shape.1, fun status rejected challenge =>
        answers step (shape.2 status rejected challenge)⟩
  | inconclusive fault => exact shape

/-- What a run that has not ended has decided and recorded. -/
inductive Stage (marked : Prop) (answered : Step → Prop) (engine : ProbeEngine) : Prop where
  | planned {step : Step} (waiting : engine.waiting = .step step)
      (recorded : record engine.steps = succeeded step.before) (undecided : engine.decided = none)
      (noCleanup : engine.state.cleanupFailed = false) (reflected : step = .bye → marked)
  /-- A response was taken for the answer of the resolution, which sent nothing. -/
  | idle (waiting : engine.waiting = .nothing)
      (recorded : record engine.steps = [(.resolve, true)]) (undecided : engine.decided = none)
      (noCleanup : engine.state.cleanupFailed = false)
  | cleaning {step : Step} {verdict : Verdict} {number : Nat}
      (waiting : engine.waiting = .cleanup step) (decided : engine.decided = some verdict)
      (shape : Shape marked answered verdict engine.steps)
      (outstanding : engine.outstandingCseq = some number)

/-- What a turn leaves: a run that goes on, or one that has ended with the verdict it
decided. -/
inductive Leaves (marker : Marker) (marked : Prop) (answered : Step → Prop)
    (outcome : ProbeEngine × List (Effect K.Uri)) : Prop where
  | goesOn (isMarker : outcome.1.marker = marker) (unfinished : outcome.1.state.finished = false)
      (none : ∀ run, .finish run ∉ outcome.2) (stage : Stage marked answered outcome.1)
  | ends {last : ProbeRun} (waiting : outcome.1.waiting = .nothing)
      (finished : outcome.1.state.finished = true)
      (only : ∀ run, .finish run ∈ outcome.2 → run = last)
      (decided : outcome.1.decided = some last.verdict)
      (shape : Shape marked answered last.verdict last.steps)
      (cleanupFailed : last.cleanupFailed = outcome.1.state.cleanupFailed)

omit [Inhabited K.Uri] in
theorem Leaves.clears {next : ProbeEngine} {effects : List (Effect K.Uri)}
    (leaves : Leaves marker marked answered (next, effects)) (step : Step) :
    Leaves marker marked answered (next, .clearTimer step :: effects) := by
  rcases leaves with ⟨isMarker, unfinished, none, stage⟩ |
    ⟨waiting, finished, only, decided, shape, cleanupFailed⟩
  · refine .goesOn isMarker unfinished ?_ stage
    intro run member
    exact none run (by simpa using member)
  · refine .ends waiting finished ?_ decided shape cleanupFailed
    intro run member
    exact only run (by simpa using member)

/-- A run that has decided its verdict cleans up. -/
theorem leaves_cleanup {verdict : Verdict} (isMarker : source.marker = marker)
    (unfinished : source.state.finished = false) (decided : source.decided = some verdict)
    (shape : Shape marked answered verdict source.steps) :
    Leaves marker marked answered (source.cleanup K) := by
  unfold cleanup
  split
  · apply Leaves.goesOn
    · exact isMarker
    · simpa [RunState.forget, simpleRequest, awaitNext] using unfinished
    · simp
    · exact .cleaning rfl decided shape rfl
  · split
    · apply Leaves.goesOn
      · exact isMarker
      · simpa [RunState.forget, registerRequest, awaitNext] using unfinished
      · simp
      · exact .cleaning rfl decided shape rfl
    · apply Leaves.ends rfl rfl
      · intro run member
        simpa [finish] using member
      · simp [finish, decided]
      · simpa [decided] using shape
      · rfl

theorem record_concludeStep {step : Step} (waiting : engine.waiting = .step step)
    (recorded : record engine.steps = succeeded step.before) (success : Bool) :
    record (engine.concludeStep success).steps = succeeded step.before ++ [(step, success)] := by
  simp only [concludeStep, waiting]
  rw [record_append, recorded]

@[simp]
theorem marker_concludeStep (success : Bool) :
    (engine.concludeStep success).marker = engine.marker := by
  unfold concludeStep
  split <;> rfl

@[simp]
theorem decided_concludeStep (success : Bool) :
    (engine.concludeStep success).decided = engine.decided := by
  unfold concludeStep
  split <;> rfl

@[simp]
theorem marker_decide (verdict : Verdict) : (engine.decide verdict).marker = engine.marker := by
  unfold decide
  split <;> rfl

@[simp]
theorem steps_decide (verdict : Verdict) : (engine.decide verdict).steps = engine.steps := by
  unfold decide
  split <;> rfl

theorem decided_decide {verdict : Verdict} (undecided : engine.decided = none) :
    (engine.decide verdict).decided = some verdict := by
  simp [decide, undecided]

/-- What is known of a run that waits for a step of the plan. -/
structure Plans (marker : Marker) (marked : Prop) (engine : ProbeEngine) (step : Step) : Prop where
  isMarker : engine.marker = marker
  unfinished : engine.state.finished = false
  waiting : engine.waiting = .step step
  recorded : record engine.steps = succeeded step.before
  undecided : engine.decided = none
  noCleanup : engine.state.cleanupFailed = false
  reflected : step = .bye → marked

omit [Inhabited K.Uri] in
theorem Plans.goesOn {step : Step} {outcome : ProbeEngine × List (Effect K.Uri)}
    (plans : Plans marker marked outcome.1 step) (none : ∀ run, .finish run ∉ outcome.2) :
    Leaves marker marked answered outcome :=
  .goesOn plans.isMarker plans.unfinished none
    (.planned plans.waiting plans.recorded plans.undecided plans.noCleanup plans.reflected)

theorem leaves_failStep {step : Step} (plans : Plans marker marked engine step) {cause : Cause}
    (challenged : ∀ status, cause = .rejected status → (status = 401 ∨ status = 407) →
      answered step) :
    Leaves marker marked answered ((engine.concludeStep false).fail K step cause) := by
  apply Leaves.clears
  have undecided : (engine.concludeStep false).decided = none := by
    rw [decided_concludeStep, plans.undecided]
  apply leaves_cleanup
  · unfold failed
    split <;> simp [plans.isMarker]
  · unfold failed
    split <;> simp [RunState.forget, plans.unfinished]
  · unfold failed
    split <;> exact decided_decide undecided
  · refine ⟨?_, challenged⟩
    rw [← record_concludeStep plans.waiting plans.recorded false]
    unfold failed
    split <;> simp

theorem leaves_abandon {step : Step} (plans : Plans marker marked engine step)
    (fault : ProbeFault) : Leaves marker marked answered (engine.abandon K fault) := by
  simp only [abandon, waiting_decide, plans.waiting]
  apply Leaves.clears
  have waiting : (engine.decide (.inconclusive fault)).waiting = .step step := by
    rw [waiting_decide, plans.waiting]
  have recorded : record (engine.decide (.inconclusive fault)).steps = succeeded step.before := by
    rw [steps_decide, plans.recorded]
  apply leaves_cleanup
  · simp [plans.isMarker]
  · simp [plans.unfinished]
  · rw [decided_concludeStep]
    exact decided_decide plans.undecided
  · intro isPlan
    rw [record_concludeStep waiting recorded] at isPlan
    apply not_mem_succeeded step plan
    rw [← isPlan]
    simp

/-- What is known of a run between two steps of the plan. -/
structure Concluded (marker : Marker) (engine : ProbeEngine) (steps : List (Step × Bool)) : Prop where
  isMarker : engine.marker = marker
  unfinished : engine.state.finished = false
  recorded : record engine.steps = steps
  undecided : engine.decided = none
  noCleanup : engine.state.cleanupFailed = false

theorem Plans.concludes {step : Step} (plans : Plans marker marked engine step) :
    Concluded marker (engine.concludeStep true) (succeeded (step.before ++ [step])) where
  isMarker := by rw [marker_concludeStep, plans.isMarker]
  unfinished := by rw [state_concludeStep, plans.unfinished]
  recorded := by
    rw [record_concludeStep plans.waiting plans.recorded, succeeded, succeeded, List.map_append]
    rfl
  undecided := by rw [decided_concludeStep, plans.undecided]
  noCleanup := by rw [state_concludeStep, plans.noCleanup]

theorem Concluded.owes {steps : List (Step × Bool)} (concluded : Concluded marker engine steps)
    (obligation : Obligation) :
    Concluded marker { engine with state := engine.state.owe obligation } steps where
  isMarker := concluded.isMarker
  unfinished := by
    unfold RunState.owe
    split <;> exact concluded.unfinished
  recorded := concluded.recorded
  undecided := concluded.undecided
  noCleanup := by
    unfold RunState.owe
    split <;> exact concluded.noCleanup

theorem leaves_sendRegister (concluded : Concluded marker engine (succeeded [.resolve])) :
    Leaves marker marked answered (engine.sendRegister K) := by
  have plans : Plans marker marked (engine.sendRegister K).1 .register :=
    ⟨concluded.isMarker, concluded.unfinished, rfl, concluded.recorded, concluded.undecided,
      concluded.noCleanup, by simp⟩
  exact plans.goesOn (by simp [sendRegister])

theorem leaves_sendInvite (concluded : Concluded marker engine (succeeded [.resolve, .register])) :
    Leaves marker marked answered (engine.sendInvite K) := by
  have plans : Plans marker marked (engine.sendInvite K).1 .invite :=
    ⟨concluded.isMarker, concluded.unfinished, rfl, concluded.recorded, concluded.undecided,
      concluded.noCleanup, by simp⟩
  exact plans.goesOn (by simp [sendInvite])

theorem leaves_sendBye (concluded : Concluded marker engine (succeeded [.resolve, .register, .invite]))
    (reflected : marked) : Leaves marker marked answered (engine.sendBye K) := by
  have plans : Plans marker marked (engine.sendBye K).1 .bye :=
    ⟨concluded.isMarker, concluded.unfinished, rfl, concluded.recorded, concluded.undecided,
      concluded.noCleanup, fun _ => reflected⟩
  exact plans.goesOn (by simp [sendBye])

theorem leaves_retryChallenged {step : Step} (plans : Plans marker marked engine step) :
    Leaves marker marked answered (engine.retryChallenged K step) := by
  cases step with
  | resolve => exact plans.goesOn (by simp [retryChallenged])
  | register | invite | bye =>
      refine Plans.goesOn ⟨plans.isMarker, plans.unfinished, plans.waiting, plans.recorded,
        plans.undecided, plans.noCleanup, plans.reflected⟩ ?_
      simp [retryChallenged]

theorem leaves_onStepSuccess {step : Step} (plans : Plans marker marked engine step)
    {response : Response}
    (reflects : step = .invite → marked ∧ Marker.of response.headers = some marker) :
    Leaves marker marked answered (engine.onStepSuccess K step response) := by
  have concludes := plans.concludes
  cases step with
  | resolve =>
      refine .goesOn concludes.isMarker concludes.unfinished (by simp [onStepSuccess]) ?_
      apply Stage.idle _ concludes.recorded concludes.undecided concludes.noCleanup
      simp [concludeStep, plans.waiting]
  | register => exact leaves_sendInvite (concludes.owes .deregister)
  | invite =>
      obtain ⟨reflected, isMarker⟩ := reflects rfl
      have owes := concludes.owes .endDialog
      have same : Marker.of response.headers = some (engine.concludeStep true).marker := by
        rw [isMarker, concludes.isMarker]
      unfold onStepSuccess
      simp only [same, ne_eq, not_true_eq_false, if_false]
      exact leaves_sendBye owes reflected
  | bye =>
      apply leaves_cleanup
      · exact concludes.isMarker
      · exact concludes.unfinished
      · rfl
      · exact ⟨concludes.recorded, plans.reflected rfl⟩

theorem leaves_onStepResponse {step : Step} (plans : Plans marker marked engine step)
    {response : Response}
    (challenged : Challenges response → engine.state.answeredChallenge = true → answered step)
    (reflects : isSuccess response.status = true → step = .invite →
      marked ∧ Marker.of response.headers = some marker) :
    Leaves marker marked answered
      (engine.onStepResponse K step response.status.code response) := by
  unfold onStepResponse
  split
  next challenge =>
    split
    · exact leaves_abandon plans _
    · split
      next again =>
        apply leaves_failStep plans
        intro status _ _
        exact challenged challenge again
      next => exact leaves_retryChallenged ⟨plans.isMarker, plans.unfinished, plans.waiting,
        plans.recorded, plans.undecided, plans.noCleanup, plans.reflected⟩
  next unchallenged =>
    split
    · apply leaves_failStep plans
      rintro status ⟨⟩
    · split
      · apply leaves_failStep plans
        rintro status ⟨⟩ challenge
        exact absurd challenge unchallenged
      next success => exact leaves_onStepSuccess plans (reflects (by simpa using success))

theorem leaves_onResponse {step : Step} (plans : Plans marker marked engine step)
    {response : Response}
    (challenged : engine.correlates response = true → Challenges response →
      engine.state.answeredChallenge = true → answered step)
    (reflects : engine.correlates response = true → isSuccess response.status = true →
      step = .invite → marked ∧ Marker.of response.headers = some marker) :
    Leaves marker marked answered (engine.onResponse K response) := by
  rw [onResponse_of_step engine plans.waiting]
  split
  · exact plans.goesOn (by simp)
  · split
    · exact plans.goesOn (by simp)
    next correlated =>
      have heard : engine.correlates response = true := by simpa using correlated
      exact leaves_onStepResponse plans (challenged heard) (reflects heard)

/-- A turn of a run that waits for a step of the plan. -/
theorem leaves_planned {step : Step} (plans : Plans marker marked engine step) (now : Duration)
    {input : Input} (notStart : input ≠ .start)
    (challenged : ∀ response ∈ input.answer, engine.correlates response = true →
      Challenges response → engine.state.answeredChallenge = true → answered step)
    (reflects : ∀ response ∈ input.answer, engine.correlates response = true →
      isSuccess response.status = true → step = .invite →
        marked ∧ Marker.of response.headers = some marker) :
    Leaves marker marked answered (engine.onInput K now input) := by
  have later : Plans marker marked ({ engine with now := now } : ProbeEngine) step :=
    ⟨plans.isMarker, plans.unfinished, plans.waiting, plans.recorded, plans.undecided,
      plans.noCleanup, plans.reflected⟩
  rw [onInput, if_neg (by simp [plans.unfinished])]
  cases input with
  | start => contradiction
  | resolved outcome =>
      simp only [onResolved]
      split
      · exact later.goesOn (by simp)
      next resolving =>
        have isResolve : step = .resolve := by
          rw [Decidable.not_not, plans.waiting] at resolving
          exact Waiting.step.inj resolving
        subst step
        cases outcome with
        | error _ =>
            apply leaves_failStep later
            rintro status ⟨⟩
        | ok _ => exact leaves_sendRegister later.concludes
  | response response =>
      exact leaves_onResponse later (challenged response rfl) (reflects response rfl)
  | transportError =>
      simp only [onTransportError_of_step { engine with now := now } plans.waiting]
      apply leaves_failStep later
      rintro status ⟨⟩
  | timerFired fired =>
      simp only [onTimeout_of_step { engine with now := now } plans.waiting]
      split
      next same =>
        subst fired
        apply leaves_failStep later
        rintro status ⟨⟩
      next => exact later.goesOn (by simp)
  | cancelled => exact leaves_abandon later _
  | localResourceUnavailable => exact leaves_abandon later _

/-- A turn of a run that waits for nothing. -/
theorem leaves_idle (isMarker : engine.marker = marker) (unfinished : engine.state.finished = false)
    (waiting : engine.waiting = .nothing) (recorded : record engine.steps = [(.resolve, true)])
    (undecided : engine.decided = none) (noCleanup : engine.state.cleanupFailed = false)
    (now : Duration) {input : Input} (notStart : input ≠ .start) :
    Leaves marker marked answered (engine.onInput K now input) := by
  have still : Leaves (K := K) marker marked answered ({ engine with now := now }, []) :=
    .goesOn isMarker unfinished (by simp) (.idle waiting recorded undecided noCleanup)
  have abandons : ∀ fault, Leaves (K := K) marker marked answered
      (({ engine with now := now } : ProbeEngine).abandon K fault) := by
    intro fault
    simp only [abandon, waiting_decide, waiting]
    apply leaves_cleanup
    · rw [marker_decide, isMarker]
    · rw [state_decide, unfinished]
    · exact decided_decide undecided
    · intro isPlan
      rw [steps_decide, recorded] at isPlan
      contradiction
  rw [onInput, if_neg (by simp [unfinished])]
  cases input with
  | start => contradiction
  | resolved outcome => simpa [onResolved, waiting] using still
  | response response =>
      simp only [onResponse]
      split
      · exact still
      · split
        · exact still
        · simpa [waiting] using still
  | transportError => simpa [onTransportError, waiting] using still
  | timerFired step => simpa [onTimeout, waiting] using still
  | cancelled => exact abandons _
  | localResourceUnavailable => exact abandons _

/-- A turn of a run that cleans up and is not abandoned: nothing happens, or the cleanup
is over and what it says of itself is recorded. -/
theorem cleaning_turn (unfinished : engine.state.finished = false) {step : Step}
    (waiting : engine.waiting = .cleanup step) {number : Nat}
    (outstanding : engine.outstandingCseq = some number) (now : Duration) {input : Input}
    (notStart : input ≠ .start) (notCancelled : input ≠ .cancelled)
    (resource : input ≠ .localResourceUnavailable) :
    engine.onInput K now input = ({ engine with now := now }, []) ∨
      ∃ source : ProbeEngine, engine.onInput K now input = source.afterCleanup K step ∧
        source.marker = engine.marker ∧ source.steps = engine.steps ∧
          source.decided = engine.decided ∧ source.state.finished = false ∧
            (source.state.cleanupFailed = true ∨
              (source.state.cleanupFailed = engine.state.cleanupFailed ∧
                ∃ response ∈ input.answer, isSuccess response.status = true ∧
                  cseqNumber response.headers = some number)) := by
  have fails : ∃ source : ProbeEngine,
      ({ engine with now := now } : ProbeEngine).cleanupFailed.afterCleanup K step =
        source.afterCleanup K step ∧
      source.marker = engine.marker ∧ source.steps = engine.steps ∧
          source.decided = engine.decided ∧ source.state.finished = false ∧
            (source.state.cleanupFailed = true ∨
              (source.state.cleanupFailed = engine.state.cleanupFailed ∧
                ∃ response ∈ input.answer, isSuccess response.status = true ∧
                  cseqNumber response.headers = some number)) :=
    ⟨_, rfl, rfl, rfl, rfl, unfinished, .inl rfl⟩
  rw [onInput, if_neg (by simp [unfinished])]
  cases input with
  | start => contradiction
  | cancelled => contradiction
  | localResourceUnavailable => contradiction
  | resolved outcome => simp [onResolved, waiting]
  | transportError =>
      right
      simpa only [onTransportError, waiting] using fails
  | timerFired fired =>
      simp only [onTimeout, waiting]
      by_cases same : step = fired
      · subst fired
        right
        simpa [waiting] using fails
      · left
        simp [same]
  | response response =>
      simp only [onResponse]
      split
      · exact .inl rfl
      · split
        · exact .inl rfl
        next correlated =>
          right
          simp only [waiting]
          split
          · simpa only [waiting] using fails
          next success =>
            refine ⟨{ engine with now := now }, by simp [waiting], rfl, rfl, rfl, unfinished,
              .inr ⟨rfl, response, rfl, by simpa using success, ?_⟩⟩
            simpa [correlates, outstanding] using correlated

theorem cleanupFailed_cleanup (engine : ProbeEngine) :
    (engine.cleanup K).1.state.cleanupFailed = engine.state.cleanupFailed := by
  unfold cleanup
  split
  · rfl
  · split <;> rfl

theorem decided_cleanup (engine : ProbeEngine) :
    (engine.cleanup K).1.decided = engine.decided := by
  unfold cleanup
  split
  · rfl
  · split <;> rfl

end Turns

/-! ## Runs -/

section Runs

variable {K : Kernel} [Inhabited K.Uri] {config : ProbeConfig} {marker : Marker}
  {past : List (Duration × Input)} {input : Duration × Input}

theorem CleanupsHeard.mono {pending pending' : Option Nat → Prop}
    (heard : CleanupsHeard K config marker past pending)
    (weaker : ∀ number, pending number → pending' number) :
    CleanupsHeard K config marker past pending' := by
  intro earlier cause later split step waiting sends
  exact (heard earlier cause later split step waiting sends).imp_right (weaker _)

/-- One more turn: what was pending is pending still, or it is answered now, and what is
new is pending. -/
theorem CleanupsHeard.concat {pending pending' : Option Nat → Prop}
    (heard : CleanupsHeard K config marker past pending)
    (old : ∀ number, pending number → pending' number ∨
      ∃ response ∈ input.2.answer, isSuccess response.status = true ∧
        cseqNumber response.headers = number)
    (new : ∀ step, ((machine K).after (new config marker) (past ++ [input])).waiting =
        .cleanup step →
      pending' ((machine K).after (new config marker) (past ++ [input])).outstandingCseq) :
    CleanupsHeard K config marker (past ++ [input]) pending' := by
  intro earlier cause later split step waiting sends
  rcases Reactive.Machine.concat_eq_append_cons split with ⟨rfl, rfl, rfl⟩ | ⟨between, rfl, rfl⟩
  · exact .inr (new step waiting)
  · have responses : responsesOf (between ++ [input]) =
        responsesOf between ++ input.2.answer.toList := by
      rw [responsesOf, List.filterMap_append, responsesOf]
      cases answered : input.2.answer <;> simp [answered]
    rw [responses]
    rcases heard earlier cause between rfl step waiting sends with
      ⟨response, member, success, numbered⟩ | waits
    · exact .inl ⟨response, List.mem_append_left _ member, success, numbered⟩
    · rcases old _ waits with still | ⟨response, member, success, numbered⟩
      · exact .inr still
      · exact .inl ⟨response, List.mem_append_right _ (Option.mem_toList.mpr member), success,
          numbered⟩

/-- The cleanup requests of a run that has emitted nothing of them yet are all heard. -/
theorem cleanupsHeard_nil (pending : Option Nat → Prop) :
    CleanupsHeard K config marker [] pending := by
  intro earlier cause later split
  simp at split

/-- The number of the cleanup a run waits for. -/
def Pending (engine : ProbeEngine) (number : Option Nat) : Prop :=
  (∃ step, engine.waiting = .cleanup step) ∧ number = engine.outstandingCseq

/-- What is known of a run so far. -/
inductive Known (K : Kernel) [Inhabited K.Uri] (config : ProbeConfig) (marker : Marker)
    (past : List (Duration × Input)) : Prop where
  | running (none : ∀ run, .finish run ∉ (machine K).emitted (new config marker) past)
      (isMarker : ((machine K).after (new config marker) past).marker = marker)
      (unfinished : ((machine K).after (new config marker) past).state.finished = false)
      (stage : Stage (Reactive.Machine.Happened (Marked K config marker) past)
        (fun step => Reactive.Machine.Happened (AnswersChallenge K config marker step) past)
        ((machine K).after (new config marker) past))
      (heard : ((machine K).after (new config marker) past).state.cleanupFailed = true ∨
        CleanupsHeard K config marker past (Pending ((machine K).after (new config marker) past)))
  | ended {last : ProbeRun}
      (waiting : ((machine K).after (new config marker) past).waiting = .nothing)
      (finished : ((machine K).after (new config marker) past).state.finished = true)
      (only : ∀ run, .finish run ∈ (machine K).emitted (new config marker) past → run = last)
      (decided : ((machine K).after (new config marker) past).decided = some last.verdict)
      (shape : Shape (Reactive.Machine.Happened (Marked K config marker) past)
        (fun step => Reactive.Machine.Happened (AnswersChallenge K config marker step) past)
        last.verdict last.steps)
      (heard : last.cleanupFailed = true ∨ CleanupsHeard K config marker past fun _ => False)

/-- A turn of a run that goes on. -/
theorem known_concat (none : ∀ run, .finish run ∉ (machine K).emitted (new config marker) past)
    (leaves : Leaves marker
      (Reactive.Machine.Happened (Marked K config marker) (past ++ [input]))
      (fun step =>
        Reactive.Machine.Happened (AnswersChallenge K config marker step) (past ++ [input]))
      (machine K ((machine K).after (new config marker) past) input))
    (heard : ((machine K).after (new config marker) (past ++ [input])).state.cleanupFailed = true ∨
      CleanupsHeard K config marker (past ++ [input])
        (Pending ((machine K).after (new config marker) (past ++ [input])))) :
    Known K config marker (past ++ [input]) := by
  have now : (machine K).after (new config marker) (past ++ [input]) =
      (machine K ((machine K).after (new config marker) past) input).1 :=
    Reactive.Machine.after_concat _ _ _ _
  have emits : ∀ run, .finish run ∈ (machine K).emitted (new config marker) (past ++ [input]) →
      .finish run ∈ (machine K ((machine K).after (new config marker) past) input).2 := by
    intro run member
    rw [Reactive.Machine.emitted_concat] at member
    exact (List.mem_append.mp member).resolve_left (none run)
  rcases leaves with ⟨isMarker, unfinished, noneNow, stage⟩ |
    ⟨waiting, finished, only, decided, shape, cleanupFailed⟩
  · rw [← now] at isMarker unfinished stage
    exact .running (fun run member => noneNow run (emits run member)) isMarker unfinished stage heard
  · rw [← now] at waiting finished decided cleanupFailed
    refine .ended waiting finished (fun run member => only run (emits run member)) decided shape ?_
    rw [cleanupFailed]
    apply heard.imp_right
    intro heard
    apply heard.mono
    rintro number ⟨⟨step, cleaning⟩, -⟩
    rw [waiting] at cleaning
    contradiction

theorem happened_concat {event : List (Duration × Input) → Duration × Input → Prop}
    (happened : Reactive.Machine.Happened event past) :
    Reactive.Machine.Happened event (past ++ [input]) :=
  Reactive.Machine.happened_concat_iff.mpr (.inl happened)

/-- Nothing is pending in a run that does not clean up. -/
theorem heard_of_planned
    (noCleanup : ((machine K).after (new config marker) past).state.cleanupFailed = false)
    (notCleaning : ∀ step, ((machine K).after (new config marker) past).waiting ≠ .cleanup step)
    (heard : ((machine K).after (new config marker) past).state.cleanupFailed = true ∨
      CleanupsHeard K config marker past (Pending ((machine K).after (new config marker) past))) :
    CleanupsHeard K config marker (past ++ [input])
      (Pending ((machine K).after (new config marker) (past ++ [input]))) := by
  rcases heard with failed | heard
  · rw [noCleanup] at failed
    contradiction
  · apply heard.concat
    · rintro number ⟨⟨step, cleaning⟩, -⟩
      exact absurd cleaning (notCleaning step)
    · intro step cleaning
      exact ⟨⟨step, cleaning⟩, rfl⟩

theorem mem_answer {input : Input} {response : Response} :
    response ∈ input.answer ↔ input = .response response := by
  cases input <;> simp [Input.answer, eq_comm]

theorem known_planned {step : Step}
    (none : ∀ run, .finish run ∉ (machine K).emitted (new config marker) past)
    (plans : Plans marker (Reactive.Machine.Happened (Marked K config marker) past)
      ((machine K).after (new config marker) past) step)
    (heard : ((machine K).after (new config marker) past).state.cleanupFailed = true ∨
      CleanupsHeard K config marker past (Pending ((machine K).after (new config marker) past)))
    (notStart : input.2 ≠ .start) (sharp : ¬ Blurs K config marker past input.2) :
    Known K config marker (past ++ [input]) := by
  apply known_concat none
  · have later : Plans marker (Reactive.Machine.Happened (Marked K config marker) (past ++ [input]))
        ((machine K).after (new config marker) past) step :=
      ⟨plans.isMarker, plans.unfinished, plans.waiting, plans.recorded, plans.undecided,
        plans.noCleanup, fun isBye => happened_concat (plans.reflected isBye)⟩
    apply leaves_planned later input.1 notStart
    · intro response answers correlates challenge answered
      rw [mem_answer] at answers
      apply happened_concat
      by_contra other
      exact sharp (answers ▸ .challenged plans.waiting correlates challenge answered other)
    · rintro response answers correlates success rfl
      have isMarked : Marker.of response.headers = some marker := by
        by_contra unmarked
        rw [mem_answer] at answers
        exact sharp (answers ▸ .foreign plans.waiting correlates success unmarked)
      refine ⟨Reactive.Machine.happened_concat_iff.mpr (.inr ?_), isMarked⟩
      exact ⟨plans.waiting, response, answers, correlates, success, isMarked⟩
  · right
    apply heard_of_planned plans.noCleanup _ heard
    intro other cleaning
    rw [plans.waiting] at cleaning
    contradiction

theorem known_cleaning {step : Step} {verdict : Verdict} {number : Nat}
    (none : ∀ run, .finish run ∉ (machine K).emitted (new config marker) past)
    (isMarker : ((machine K).after (new config marker) past).marker = marker)
    (unfinished : ((machine K).after (new config marker) past).state.finished = false)
    (waiting : ((machine K).after (new config marker) past).waiting = .cleanup step)
    (decided : ((machine K).after (new config marker) past).decided = some verdict)
    (shape : Shape (Reactive.Machine.Happened (Marked K config marker) past)
      (fun step => Reactive.Machine.Happened (AnswersChallenge K config marker step) past)
      verdict ((machine K).after (new config marker) past).steps)
    (outstanding : ((machine K).after (new config marker) past).outstandingCseq = some number)
    (heard : ((machine K).after (new config marker) past).state.cleanupFailed = true ∨
      CleanupsHeard K config marker past (Pending ((machine K).after (new config marker) past)))
    (notStart : input.2 ≠ .start) (sharp : ¬ Blurs K config marker past input.2) :
    Known K config marker (past ++ [input]) := by
  have notCancelled : input.2 ≠ .cancelled :=
    fun same => sharp (same ▸ .cancelled waiting)
  have resource : input.2 ≠ .localResourceUnavailable :=
    fun same => sharp (same ▸ .noResource waiting)
  have later : Shape (Reactive.Machine.Happened (Marked K config marker) (past ++ [input]))
      (fun step =>
        Reactive.Machine.Happened (AnswersChallenge K config marker step) (past ++ [input]))
      verdict ((machine K).after (new config marker) past).steps :=
    shape.mono happened_concat fun step => happened_concat
  have turn : (machine K) ((machine K).after (new config marker) past) input =
      ((machine K).after (new config marker) past).onInput K input.1 input.2 := rfl
  have new : ∀ step, ((machine K).after (new config marker) (past ++ [input])).waiting =
      .cleanup step → Pending ((machine K).after (new config marker) (past ++ [input]))
        ((machine K).after (new config marker) (past ++ [input])).outstandingCseq :=
    fun step cleaning => ⟨⟨step, cleaning⟩, rfl⟩
  rcases cleaning_turn (K := K) unfinished waiting outstanding input.1 notStart notCancelled
      resource with inert | ⟨source, after, sameMarker, steps, sameVerdict, unended, outcome⟩
  · rw [← turn] at inert
    apply known_concat none
    · rw [inert]
      exact .goesOn isMarker unfinished (by simp) (.cleaning waiting decided later outstanding)
    · rw [Reactive.Machine.after_concat, inert]
      apply heard.imp_right
      intro heard
      apply heard.concat
      · intro number pending
        exact .inl pending
      · intro other cleaning
        rw [Reactive.Machine.after_concat, inert]
        exact ⟨⟨step, waiting⟩, rfl⟩
  · rw [← turn] at after
    apply known_concat none
    · rw [after]
      apply Leaves.clears
      apply leaves_cleanup
      · exact sameMarker.trans isMarker
      · exact unended
      · exact sameVerdict.trans decided
      · simpa only [steps] using later
    · have cleanups : ((machine K).after (ProbeEngine.new config marker)
          (past ++ [input])).state.cleanupFailed = source.state.cleanupFailed := by
        rw [Reactive.Machine.after_concat, after]
        exact cleanupFailed_cleanup _
      rw [cleanups]
      rcases outcome with failed | ⟨same, response, answers, success, numbered⟩
      · exact .inl failed
      · rw [same]
        apply heard.imp_right
        intro heard
        apply heard.concat
        · rintro _ ⟨-, rfl⟩
          exact .inr ⟨response, answers, success, numbered.trans outstanding.symm⟩
        · exact new

/-- A turn that does not blur a run keeps what is known of it. -/
theorem known_turn (known : Known K config marker past) (notStart : input.2 ≠ .start)
    (sharp : ¬ Blurs K config marker past input.2) : Known K config marker (past ++ [input]) := by
  cases known with
  | running none isMarker unfinished stage heard =>
      cases stage with
      | planned waiting recorded undecided noCleanup reflected =>
          exact known_planned none ⟨isMarker, unfinished, waiting, recorded, undecided, noCleanup,
            reflected⟩ heard notStart sharp
      | idle waiting recorded undecided noCleanup =>
          apply known_concat none
          · exact leaves_idle isMarker unfinished waiting recorded undecided noCleanup input.1
              notStart
          · right
            apply heard_of_planned noCleanup _ heard
            intro step cleaning
            rw [waiting] at cleaning
            contradiction
      | cleaning waiting decided shape outstanding =>
          exact known_cleaning none isMarker unfinished waiting decided shape outstanding heard
            notStart sharp
  | @ended last waiting finished only decided shape heard =>
      have inert := machine_of_finished (K := K) finished input
      have same : (machine K).after (new config marker) (past ++ [input]) =
          (machine K).after (new config marker) past := by
        rw [Reactive.Machine.after_concat, inert]
      refine @Known.ended _ _ _ _ _ last ?_ ?_ ?_ ?_ ?_ ?_
      · rw [same, waiting]
      · rw [same, finished]
      · intro run member
        rw [Reactive.Machine.emitted_concat, inert, List.append_nil] at member
        exact only run member
      · rw [same, decided]
      · exact shape.mono happened_concat fun step => happened_concat
      · apply heard.imp_right
        intro heard
        apply heard.concat
        · intro number pending
          exact pending.elim
        · intro step cleaning
          rw [same, waiting] at cleaning
          contradiction

theorem known_start (config : ProbeConfig) (marker : Marker) (first : Duration) :
    Known K config marker [(first, .start)] := by
  have silent : ∀ run, .finish run ∉ (machine K).emitted (new config marker) [] := by
    simp
  change Known K config marker ([] ++ [(first, .start)])
  apply known_concat silent
  · change Leaves marker _ _ (({ new config marker with now := first } : ProbeEngine).start K)
    unfold start
    split
    · simp only [abandon, waiting_decide]
      apply leaves_cleanup
      · rw [marker_decide]
        rfl
      · rw [state_decide]
        rfl
      · exact decided_decide rfl
      · rw [steps_decide]
        exact fun isPlan => List.cons_ne_nil _ _ isPlan.symm
    · have plans : Plans marker
          (Reactive.Machine.Happened (Marked K config marker) ([] ++ [(first, .start)]))
          (({ new config marker with now := first } : ProbeEngine).begin .resolve) .resolve :=
        ⟨rfl, rfl, rfl, rfl, rfl, rfl, by simp⟩
      exact plans.goesOn (by simp)
  · right
    apply heard_of_planned
    · rfl
    · simp [new]
    · exact .inr (cleanupsHeard_nil _)

/-- A verdict outlives a turn that does not blur the run. -/
theorem decided_turn (known : Known K config marker past) (notStart : input.2 ≠ .start)
    (sharp : ¬ Blurs K config marker past input.2) {verdict : Verdict}
    (decided : ((machine K).after (new config marker) past).decided = some verdict) :
    ((machine K).after (new config marker) (past ++ [input])).decided = some verdict := by
  rw [Reactive.Machine.after_concat]
  cases known with
  | running none isMarker unfinished stage heard =>
      cases stage with
      | planned waiting recorded undecided noCleanup reflected =>
          rw [undecided] at decided
          contradiction
      | idle waiting recorded undecided noCleanup =>
          rw [undecided] at decided
          contradiction
      | cleaning waiting _ shape outstanding =>
          have notCancelled : input.2 ≠ .cancelled :=
            fun same => sharp (same ▸ .cancelled waiting)
          have resource : input.2 ≠ .localResourceUnavailable :=
            fun same => sharp (same ▸ .noResource waiting)
          change (onInput K _ input.1 input.2).1.decided = some verdict
          rcases cleaning_turn (K := K) unfinished waiting outstanding input.1 notStart
              notCancelled resource with inert | ⟨source, after, -, -, same, -⟩
          · rw [inert]
            exact decided
          · rw [after, afterCleanup]
            simp only
            rw [decided_cleanup, same, decided]
  | ended waiting finished only _ shape heard =>
      rw [machine_of_finished finished]
      exact decided

/-- The record of a failed run is what it did up to the step that failed. -/
theorem exists_of_record {steps : List StepOutcome} {step : Step}
    (recorded : record steps = succeeded step.before ++ [(step, false)]) :
    ∃ earlier last, steps = earlier ++ [last] ∧ last.step = step ∧ last.succeeded = false ∧
      (∀ outcome ∈ earlier, outcome.succeeded = true) ∧
        steps.map StepOutcome.step <+: plan := by
  obtain ⟨earlier, final, rfl, isEarlier, isFinal⟩ := List.map_eq_append_iff.mp recorded
  obtain ⟨last, rfl, isLast⟩ := List.map_eq_singleton_iff.mp isFinal
  obtain ⟨isStep, failed⟩ := Prod.mk.inj isLast
  refine ⟨earlier, last, rfl, isStep, failed, ?_, ?_⟩
  · intro outcome member
    have named : (outcome.step, outcome.succeeded) ∈ succeeded step.before := by
      rw [← isEarlier]
      exact List.mem_map_of_mem member
    obtain ⟨_, -, same⟩ := List.mem_map.mp named
    exact (Prod.mk.inj same).2.symm
  · have names : (earlier ++ [last]).map StepOutcome.step = step.before ++ [step] := by
      have first := congrArg (List.map Prod.fst) recorded
      simpa [record, succeeded, Function.comp_def] using first
    rw [names]
    exact before_prefix_plan step

/-- What a run of this shape concludes is what it recorded. -/
theorem pass_iff_of_shape {marked : Prop} {answered : Step → Prop} {verdict : Verdict}
    {steps : List StepOutcome} (shape : Shape marked answered verdict steps) :
    verdict = .pass ↔ record steps = succeeded plan ∧ marked := by
  constructor
  · rintro rfl
    exact shape
  · rintro ⟨isPlan, -⟩
    cases verdict with
    | pass => rfl
    | fail step cause =>
        have failed : (step, false) ∈ record steps := by
          rw [shape.1]
          simp
        rw [isPlan] at failed
        exact absurd failed (not_mem_succeeded step plan)
    | inconclusive fault => exact absurd isPlan shape

theorem Known.sound {inputs : List (Duration × Input)} (known : Known K config marker inputs)
    {run : ProbeRun} (finishes : .finish run ∈ (machine K).emitted (new config marker) inputs) :
    Sound K config marker inputs run ∧
      ((machine K).after (new config marker) inputs).decided = some run.verdict := by
  cases known with
  | running none => exact absurd finishes (none run)
  | @ended last waiting finished only decided shape heard =>
      obtain rfl := only run finishes
      refine ⟨⟨pass_iff_of_shape shape, ?_, ?_, ?_⟩, decided⟩
      · intro step cause isFail
        rw [isFail] at shape
        exact exists_of_record shape.1
      · intro step status isFail challenge
        rw [isFail] at shape
        exact shape.2 status rfl challenge
      · intro noFailure
        rcases heard with failed | heard
        · rw [noFailure] at failed
          contradiction
        · exact heard

/-- What is known of a run, if no turn blurs it. -/
theorem known_run {first : Duration} {rest : List (Duration × Input)}
    (once : ∀ input ∈ rest, input.2 ≠ .start)
    (sharp : ∀ past input later, (first, .start) :: rest = past ++ input :: later →
      ¬ Blurs K config marker past input.2) :
    Known K config marker ((first, .start) :: rest) := by
  induction rest using List.reverseRecOn with
  | nil => exact known_start config marker first
  | append_singleton past input ih =>
      rw [← List.cons_append]
      apply known_turn
      · apply ih (fun earlier member => once earlier (List.mem_append_left _ member))
        intro earlier next later split
        apply sharp earlier next (later ++ [input])
        rw [← List.cons_append, split]
        simp
      · exact once input (by simp)
      · exact sharp _ input [] rfl

/-- A run is sound if no turn blurs it. -/
theorem verdictSound_of_sharp {first : Duration} {rest : List (Duration × Input)}
    (once : ∀ input ∈ rest, input.2 ≠ .start)
    (sharp : ∀ past input later, (first, .start) :: rest = past ++ input :: later →
      ¬ Blurs K config marker past input.2) :
    VerdictSound K config marker ((first, .start) :: rest) := by
  have known := known_run once sharp
  have lasting : ∀ past later, (first, Input.start) :: rest = past ++ later → ∀ verdict,
      ((machine K).after (new config marker) past).decided = some verdict →
        ((machine K).after (new config marker) ((first, .start) :: rest)).decided =
          some verdict := by
    intro past later split verdict decided
    induction later generalizing past with
    | nil =>
        rw [split, List.append_nil]
        exact decided
    | cons next later ih =>
        apply ih (past ++ [next]) (by rw [split]; simp)
        rcases past with _ | ⟨start, past⟩
        · contradiction
        · obtain ⟨rfl, rfl⟩ := List.cons.inj split
          apply decided_turn _ (once next (by simp)) (sharp _ next later rfl) decided
          apply known_run
          · intro input member
            exact once input (List.mem_append_left _ member)
          · intro earlier input between split
            apply sharp earlier input (between ++ next :: later)
            change ((first, Input.start) :: past) ++ next :: later = _
            rw [split]
            simp
  constructor
  · intro run finishes
    exact (known.sound finishes).1
  · intro past later verdict split decided
    have still := lasting past later split verdict decided
    refine ⟨still, fun run finishes => ?_⟩
    exact Option.some.inj ((known.sound finishes).2.symm.trans still)

end Runs

/-! ## Runs on fixed inputs -/

/-- A `401` to the request of this sequence number. -/
def challengeTo (number : Nat) : Response where
  status := ⟨401, by decide⟩
  reason := text "Unauthorized"
  headers := [⟨.cSeq, utf8 (decimal number ++ text " REGISTER")⟩]
  body := []

/-- Called, and answered by something that does not reflect the marker. -/
def foreignAnswer : List (Duration × Input) :=
  [(0, .start), (1, .resolved (.ok ())), (2, .response (okTo 1)), (3, .response (okTo 2)),
    (4, .response (okTo 3)), (5, .response (okTo 4))]

/-- Challenged when it registers, and again when it calls. -/
def challengedTwice : List (Duration × Input) :=
  [(0, .start), (1, .resolved (.ok ())), (2, .response (challengeTo 1)), (3, .response (okTo 2)),
    (4, .response (challengeTo 3)), (5, .response (okTo 4))]

/-- Cancelled while its call rings, and again while it cleans up. -/
def cancelledTwice : List (Duration × Input) :=
  cancelledCall ++ [(4, .cancelled)]

theorem not_verdictSound_foreign :
    ¬ VerdictSound Reference.kernel sampleConfig ⟨text "m"⟩ foreignAnswer := by
  intro sound
  have finishes : Effect.finish
      { marker := ⟨text "m"⟩
        target := sampleConfig.target
        steps := [⟨.resolve, true, 1⟩, ⟨.register, true, 1⟩, ⟨.invite, true, 1⟩]
        verdict := .fail .invite .markerMismatch
        cleanupFailed := false } ∈
      (machine Reference.kernel).emitted (new sampleConfig ⟨text "m"⟩) foreignAnswer :=
    List.mem_of_getElem? (i := 15) rfl
  obtain ⟨earlier, last, isSteps, -, failed, -⟩ := (sound.sound _ finishes).fail _ _ rfl
  have isLast := congrArg List.getLast? isSteps
  rw [List.getLast?_append] at isLast
  cases isLast
  contradiction

/-- The place of an input in a run. -/
theorem eq_take_of_split {inputs past later : List (Duration × Input)} {input : Duration × Input}
    (split : inputs = past ++ input :: later) :
    past.length < inputs.length ∧ past = inputs.take past.length ∧
      past ++ [input] = inputs.take (past.length + 1) := by
  subst split
  simp [List.take_append]

theorem not_verdictSound_challenged :
    ¬ VerdictSound Reference.kernel sampleConfig ⟨text "m"⟩ challengedTwice := by
  intro sound
  have finishes : Effect.finish
      { marker := ⟨text "m"⟩
        target := sampleConfig.target
        steps := [⟨.resolve, true, 1⟩, ⟨.register, true, 2⟩, ⟨.invite, false, 1⟩]
        verdict := .fail .invite (.rejected 401)
        cleanupFailed := false } ∈
      (machine Reference.kernel).emitted (new sampleConfig ⟨text "m"⟩) challengedTwice :=
    List.mem_of_getElem? (i := 13) rfl
  obtain ⟨past, input, later, split, waiting, -, still, -⟩ :=
    (sound.sound _ finishes).challenged .invite 401 rfl (.inl rfl)
  obtain ⟨place, isPast, isNext⟩ := eq_take_of_split split
  have moves : ∀ place < challengedTwice.length,
      ¬ (((machine Reference.kernel).after (new sampleConfig ⟨text "m"⟩)
          (challengedTwice.take place)).waiting = .step .invite ∧
        ((machine Reference.kernel).after (new sampleConfig ⟨text "m"⟩)
          (challengedTwice.take (place + 1))).waiting = .step .invite) := by
    decide +kernel
  rw [isPast] at waiting
  rw [isNext] at still
  exact moves past.length place ⟨waiting, still⟩

theorem not_verdictSound_cancelled :
    ¬ VerdictSound Reference.kernel sampleConfig ⟨text "m"⟩ cancelledTwice := by
  intro sound
  have finishes : Effect.finish
      { marker := ⟨text "m"⟩
        target := sampleConfig.target
        steps := [⟨.resolve, true, 1⟩, ⟨.register, true, 1⟩, ⟨.invite, false, 1⟩]
        verdict := .inconclusive .cancelled
        cleanupFailed := false } ∈
      (machine Reference.kernel).emitted (new sampleConfig ⟨text "m"⟩) cancelledTwice :=
    List.mem_of_getElem? (i := 11) rfl
  have split : cancelledTwice = cancelledCall.take 3 ++ (3, .cancelled) :: [(4, .cancelled)] := rfl
  have sends : requestsOf (machine Reference.kernel ((machine Reference.kernel).after
      (new sampleConfig ⟨text "m"⟩) (cancelledCall.take 3)) (3, .cancelled)).2 ≠ [] :=
    List.cons_ne_nil _ _
  rcases (sound.sound _ finishes).cleaned rfl _ _ _ split .register rfl sends with
    ⟨response, member, -⟩ | ⟨⟨⟩⟩
  contradiction

/-- A foreign answer is recorded as a success and judged a failure, a second step is failed
at its first challenge, and a cleanup nobody answered is not said to have failed. -/
theorem not_verdictSound :
    ¬ (∀ inputs, (∃ now, inputs.head? = some (now, .start)) →
      (∀ input ∈ inputs.tail, input.2 ≠ .start) →
        VerdictSound Reference.kernel sampleConfig ⟨text "m"⟩ inputs) ∧
    ¬ VerdictSound Reference.kernel sampleConfig ⟨text "m"⟩ foreignAnswer ∧
    ¬ VerdictSound Reference.kernel sampleConfig ⟨text "m"⟩ challengedTwice ∧
    ¬ VerdictSound Reference.kernel sampleConfig ⟨text "m"⟩ cancelledTwice := by
  refine ⟨?_, not_verdictSound_foreign, not_verdictSound_challenged, not_verdictSound_cancelled⟩
  intro sound
  apply not_verdictSound_foreign
  apply sound
  · exact ⟨0, rfl⟩
  · simp [foreignAnswer]

/-- Challenged when it registers, and challenged again. -/
def refusedRegistration : List (Duration × Input) :=
  [(0, .start), (1, .resolved (.ok ())), (2, .response (challengeTo 1)),
    (3, .response (challengeTo 2))]

/-- A run whose one step is challenged twice is judged soundly. -/
theorem verdictSound_refused :
    VerdictSound Reference.kernel sampleConfig ⟨text "m"⟩ refusedRegistration := by
  have answered : Reactive.Machine.Happened
      (AnswersChallenge Reference.kernel sampleConfig ⟨text "m"⟩ .register)
      (refusedRegistration.take 3) :=
    ⟨refusedRegistration.take 2, (2, .response (challengeTo 1)), [], rfl, rfl,
      ⟨challengeTo 1, rfl, .inl rfl, by decide +kernel⟩, rfl, List.cons_ne_nil _ _⟩
  have notCall : ∀ place < refusedRegistration.length,
      ((machine Reference.kernel).after (new sampleConfig ⟨text "m"⟩)
        (refusedRegistration.take place)).waiting ≠ .step .invite := by
    decide +kernel
  have unanswered : ∀ place < 3, ((machine Reference.kernel).after (new sampleConfig ⟨text "m"⟩)
      (refusedRegistration.take place)).state.answeredChallenge = false := by
    decide +kernel
  have registering : ((machine Reference.kernel).after (new sampleConfig ⟨text "m"⟩)
      (refusedRegistration.take 3)).waiting = .step .register := rfl
  refine verdictSound_of_sharp (by simp) ?_
  intro past input later split blurs
  change refusedRegistration = _ at split
  obtain ⟨place, isPast, -⟩ := eq_take_of_split split
  have isMember : input ∈ refusedRegistration := by
    rw [split]
    simp
  rw [isPast] at blurs
  generalize isInput : input.2 = given at blurs
  rcases blurs with ⟨waiting, -⟩ | ⟨waiting, -, -, again, other⟩ | - | -
  · exact notCall _ place waiting
  · by_cases early : past.length < 3
    · rw [unanswered _ early] at again
      contradiction
    · have isThird : past.length = 3 := by
        simp only [refusedRegistration, List.length_cons, List.length_nil] at place
        omega
      rw [isThird] at waiting other
      rw [registering] at waiting
      cases waiting
      exact other answered
  all_goals
    simp only [refusedRegistration, List.mem_cons, List.not_mem_nil, or_false] at isMember
    rcases isMember with rfl | rfl | rfl | rfl <;> contradiction

end ProbeEngine

end SipxClstr.Probe
