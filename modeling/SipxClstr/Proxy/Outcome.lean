import SipxClstr.Proxy.Context

/-!
# How handlers end

The tails the handlers share: a local answer, the fork of a group, and
selection.  Each is described by the context it leaves and by the responses,
cancellations and branches among its effects.
-/

namespace SipxClstr.Proxy

open SipxClstr.Sip ResponseContext

/-! ## Settling -/

section Settling

variable {Uri : Type}

theorem pendingBranchIds_eq_nil {context : ResponseContext Uri}
    (settled : context.hasPending = false) : context.pendingBranchIds = [] := by
  simp only [hasPending, List.any_eq_false] at settled
  simp only [pendingBranchIds, List.map_eq_nil_iff, List.filter_eq_nil_iff]
  intro entry member pending
  apply settled entry member
  cases state : entry.state <;> simp_all [BranchState.isPending, BranchState.isOutstanding]

/-- With nothing outstanding there is nothing to cancel. -/
theorem cancelPending_of_settled {context : ResponseContext Uri}
    (settled : context.hasPending = false) : context.cancelPending = (context, []) := by
  simp [cancelPending, pendingBranchIds_eq_nil settled]

/-- A context with no queue ends exactly when nothing is outstanding. -/
theorem finishIfSettled_of_queued_nil {context : ResponseContext Uri}
    (noQueue : context.queued = []) :
    context.finishIfSettled =
      if context.hasPending then (context, [])
      else ({ context with finished := true }, [.terminate]) := by
  simp [finishIfSettled, mayForkNextGroup, noQueue]

theorem finishIfSettled_of_answered {context : ResponseContext Uri}
    (settled : context.hasPending = false) (answered : context.answered = true) :
    context.finishIfSettled = ({ context with finished := true }, [.terminate]) := by
  simp [finishIfSettled, settled, mayForkNextGroup, answered]

end Settling

variable {K : Kernel}

theorem buildResponse_eq_some {request : Request K.Uri} {status : Nat} {reason : Text}
    {response : Response} (built : buildResponse K request status reason = some response) :
    ∃ code, StatusCode.new status = some code ∧ K.toRequest request code reason = some response := by
  simpa [buildResponse, Option.bind_eq_some_iff] using built

/-- The context a local answer leaves, whether or not the answer could be built. -/
theorem respondAndFinish_fst (context : ResponseContext K.Uri) (request : Request K.Uri)
    (status : Nat) (reason : Text) :
    (respondAndFinish K context request status reason).1 =
      { context with answered := true, finished := true } := by
  unfold respondAndFinish
  split <;> rfl

theorem answers_respondAndFinish (context : ResponseContext K.Uri) (request : Request K.Uri)
    (status : Nat) (reason : Text) :
    answers (respondAndFinish K context request status reason).2 =
      (buildResponse K request status reason).toList := by
  unfold respondAndFinish
  split
  · next response built => simp [built]
  · next unbuilt => simp [unbuilt]

theorem cancels_respondAndFinish (context : ResponseContext K.Uri) (request : Request K.Uri)
    (status : Nat) (reason : Text) :
    cancels (respondAndFinish K context request status reason).2 =
      if (buildResponse K request status reason).isSome then context.pendingBranchIds else [] := by
  unfold respondAndFinish
  split
  · next response built =>
      have sameIds : ({ context with answered := true, finished := true } :
          ResponseContext K.Uri).pendingBranchIds = context.pendingBranchIds := rfl
      simp [built, sameIds]
  · next unbuilt => simp [unbuilt]

@[simp]
theorem launches_respondAndFinish (context : ResponseContext K.Uri) (request : Request K.Uri)
    (status : Nat) (reason : Text) :
    launches (respondAndFinish K context request status reason).2 = [] := by
  unfold respondAndFinish
  split <;> simp

@[simp]
theorem queries_respondAndFinish (context : ResponseContext K.Uri)
    (request : Request K.Uri) (status : Nat) (reason : Text) :
    queries (respondAndFinish K context request status reason).2 = [] := by
  unfold respondAndFinish
  split <;> simp

theorem refuse_fst (context : ResponseContext K.Uri) (request : Request K.Uri)
    (refusal : Refusal) :
    (refuse K context request refusal).1 = { context with finished := true } := by
  unfold refuse
  split <;> rfl

theorem refuse_effects (context : ResponseContext K.Uri) (request : Request K.Uri)
    (refusal : Refusal) :
    answers (refuse K context request refusal).2 = (refusalResponse K request refusal).toList ∧
      cancels (refuse K context request refusal).2 = [] ∧
        launches (refuse K context request refusal).2 = [] ∧
          queries (refuse K context request refusal).2 = [] := by
  unfold refuse
  split
  · next response built => simp [built]
  · next unbuilt => simp [unbuilt]

/-- Selection, once every branch has concluded: the context ends, and at most
one response goes out. -/
theorem selectAndAnswer_cases {context : ResponseContext K.Uri}
    (settled : context.hasPending = false) (request : Request K.Uri) :
    (context.answered = true ∧
        selectAndAnswer K context request = ({ context with finished := true }, [.terminate])) ∨
      (context.answered = false ∧
        selectAndAnswer K context request =
          respondAndFinish K context request 500 (text "Server Internal Error")) ∨
      (context.answered = false ∧ ∃ best response, context.bestFinal = some best ∧ best ≠ 503 ∧
        chosenFinal K context request best = some response ∧
          selectAndAnswer K context request =
            ({ context with answered := true, finished := true },
              [.respond (popVia response), .terminate])) := by
  unfold selectAndAnswer
  cases answered : context.answered with
  | true =>
      refine .inl ⟨rfl, ?_⟩
      rw [if_pos rfl, finishIfSettled_of_answered settled answered, answered]
  | false =>
      right
      simp only [Bool.false_eq_true, if_false, true_and]
      cases best : context.bestFinal with
      | none => exact .inl rfl
      | some status =>
          simp only
          by_cases unavailable : status = 503
          · exact .inl (by rw [if_pos unavailable])
          · rw [if_neg unavailable]
            cases chosen : chosenFinal K context request status with
            | none => exact .inl rfl
            | some response =>
                refine .inr ⟨status, response, rfl, unavailable, chosen, ?_⟩
                have settledAnswered : ({ context with answered := true } :
                    ResponseContext K.Uri).hasPending = false := settled
                simp [cancelPending_of_settled settledAnswered,
                  finishIfSettled_of_answered settledAnswered rfl]

/-! ## Forking -/

/-- Launching only forwards copies and arms timers, and it forwards exactly the
branches it records. -/
theorem launch_effects (config : ProxyConfig) (plan : Nat → Target → ForwardPlan K.Uri)
    (offset : Nat) (group : List Target) :
    answers (launch K config plan offset group).1 = [] ∧
      cancels (launch K config plan offset group).1 = [] ∧
        launches (launch K config plan offset group).1 =
            (launch K config plan offset group).2.map Branch.id ∧
          queries (launch K config plan offset group).1 = [] := by
  induction group generalizing offset with
  | nil => simp [launch]
  | cons target rest ih =>
      obtain ⟨noAnswer, noCancel, launched, noQuery⟩ := ih (offset + 1)
      unfold launch
      cases forward K (plan offset target) config with
      | error refused => exact ⟨noAnswer, noCancel, launched, noQuery⟩
      | ok copy =>
          obtain ⟨branch, forwarded, nextHop⟩ := copy
          by_cases isInvite : (plan offset target).original.method = .invite <;>
            simp [isInvite, noAnswer, noCancel, launched, noQuery]

/-- A launched branch is pending and has seen nothing. -/
theorem launch_pending (config : ProxyConfig) (plan : Nat → Target → ForwardPlan K.Uri)
    (offset : Nat) (group : List Target) :
    ∀ entry ∈ (launch K config plan offset group).2, entry.state = .pending false false := by
  induction group generalizing offset with
  | nil => simp [launch]
  | cons target rest ih =>
      unfold launch
      cases forward K (plan offset target) config with
      | error refused => exact ih (offset + 1)
      | ok copy =>
          intro entry member
          rcases List.mem_cons.mp member with isNew | later
          · rw [isNew]
          · exact ih (offset + 1) entry later

variable (K)

/-- The group the next fork takes from the queue. -/
def nextGroup (context : ResponseContext K.Uri) (validated : Validated) : List Target :=
  context.queued.take (groupSize context.queued validated.maxBreadth)

/-- The effects and the branches of the next group. -/
def launchGroup (context : ResponseContext K.Uri) (request : Request K.Uri)
    (validated : Validated) : List (Effect K.Uri) × List Branch :=
  launch K context.config
    (forkPlan K context request validated (nextGroup K context validated).length) 0
    (nextGroup K context validated)

@[simp]
theorem answers_launchGroup (context : ResponseContext K.Uri) (request : Request K.Uri)
    (validated : Validated) : answers (launchGroup K context request validated).1 = [] :=
  (launch_effects _ _ _ _).1

/-- The context after a group is taken and its branches recorded. -/
def forkedContext (context : ResponseContext K.Uri) (request : Request K.Uri)
    (validated : Validated) : ResponseContext K.Uri :=
  { context with
    queued := context.queued.drop (groupSize context.queued validated.maxBreadth)
    branches := context.branches ++ (launchGroup K context request validated).2 }

variable {K}

/-- Forking with a request and a queue: the group goes out, unless nothing ever
did and nothing is left, which is answered `480`. -/
theorem forkNextGroup_cases {context : ResponseContext K.Uri} {request : Request K.Uri}
    {validated : Validated} (requestEq : context.request = some request)
    (validatedEq : context.validated = some validated) (queued : context.queued ≠ []) :
    ((forkedContext K context request validated).branches = [] ∧
        (forkedContext K context request validated).queued = [] ∧
          forkNextGroup K context =
            respondAndFinish K (forkedContext K context request validated) request 480
              (text "Temporarily Unavailable")) ∨
      (¬ ((forkedContext K context request validated).branches = [] ∧
          (forkedContext K context request validated).queued = []) ∧
        forkNextGroup K context =
          (forkedContext K context request validated,
            (launchGroup K context request validated).1)) := by
  have unfolded : forkNextGroup K context =
      if (forkedContext K context request validated).branches.isEmpty &&
          (forkedContext K context request validated).queued.isEmpty then
        respondAndFinish K (forkedContext K context request validated) request 480
          (text "Temporarily Unavailable")
      else
        (forkedContext K context request validated,
          (launchGroup K context request validated).1) := by
    have notEmpty : context.queued.isEmpty = false := by simpa using queued
    simp only [forkNextGroup, requestEq, validatedEq, notEmpty, Bool.false_eq_true, if_false,
      forkedContext, launchGroup, nextGroup]
  by_cases exhausted : (forkedContext K context request validated).branches = [] ∧
      (forkedContext K context request validated).queued = []
  · exact .inl ⟨exhausted.1, exhausted.2, by simp [unfolded, exhausted.1, exhausted.2]⟩
  · refine .inr ⟨exhausted, ?_⟩
    rw [unfolded, if_neg]
    simpa using exhausted

/-! ## Provisionals -/

/-- The context a forwarded provisional leaves. -/
theorem forwardProvisional_fst (context : ResponseContext K.Uri) (request : Request K.Uri)
    (response : Response) (branch : BranchId) :
    (forwardProvisional K context request response branch).1 =
      if context.cancelOwed branch then (context.markProvisional branch).1.setCancelling branch
      else (context.markProvisional branch).1 := by
  cases owed : context.cancelOwed branch <;> simp [forwardProvisional, markProvisional, owed]

/-- A provisional goes upstream, and a CANCEL goes out exactly when one is owed. -/
theorem forwardProvisional_effects (context : ResponseContext K.Uri) (request : Request K.Uri)
    (response : Response) (branch : BranchId) :
    answers (forwardProvisional K context request response branch).2 = [popVia response] ∧
      cancels (forwardProvisional K context request response branch).2 =
          (if context.cancelOwed branch then [branch] else []) ∧
        launches (forwardProvisional K context request response branch).2 = [] ∧
          queries (forwardProvisional K context request response branch).2 = [] := by
  cases owed : context.cancelOwed branch <;> by_cases isInvite : request.method = .invite <;>
    simp [forwardProvisional, markProvisional, owed, isInvite]

/-! ## Tails -/

variable (K)

/-- How a step goes on from the context that holds its targets or its recorded
final: it waits, forks, answers or ends. -/
inductive Tail (context : ResponseContext K.Uri) (request : Request K.Uri) :
    Outcome K.Uri → Prop where
  | waits (pending : context.hasPending = true) : Tail context request (context, [])
  | forks (validated : Validated) (validatedEq : context.validated = some validated)
      (queued : context.queued ≠ [])
      (inFlight : ¬ ((forkedContext K context request validated).branches = [] ∧
        (forkedContext K context request validated).queued = [])) :
      Tail context request
        (forkedContext K context request validated, (launchGroup K context request validated).1)
  | exhausts (validated : Validated)
      (noBranches : (forkedContext K context request validated).branches = [])
      (noTargets : (forkedContext K context request validated).queued = []) :
      Tail context request
        (respondAndFinish K (forkedContext K context request validated) request 480
          (text "Temporarily Unavailable"))
  | fails (settled : context.hasPending = false) (unanswered : context.answered = false) :
      Tail context request
        (respondAndFinish K context request 500 (text "Server Internal Error"))
  | selects (best : Nat) (response : Response) (settled : context.hasPending = false)
      (noFork : context.mayForkNextGroup = false) (unanswered : context.answered = false)
      (bestEq : context.bestFinal = some best) (forwardable : best ≠ 503)
      (chosen : chosenFinal K context request best = some response) :
      Tail context request
        ({ context with answered := true, finished := true },
          [.respond (popVia response), .terminate])
  | ends (settled : context.hasPending = false) (answered : context.answered = true) :
      Tail context request ({ context with finished := true }, [.terminate])

variable {K}

theorem forkNextGroup_tail {context : ResponseContext K.Uri} {request : Request K.Uri}
    {validated : Validated} (requestEq : context.request = some request)
    (validatedEq : context.validated = some validated) (queued : context.queued ≠ []) :
    Tail K context request (forkNextGroup K context) := by
  rcases forkNextGroup_cases requestEq validatedEq queued with
    ⟨noBranches, noTargets, answered⟩ | ⟨inFlight, forked⟩
  · rw [answered]
    exact .exhausts validated noBranches noTargets
  · rw [forked]
    exact .forks validated validatedEq queued inFlight

theorem continueSelection_tail {context : ResponseContext K.Uri} {request : Request K.Uri}
    {validated : Validated} (requestEq : context.request = some request)
    (validatedEq : context.validated = some validated) :
    Tail K context request (continueSelection K context request) := by
  unfold continueSelection
  cases pending : context.hasPending with
  | true => exact .waits pending
  | false =>
      cases fork : context.mayForkNextGroup with
      | true =>
          have queued : context.queued ≠ [] := by
            intro empty
            simp [mayForkNextGroup, empty] at fork
          exact forkNextGroup_tail requestEq validatedEq queued
      | false =>
          simp only [Bool.false_eq_true, if_false]
          rcases selectAndAnswer_cases pending request with
            ⟨answered, selected⟩ | ⟨unanswered, selected⟩ |
              ⟨unanswered, best, response, bestEq, forwardable, chosen, selected⟩
          · rw [selected]
            exact .ends pending answered
          · rw [selected]
            exact .fails pending unanswered
          · rw [selected]
            exact .selects best response pending fork unanswered bestEq forwardable chosen

namespace Tail

variable {context : ResponseContext K.Uri} {request : Request K.Uri} {outcome : Outcome K.Uri}

/-- A tail keeps everything about the request. -/
theorem request_eq (tail : Tail K context request outcome) :
    outcome.1.config = context.config ∧ outcome.1.request = context.request ∧
      outcome.1.validated = context.validated ∧
        outcome.1.awaitingVerdict = context.awaitingVerdict := by
  cases tail <;> simp [respondAndFinish_fst, forkedContext]

theorem answered_mono (tail : Tail K context request outcome)
    (answered : context.answered = true) : outcome.1.answered = true := by
  cases tail <;> simp_all [respondAndFinish_fst, forkedContext]

theorem finished_mono (tail : Tail K context request outcome)
    (finished : context.finished = true) : outcome.1.finished = true := by
  cases tail <;> simp_all [respondAndFinish_fst, forkedContext]

/-- A tail records no final. -/
theorem finals_eq (tail : Tail K context request outcome) :
    outcome.1.finals = context.finals := by
  cases tail <;> simp [respondAndFinish_fst, forkedContext]

/-- A tail adds the branches it forwards, and leaves every other as it is. -/
theorem branches_eq (tail : Tail K context request outcome) :
    ∃ launched, outcome.1.branches = context.branches ++ launched ∧
      launches outcome.2 = launched.map Branch.id ∧
        ∀ entry ∈ launched, entry.state = .pending false false := by
  cases tail with
  | waits _ => exact ⟨[], by simp⟩
  | forks validated _ _ _ =>
      refine ⟨(launchGroup K context request validated).2, rfl, ?_, ?_⟩
      · exact (launch_effects _ _ _ _).2.2.1
      · exact launch_pending _ _ _ _
  | exhausts validated noBranches _ =>
      have none_launched := (List.append_eq_nil_iff.mp noBranches).2
      refine ⟨[], ?_, by simp, by simp⟩
      simp [respondAndFinish_fst, forkedContext, none_launched]
  | fails _ _ => exact ⟨[], by simp [respondAndFinish_fst]⟩
  | selects _ _ _ _ _ _ _ _ => exact ⟨[], by simp⟩
  | ends _ _ => exact ⟨[], by simp⟩

/-- A tail cancels nothing: it answers only when nothing is pending. -/
theorem cancels_eq_nil (tail : Tail K context request outcome) : cancels outcome.2 = [] := by
  cases tail with
  | waits _ => rfl
  | forks validated _ _ _ => exact (launch_effects _ _ _ _).2.1
  | exhausts validated noBranches _ =>
      have noIds : (forkedContext K context request validated).pendingBranchIds = [] := by
        simp [pendingBranchIds, noBranches]
      simp [cancels_respondAndFinish, noIds]
  | fails settled _ =>
      simp [cancels_respondAndFinish, pendingBranchIds_eq_nil settled]
  | selects _ _ _ _ _ _ _ _ => rfl
  | ends _ _ => rfl

end Tail

end SipxClstr.Proxy
