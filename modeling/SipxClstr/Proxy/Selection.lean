import SipxClstr.Proxy.Schedule
import Mathlib.Data.List.ReduceOption

/-!
# Choosing among the finals

What goes upstream when every branch has concluded.  The specified choice is a
function of the branches' outcomes, each the first conclusion of its branch; the
context chooses among every final it recorded, the `503`s and the repeated ones
included.
-/

namespace SipxClstr.Proxy

open SipxClstr.Sip ResponseContext Reactive Reactive.Machine

variable (K : Kernel)

/-! ## The specified choice -/

/-- The outcomes that may go upstream: a `503` never does. -/
def candidates (outcomes : List Nat) : List Nat :=
  outcomes.filter fun status => status ≠ 503

/-- The status specified for these outcomes: the best of those that are not
`503`, and `500` when there is none. -/
def selected (outcomes : List Nat) : Nat :=
  (bestStatus (candidates outcomes)).getD 500

/-- The status of the conclusion this input brings: a transport error is a `503`, a
branch never heard from a `408`. -/
def conclusionStatus : Input K.Uri → Option Nat
  | .branchResponse response _ => some response.status.code
  | .branchTransportError _ => some 503
  | .timerFired .c _ => some 408
  | _ => none

instance {Uri : Type} (context : ResponseContext Uri) (branch : BranchId) :
    Decidable (isLive context branch) :=
  inferInstanceAs (Decidable (∃ entry ∈ context.branches, _))

/-- The outcome this input brings: the status that concludes a branch owing its final. -/
def outcomeBy (context : ResponseContext K.Uri) (input : Input K.Uri) : Option Nat :=
  (concludedBy K context input).bind fun branch =>
    if isLive context branch then conclusionStatus K input else none

/-- The conclusion this input reports, whether or not its branch has concluded before. -/
def reportedBy (context : ResponseContext K.Uri) (input : Input K.Uri) : Option Nat :=
  if context.finished then
    none
  else
    (concludedBy K context input).bind fun branch =>
      if context.knows branch then conclusionStatus K input else none

/-- The first conclusion of each branch, in the order they were reported. -/
def outcomes (context : ResponseContext K.Uri) (inputs : List (Input K.Uri)) : List Nat :=
  (observed (onInput K) (outcomeBy K) context inputs).reduceOption

/-- Every conclusion reported before the context finished, repeated ones included. -/
def reports (context : ResponseContext K.Uri) (inputs : List (Input K.Uri)) : List Nat :=
  (observed (onInput K) (reportedBy K) context inputs).reduceOption

/-- The final responses sent upstream, by their status. -/
def finalStatuses {Uri : Type} (effects : List (Effect Uri)) : List Nat :=
  ((answers effects).map fun response => response.status.code).filter fun code => 200 ≤ code

/-- Whether this step forks, once a copy went out, what is left of the queue and no
copy of it can be built. -/
def forksNothingLast (context : ResponseContext K.Uri) (input : Input K.Uri) : Bool :=
  (forkedBy K context input).any fun (forking, _) =>
    !forking.branches.isEmpty && !(plansOf K context input).any (builds K context.config) &&
      (plansOf K context input).length = forking.queued.length

/-- Nothing reported ranks before the best outcome that may go upstream, nor before
`503` when there is none. -/
def RanksFirst (outcomes reports : List Nat) : Prop :=
  ∀ report ∈ reports,
    rankKey ((bestStatus (candidates outcomes)).getD 503) ≤ rankKey report

instance (outcomes reports : List Nat) : Decidable (RanksFirst outcomes reports) :=
  inferInstanceAs (Decidable (∀ _ ∈ _, _))

/-- Once a copy went out, every branch has concluded and nothing is queued, one final
response has been sent, of the status specified for the outcomes in any order. -/
structure SelectsFinal (config : ProxyConfig) (past events : List (Input K.Uri)) : Prop where
  status : copies (emitted (onInput K) (.new config) (past ++ events)) ≠ [] →
    inFlight K (after (onInput K) (.new config) past) events = [] →
      (after (onInput K) (.new config) (past ++ events)).queued = [] →
        finalStatuses (emitted (onInput K) (.new config) (past ++ events)) =
          [selected (outcomes K (after (onInput K) (.new config) past) events)]
  orderFree : ∀ order,
    order.Perm (outcomes K (after (onInput K) (.new config) past) events) →
      selected order = selected (outcomes K (after (onInput K) (.new config) past) events)

variable {K}

/-! ## The order of preference -/

theorem rankKey_injective : Function.Injective rankKey := by
  intro first second same
  have pair := congrArg (fun key => (ofLex (ofLex key).2).2) same
  exact pair

theorem bestStatus_eq_iff {statuses : List Nat} {best : Nat} :
    bestStatus statuses = some best ↔
      best ∈ statuses ∧ ∀ status ∈ statuses, rankKey best ≤ rankKey status := by
  constructor
  · intro chosen
    exact ⟨List.argmin_mem chosen, fun status member => List.le_of_mem_argmin member chosen⟩
  · rintro ⟨member, least⟩
    cases chosen : bestStatus statuses with
    | none =>
        rw [List.argmin_eq_none.mp chosen] at member
        contradiction
    | some found =>
        have below := List.le_of_mem_argmin member chosen
        have above := least found (List.argmin_mem chosen)
        rw [rankKey_injective (le_antisymm below above)]

/-- The choice does not depend on the order of the outcomes. -/
theorem selected_perm {first second : List Nat} (perm : first.Perm second) :
    selected first = selected second := by
  have same : bestStatus (candidates first) = bestStatus (candidates second) := by
    have members : ∀ status, status ∈ candidates first ↔ status ∈ candidates second := by
      intro status
      exact (perm.filter _).mem_iff
    apply Option.ext
    intro best
    rw [bestStatus_eq_iff, bestStatus_eq_iff, members]
    simp only [members]
  rw [selected, selected, same]

/-- What the context sends for the finals recorded. -/
def chosenStatus (recorded : List Nat) : Nat :=
  ((bestStatus recorded).filter fun best => best ≠ 503).getD 500

/-- When nothing reported ranks before the best outcome, the choice among the reports
is the choice among the outcomes. -/
theorem chosenStatus_of_ranksFirst {outcomes reports : List Nat} (subset : outcomes ⊆ reports)
    (heard : reports ≠ [] → outcomes ≠ []) (ranks : RanksFirst outcomes reports) :
    chosenStatus reports = selected outcomes := by
  cases best : bestStatus (candidates outcomes) with
  | some status =>
      obtain ⟨isCandidate, -⟩ := bestStatus_eq_iff.mp best
      obtain ⟨member, forwardable⟩ := List.mem_filter.mp isCandidate
      have bestReport : bestStatus reports = some status := by
        apply bestStatus_eq_iff.mpr
        refine ⟨subset member, fun report reported => ?_⟩
        have least := ranks report reported
        rwa [best] at least
      have kept : decide (status ≠ 503) = true := forwardable
      rw [chosenStatus, selected, best, bestReport, Option.filter_some, if_pos kept]
  | none =>
      -- Every outcome is a `503`, so the best report is one.
      have noCandidate : candidates outcomes = [] := List.argmin_eq_none.mp best
      have unavailable : ∀ status ∈ outcomes, status = 503 := by
        intro status member
        by_contra forwardable
        have candidate : status ∈ candidates outcomes :=
          List.mem_filter.mpr ⟨member, by simpa using forwardable⟩
        rw [noCandidate] at candidate
        contradiction
      rw [chosenStatus, selected, best]
      cases chosen : bestStatus reports with
      | none => rfl
      | some report =>
          obtain ⟨reported, least⟩ := bestStatus_eq_iff.mp chosen
          obtain ⟨status, member⟩ := List.exists_mem_of_ne_nil _ (heard (List.ne_nil_of_mem reported))
          have isUnavailable := unavailable status member
          subst isUnavailable
          have above := least 503 (subset member)
          have below := ranks report reported
          rw [best] at below
          have same : report = 503 := rankKey_injective (le_antisymm above below)
          rw [same]
          rfl

/-! ## Selection -/

theorem exists_buildResponse (responds : K.Responds) {request : Request K.Uri}
    (respondable : isRespondable K request = true) {status : Nat} {code : StatusCode}
    (isCode : StatusCode.new status = some code) (reason : Text) :
    ∃ response, buildResponse K request status reason = some response ∧
      response.status = code := by
  obtain ⟨response, built⟩ :=
    Option.isSome_iff_exists.mp (responds.answers request code reason respondable)
  refine ⟨response, ?_, responds.status _ _ _ _ built⟩
  simp [buildResponse, isCode, built]

/-- The response sent for the best of the finals recorded has its status. -/
theorem exists_chosenFinal (responds : K.Responds) {context : ResponseContext K.Uri}
    {request : Request K.Uri} (respondable : isRespondable K request = true) {best : Nat}
    (recorded : best ∈ context.finals.map fun response => response.status.code) :
    ∃ response, chosenFinal K context request best = some response ∧
      response.status.code = best := by
  by_cases challenge : best = 401 ∨ best = 407
  · rw [chosenFinal, if_pos challenge, aggregateChallenges]
    rcases challenge with rfl | rfl
    · obtain ⟨response, built, statusEq⟩ := exists_buildResponse responds respondable
        (show StatusCode.new 401 = some ⟨401, by decide⟩ from rfl) (text "Unauthorized")
      simp [built, statusEq]
    · obtain ⟨response, built, statusEq⟩ := exists_buildResponse responds respondable
        (show StatusCode.new 407 = some ⟨407, by decide⟩ from rfl)
        (text "Proxy Authentication Required")
      simp [built, statusEq]
  · rw [chosenFinal, if_neg challenge]
    obtain ⟨final, member, isBest⟩ := List.mem_map.mp recorded
    have found : (context.finals.find? fun final => final.status.code = best).isSome = true :=
      List.find?_isSome.mpr ⟨final, member, by simpa using isBest⟩
    obtain ⟨response, responseEq⟩ := Option.isSome_iff_exists.mp found
    exact ⟨response, responseEq, by simpa using List.find?_some responseEq⟩

@[simp]
theorem finalStatuses_append {Uri : Type} (first second : List (Effect Uri)) :
    finalStatuses (first ++ second) = finalStatuses first ++ finalStatuses second := by
  simp [finalStatuses]

theorem finalStatuses_of_answers_nil {Uri : Type} {effects : List (Effect Uri)}
    (silent : answers effects = []) : finalStatuses effects = [] := by
  simp [finalStatuses, silent]

theorem finalStatuses_eq_nil_iff {Uri : Type} {effects : List (Effect Uri)} :
    finalStatuses effects = [] ↔ ¬ ∃ response ∈ answers effects, 200 ≤ response.status.code := by
  simp [finalStatuses]

theorem finalStatuses_respondAndFinish (responds : K.Responds) (context : ResponseContext K.Uri)
    {request : Request K.Uri} (respondable : isRespondable K request = true) {status : Nat}
    {code : StatusCode} (isCode : StatusCode.new status = some code) (final : 200 ≤ code.code)
    (reason : Text) :
    finalStatuses (respondAndFinish K context request status reason).2 = [code.code] := by
  obtain ⟨response, built, statusEq⟩ := exists_buildResponse responds respondable isCode reason
  simp [finalStatuses, answers_respondAndFinish, built, statusEq, final]

/-- Selection ends the context with one final response, chosen among the finals. -/
theorem selectAndAnswer_selects (responds : K.Responds) {context : ResponseContext K.Uri}
    {request : Request K.Uri} (respondable : isRespondable K request = true)
    (settled : context.hasPending = false) (unanswered : context.answered = false)
    (finals : ∀ response ∈ context.finals, 200 ≤ response.status.code) :
    (selectAndAnswer K context request).1 = { context with answered := true, finished := true } ∧
      finalStatuses (selectAndAnswer K context request).2 =
        [chosenStatus (context.finals.map fun response => response.status.code)] := by
  have failure := finalStatuses_respondAndFinish responds context respondable
    (show StatusCode.new 500 = some ⟨500, by decide⟩ from rfl) (by decide)
    (text "Server Internal Error")
  cases best : context.bestFinal with
  | none =>
      have failed : selectAndAnswer K context request =
          respondAndFinish K context request 500 (text "Server Internal Error") := by
        simp [selectAndAnswer, unanswered, best]
      have sameBest : bestStatus (context.finals.map fun response => response.status.code) = none :=
        best
      rw [failed, respondAndFinish_fst, failure, chosenStatus, sameBest]
      exact ⟨rfl, rfl⟩
  | some status =>
      have sameBest : bestStatus (context.finals.map fun response => response.status.code) =
          some status := best
      by_cases unavailable : status = 503
      · have failed : selectAndAnswer K context request =
            respondAndFinish K context request 500 (text "Server Internal Error") := by
          simp [selectAndAnswer, unanswered, best, unavailable]
        rw [failed, respondAndFinish_fst, failure, chosenStatus, sameBest, unavailable]
        exact ⟨rfl, rfl⟩
      · have recorded := (bestStatus_eq_iff.mp sameBest).1
        obtain ⟨response, chosen, statusEq⟩ := exists_chosenFinal responds respondable recorded
        obtain ⟨final, member, isBest⟩ := List.mem_map.mp recorded
        have isFinal : 200 ≤ response.status.code := by
          rw [statusEq, ← isBest]
          exact finals final member
        have settledAnswered : ({ context with answered := true } :
            ResponseContext K.Uri).hasPending = false := settled
        have sent : selectAndAnswer K context request =
            ({ context with answered := true, finished := true },
              [.respond (popVia response), .terminate]) := by
          simp [selectAndAnswer, unanswered, best, unavailable, chosen,
            cancelPending_of_settled settledAnswered,
            finishIfSettled_of_answered settledAnswered rfl]
        have kept : decide (status ≠ 503) = true := decide_eq_true unavailable
        rw [sent, chosenStatus, sameBest, Option.filter_some, if_pos kept]
        constructor
        · rfl
        · rw [statusEq] at isFinal
          simp [finalStatuses, popVia_status, statusEq, isFinal]

/-! ## One step -/

theorem outcomeBy_eq_some {context : ResponseContext K.Uri} {input : Input K.Uri} {status : Nat}
    (outcome : outcomeBy K context input = some status) :
    ∃ branch, concludedBy K context input = some branch ∧ isLive context branch ∧
      conclusionStatus K input = some status := by
  obtain ⟨branch, concluded, found⟩ := Option.bind_eq_some_iff.mp outcome
  split at found
  · next live => exact ⟨branch, concluded, live, found⟩
  · contradiction

/-- Recording a final appends the status of the conclusion to the finals. -/
theorem Records.status (responds : K.Responds) {context recorded : ResponseContext K.Uri}
    {request : Request K.Uri} {input : Input K.Uri} {branch : BranchId}
    (respondable : isRespondable K request = true)
    (records : Records K context request input branch recorded) :
    context.knows branch = true ∧ ∃ status, conclusionStatus K input = some status ∧
      200 ≤ status ∧ recorded.finals.map (fun response => response.status.code) =
        context.finals.map (fun response => response.status.code) ++ [status] := by
  cases records with
  | received response _ known final _ _ _ =>
      have notProvisional : ¬ response.status.code < 200 := by
        rw [← StatusCode.isProvisional_iff, final]
        simp
      exact ⟨known, _, rfl, by omega, by simp⟩
  | unavailable response _ known failed =>
      obtain ⟨built, builtEq, statusEq⟩ := exists_buildResponse responds respondable
        (show StatusCode.new 503 = some ⟨503, by decide⟩ from rfl) (text "Service Unavailable")
      refine ⟨known, 503, congrArg some failed, by decide, ?_⟩
      simp [recordBuilt, builtEq, statusEq, concludeBranch, updateBranch]
  | failed _ known =>
      obtain ⟨built, builtEq, statusEq⟩ := exists_buildResponse responds respondable
        (show StatusCode.new 503 = some ⟨503, by decide⟩ from rfl) (text "Service Unavailable")
      refine ⟨known, 503, rfl, by decide, ?_⟩
      simp [recordBuilt, builtEq, statusEq, concludeBranch, updateBranch]
  | silent _ silent =>
      obtain ⟨built, builtEq, statusEq⟩ := exists_buildResponse responds respondable
        (show StatusCode.new 408 = some ⟨408, by decide⟩ from rfl) (text "Request Timeout")
      obtain ⟨entry, member, isBranch, -⟩ := knows_of_sawProvisional silent
      refine ⟨knows_iff.mpr (List.mem_map.mpr ⟨entry, member, isBranch⟩), 408, rfl, by decide, ?_⟩
      simp [recordBuilt, builtEq, statusEq, concludeBranch, updateBranch]

/-- Where a run stands whose branches are being tried: what is in flight, the first
conclusions, the conclusions reported and the final responses sent so far. -/
structure Deciding (request : Request K.Uri) (flying : List (Copy K.Uri))
    (firsts reported sent : List Nat) (state : ResponseContext K.Uri) : Prop where
  coherent : Coherent state
  requestEq : state.request = some request
  live : ∀ branch, isLive state branch ↔ ∃ copy ∈ flying, copy.branch = branch
  finals : state.finals.map (fun response => response.status.code) = reported
  areFinal : ∀ report ∈ reported, 200 ≤ report
  subset : firsts ⊆ reported
  heard : ∀ branch, state.knows branch = true → ¬ isLive state branch → firsts ≠ []
  nonempty : reported ≠ [] → firsts ≠ []
  unanswered : state.finished = false → state.answered = false
  landed : state.finished = true → flying = []
  moving : state.finished = false → state.branches ≠ [] → state.queued = [] → flying ≠ []
  silent : state.finished = false → sent = []
  chose : state.finished = true → state.branches ≠ [] → sent = [chosenStatus reported]

section Steps

variable {request : Request K.Uri} {flying : List (Copy K.Uri)} {firsts reported sent : List Nat}
  {state : ResponseContext K.Uri}

/-- One more input, with what it concludes, reports and sends. -/
def DecidesOn (request : Request K.Uri) (flying : List (Copy K.Uri))
    (firsts reported sent : List Nat) (state : ResponseContext K.Uri) (input : Input K.Uri) : Prop :=
  Deciding request (remaining state input flying ++ copies (onInput K state input).2)
    (firsts ++ (outcomeBy K state input).toList) (reported ++ (reportedBy K state input).toList)
    (sent ++ finalStatuses (onInput K state input).2) (onInput K state input).1

/-- An outcome is the conclusion of a branch in flight. -/
theorem Deciding.exists_flying (deciding : Deciding request flying firsts reported sent state)
    {input : Input K.Uri} {status : Nat} (outcome : outcomeBy K state input = some status) :
    ∃ copy ∈ flying, concludedBy K state input = some copy.branch := by
  obtain ⟨branch, concluded, live, -⟩ := outcomeBy_eq_some outcome
  obtain ⟨copy, member, isBranch⟩ := (deciding.live branch).mp live
  exact ⟨copy, member, by rw [concluded, isBranch]⟩

theorem Deciding.finished (deciding : Deciding request flying firsts reported sent state)
    (finished : state.finished = true) (input : Input K.Uri) :
    DecidesOn request flying firsts reported sent state input := by
  have landed := deciding.landed finished
  have noOutcome : outcomeBy K state input = none := by
    cases outcome : outcomeBy K state input with
    | none => rfl
    | some status =>
        obtain ⟨copy, member, -⟩ := deciding.exists_flying outcome
        rw [landed] at member
        contradiction
  have noReport : reportedBy K state input = none := by simp [reportedBy, finished]
  rw [DecidesOn, noOutcome, noReport, onInput_finished finished, landed]
  rw [landed] at deciding
  simpa [remaining, finalStatuses] using deciding

/-- A step that forwards nothing and keeps the context open knows the same branches. -/
theorem ids_of_forwards_nil (coherent : Coherent state) {input : Input K.Uri}
    (forwards : copies (onInput K state input).2 = []) :
    (onInput K state input).1.branches.map Branch.id = state.branches.map Branch.id := by
  rw [(onInput_advances coherent input).ids, copies_eq_nil_iff.mp forwards, List.append_nil]

/-- A step that idles concludes nothing, reports nothing and answers nothing. -/
theorem Deciding.idle (deciding : Deciding request flying firsts reported sent state)
    (unfinished : state.finished = false) {input : Input K.Uri}
    (idles : Idles state input (onInput K state input)) :
    DecidesOn request flying firsts reported sent state input := by
  have noOutcome : outcomeBy K state input = none := by
    cases outcome : outcomeBy K state input with
    | none => rfl
    | some status =>
        obtain ⟨branch, concluded, live, -⟩ := outcomeBy_eq_some outcome
        exact absurd live (idles.concludes concluded)
  have noReport : reportedBy K state input = none := by
    cases concluded : concludedBy K state input with
    | none => simp [reportedBy, concluded]
    | some branch => simp [reportedBy, concluded, idles.unknown branch concluded]
  have silent : finalStatuses (onInput K state input).2 = [] := by
    rw [finalStatuses_eq_nil_iff]
    rintro ⟨response, member, final⟩
    have step := onInput_step deciding.coherent unfinished input
    rcases step.answered_of_final member final with answered | finished
    · rw [idles.answered, deciding.unanswered unfinished] at answered
      contradiction
    · rw [idles.finished, unfinished] at finished
      contradiction
  have ids := ids_of_forwards_nil deciding.coherent idles.forwards
  have open_ : (onInput K state input).1.finished = false := idles.finished.trans unfinished
  rw [DecidesOn, noOutcome, noReport, remaining_of_idles deciding.live idles, idles.forwards, silent]
  simp only [Option.toList_none, List.append_nil]
  constructor
  · exact (onInput_advances deciding.coherent input).coherent
  · exact idles.request.trans deciding.requestEq
  · intro branch
    rw [idles.live]
    exact deciding.live branch
  · rw [idles.finals]
    exact deciding.finals
  · exact deciding.areFinal
  · exact deciding.subset
  · intro branch known dead
    rw [knows_iff, ids, ← knows_iff] at known
    rw [idles.live] at dead
    exact deciding.heard branch known dead
  · exact deciding.nonempty
  · intro _
    rw [idles.answered]
    exact deciding.unanswered unfinished
  · rw [open_]
    exact fun finished => absurd finished (by simp)
  · rw [idles.queued]
    intro _ branches queued
    apply deciding.moving unfinished _ queued
    intro empty
    rw [empty, List.map_nil, List.map_eq_nil_iff] at ids
    exact branches ids
  · exact fun _ => deciding.silent unfinished
  · rw [open_]
    exact fun finished => absurd finished (by simp)

/-- A group of which something is built, or that leaves targets queued, leaves a
branch in flight or a target to try. -/
theorem Forks.moving {forking : ResponseContext K.Uri} {validated : Validated}
    {outcome : Outcome K.Uri} (forks : Forks forking request validated outcome)
    (built : (groupPlans K forking request validated).length = forking.queued.length →
      (groupPlans K forking request validated).any (builds K forking.config) = true)
    (queued : outcome.1.queued = []) : copies outcome.2 ≠ [] := by
  rw [forks.queued, List.drop_eq_nil_iff] at queued
  have whole : (groupPlans K forking request validated).length = forking.queued.length := by
    simp only [groupPlans, nextGroup, List.length_mapIdx, List.length_take]
    omega
  obtain ⟨plan, member, builds⟩ := List.any_eq_true.mp (built whole)
  obtain ⟨copy, copyEq⟩ := Option.isSome_iff_exists.mp builds
  rw [forks.forwards]
  exact List.ne_nil_of_mem (List.mem_filterMap.mpr ⟨plan, member, copyEq⟩)

theorem Records.ids {recorded : ResponseContext K.Uri} {input : Input K.Uri} {branch : BranchId}
    (records : Records K state request input branch recorded) :
    recorded.branches.map Branch.id = state.branches.map Branch.id := by
  obtain ⟨status, final, recordedEq⟩ := records.frame
  rw [recordedEq]
  exact map_id_updateBranch state branch fun _ => .concluded status

/-- A conclusion reported of a known branch is an outcome, or follows one. -/
theorem Deciding.counts (deciding : Deciding request flying firsts reported sent state)
    {input : Input K.Uri} {branch : BranchId} {status : Nat}
    (concludes : concludedBy K state input = some branch) (known : state.knows branch = true)
    (statusEq : conclusionStatus K input = some status) :
    firsts ++ (outcomeBy K state input).toList ≠ [] ∧
      firsts ++ (outcomeBy K state input).toList ⊆ reported ++ [status] := by
  by_cases live : isLive state branch
  · have outcome : outcomeBy K state input = some status := by
      simp [outcomeBy, concludes, live, statusEq]
    rw [outcome]
    exact ⟨by simp, List.append_subset.mpr
      ⟨List.subset_append_of_subset_left _ deciding.subset, List.subset_append_right _ _⟩⟩
  · have noOutcome : outcomeBy K state input = none := by
      simp [outcomeBy, concludes, live]
    rw [noOutcome, Option.toList_none, List.append_nil]
    exact ⟨deciding.heard branch known live,
      List.subset_append_of_subset_left _ deciding.subset⟩

/-- A step that records a final waits, forks the next group or chooses. -/
theorem Deciding.record (responds : K.Responds) (respondable : isRespondable K request = true)
    (deciding : Deciding request flying firsts reported sent state)
    (unfinished : state.finished = false) {input : Input K.Uri} {branch : BranchId}
    {recorded : ResponseContext K.Uri}
    (records : Records K state request input branch recorded)
    (concludes : concludedBy K state input = some branch)
    (continues : onInput K state input = continueSelection K recorded request)
    (moves : forksNothingLast K state input = false) :
    DecidesOn request flying firsts reported sent state input := by
  obtain ⟨known, status, statusEq, isFinal, finalsEq⟩ := records.status responds respondable
  obtain ⟨concluded, final, recordedEq⟩ := records.frame
  have live := isLive_of_records deciding.live records concludes
  have landed := landed_of_settled live
  obtain ⟨validated, validatedEq⟩ := deciding.coherent.exists_validated deciding.requestEq
  have sameRequest : recorded.request = some request := by
    rw [recordedEq]; exact deciding.requestEq
  have sameValidated : recorded.validated = some validated := by
    rw [recordedEq]; exact validatedEq
  have sameConfig : recorded.config = state.config := by rw [recordedEq]; rfl
  have open_ : recorded.finished = false := by rw [recordedEq]; exact unfinished
  have unanswered : recorded.answered = false := by
    rw [recordedEq]; exact deciding.unanswered unfinished
  have branches : recorded.branches ≠ [] := by
    intro empty
    have ids := records.ids
    rw [empty, List.map_nil, eq_comm, List.map_eq_nil_iff] at ids
    simp [knows, ids] at known
  have reports : reportedBy K state input = some status := by
    simp [reportedBy, unfinished, concludes, known, statusEq]
  obtain ⟨heard, subset⟩ := deciding.counts concludes known statusEq
  have finals : recorded.finals.map (fun response => response.status.code) =
      reported ++ [status] := by
    rw [finalsEq, deciding.finals]
  have areFinal : ∀ report ∈ reported ++ [status], 200 ≤ report := by
    intro report member
    rcases List.mem_append.mp member with old | new
    · exact deciding.areFinal report old
    · rw [List.mem_singleton.mp new]
      exact isFinal
  have coherent := (onInput_advances deciding.coherent input).coherent
  rw [DecidesOn, reports, Option.toList_some, deciding.silent unfinished, List.nil_append]
  cases pending : recorded.hasPending with
  | true =>
      -- Other branches owe their finals.
      have waits : onInput K state input = (recorded, []) := by
        rw [continues, continueSelection, if_pos pending]
      rw [waits] at coherent
      rw [waits, copies_nil, List.append_nil]
      constructor
      · exact coherent
      · exact sameRequest
      · exact live
      · exact finals
      · exact areFinal
      · exact subset
      · exact fun _ _ _ => heard
      · exact fun _ => heard
      · exact fun _ => unanswered
      · intro finished
        rw [open_] at finished
        contradiction
      · intro _ _ _ nothing
        obtain ⟨other, otherLive⟩ := hasPending_iff.mp pending
        obtain ⟨copy, member, -⟩ := (live other).mp otherLive
        rw [nothing] at member
        contradiction
      · exact fun _ => rfl
      · intro finished
        rw [open_] at finished
        contradiction
  | false =>
      cases mayFork : recorded.mayForkNextGroup with
      | true =>
          have queued := queued_ne_nil_of_mayFork mayFork
          have forkEq : onInput K state input = forkNextGroup K recorded := by
            rw [continues, continueSelection, if_neg (by simp [pending]), if_pos mayFork]
          have forks := forkNextGroup_forks sameRequest sameValidated queued pending open_ unanswered
          have planned : plansOf K state input = groupPlans K recorded request validated := by
            rw [plansOf_of_records unfinished deciding.requestEq records sameValidated]
            simp [pending, mayFork]
          have built : (groupPlans K recorded request validated).length = recorded.queued.length →
              (groupPlans K recorded request validated).any (builds K recorded.config) = true := by
            intro whole
            have forkedEq : forkedBy K state input = some (recorded, request) := by
              simp [forkedBy, unfinished, records.untargeted, deciding.requestEq,
                records.recordedBy_eq, pending, mayFork]
            simpa [forksNothingLast, forkedEq, branches, planned, whole, sameConfig] using moves
          have forked : forkNextGroup K recorded = (forkedContext K recorded request validated,
              (launchGroup K recorded request validated).1) := by
            rcases forkNextGroup_cases sameRequest sameValidated queued with
              ⟨noBranches, _, _⟩ | ⟨_, forked⟩
            · exact absurd (List.append_eq_nil_iff.mp noBranches).1 branches
            · exact forked
          have stillOpen : (forkNextGroup K recorded).1.finished = false := by
            rw [forked]
            exact open_
          have silent : finalStatuses (forkNextGroup K recorded).2 = [] := by
            rw [forked]
            exact finalStatuses_of_answers_nil (answers_launchGroup _ _ _ _)
          rw [forkEq] at coherent
          rw [forkEq, landed pending, List.nil_append, silent]
          constructor
          · exact coherent
          · exact forks.requestEq
          · exact forks.live
          · rw [forked]
            exact finals
          · exact areFinal
          · exact subset
          · exact fun _ _ _ => heard
          · exact fun _ => heard
          · exact forks.unanswered
          · intro finished
            rw [stillOpen] at finished
            contradiction
          · exact fun _ _ noQueue => forks.moving built noQueue
          · exact fun _ => rfl
          · intro finished
            rw [stillOpen] at finished
            contradiction
      | false =>
          -- Nothing is left to fork: the context chooses.
          have selectEq : onInput K state input = selectAndAnswer K recorded request := by
            rw [continues, continueSelection, if_neg (by simp [pending]),
              if_neg (by simp [mayFork])]
          have recordedFinal : ∀ response ∈ recorded.finals, 200 ≤ response.status.code := by
            intro response member
            apply areFinal
            rw [← finals]
            exact List.mem_map_of_mem member
          obtain ⟨ended, chosen⟩ := selectAndAnswer_selects responds respondable pending unanswered
            recordedFinal
          have noCopies := copies_selectAndAnswer pending request
          rw [selectEq] at coherent
          rw [selectEq, landed pending, noCopies, chosen, finals, List.append_nil]
          rw [ended] at coherent ⊢
          constructor
          · exact coherent
          · exact sameRequest
          · intro other
            have noneLive := live other
            rw [landed pending] at noneLive
            exact noneLive
          · exact finals
          · exact areFinal
          · exact subset
          · exact fun _ _ _ => heard
          · exact fun _ => heard
          · exact fun finished => absurd finished (by simp)
          · exact fun _ => rfl
          · exact fun finished => absurd finished (by simp)
          · exact fun finished => absurd finished (by simp)
          · exact fun _ _ => rfl

/-- A branch event takes the decision on. -/
theorem Deciding.decidesOn (responds : K.Responds) (respondable : isRespondable K request = true)
    (deciding : Deciding request flying firsts reported sent state) {input : Input K.Uri}
    (event : IsBranchEvent K request input) (moves : forksNothingLast K state input = false) :
    DecidesOn request flying firsts reported sent state input := by
  cases finished : state.finished with
  | true => exact deciding.finished finished input
  | false =>
      rcases branchEvent_cases deciding.coherent finished deciding.requestEq event with
        ⟨branch, recorded, records, concludes, continues⟩ | idles
      · exact deciding.record responds respondable finished records concludes continues moves
      · exact deciding.idle finished idles

end Steps

/-! ## Every run -/

/-- Taking up targets concludes nothing. -/
theorem TakesTargets.concludes_none {context targeted : ResponseContext K.Uri} {input : Input K.Uri}
    {request : Request K.Uri} (takes : TakesTargets K context input targeted request) :
    concludedBy K context input = none := by
  cases takes with
  | predetermined determines _ => cases determines <;> rfl
  | resolved _ _ _ _ => rfl

/-- Taking up targets with nothing forwarded starts the decision. -/
theorem deciding_start {state targeted : ResponseContext K.Uri} {request : Request K.Uri}
    {taking : Input K.Uri} (coherent : Coherent state) (unfinished : state.finished = false)
    (unanswered : state.answered = false) (noBranches : state.branches = [])
    (noFinals : state.finals = []) (takes : TakesTargets K state taking targeted request) :
    Deciding request (copies (onInput K state taking).2) [] []
      (finalStatuses (onInput K state taking).2) (onInput K state taking).1 := by
  have frame := takes.frame
  have after := (onInput_advances coherent taking).coherent
  obtain ⟨validated, validatedEq⟩ := takes.exists_validated coherent
  have settled : targeted.hasPending = false := by
    simp [hasPending, frame.branches, noBranches]
  have forks := forkNextGroup_forks takes.request_eq validatedEq takes.queued_ne_nil settled
    (frame.finished.trans unfinished) (frame.answered.trans unanswered)
  rw [onInput_of_takesTargets unfinished takes] at after ⊢
  have ids := (forkNextGroup_tail takes.request_eq validatedEq takes.queued_ne_nil).branches_eq
  have finals := (forkNextGroup_tail takes.request_eq validatedEq takes.queued_ne_nil).finals_eq
  obtain ⟨launched, branchesEq, launchesEq, pending⟩ := ids
  rw [frame.branches, noBranches, List.nil_append] at branchesEq
  have launchedNil : copies (forkNextGroup K targeted).2 = [] → launched = [] := by
    intro noCopies
    rw [copies_eq_nil_iff.mp noCopies, eq_comm, List.map_eq_nil_iff] at launchesEq
    exact launchesEq
  constructor
  · exact after
  · exact forks.requestEq
  · exact forks.live
  · rw [finals, frame.finals, noFinals]
    rfl
  · exact fun _ member => absurd member List.not_mem_nil
  · exact List.Subset.refl _
  · intro branch known dead
    rw [knows_iff, List.mem_map] at known
    obtain ⟨entry, member, isBranch⟩ := known
    apply absurd _ dead
    refine ⟨entry, member, isBranch, ?_⟩
    rw [branchesEq] at member
    rw [pending entry member]
    rfl
  · exact fun nothing => absurd rfl nothing
  · exact forks.unanswered
  · exact fun finished => (forks.ended finished).2
  · intro _ branches _ noCopies
    apply branches
    rw [branchesEq, launchedNil noCopies]
  · intro open_
    rcases forkNextGroup_cases takes.request_eq validatedEq takes.queued_ne_nil with
      ⟨_, _, answered⟩ | ⟨_, forked⟩
    · rw [answered, respondAndFinish_fst] at open_
      contradiction
    · rw [forked]
      exact finalStatuses_of_answers_nil (answers_launchGroup _ _ _ _)
  · intro finished branches
    apply absurd _ branches
    rw [branchesEq, launchedNil (forks.ended finished).2]

theorem outcomes_concat (context : ResponseContext K.Uri) (inputs : List (Input K.Uri))
    (input : Input K.Uri) :
    outcomes K context (inputs ++ [input]) =
      outcomes K context inputs ++
        (outcomeBy K (after (onInput K) context inputs) input).toList := by
  rw [outcomes, observed_concat, ← List.concat_eq_append, List.reduceOption_concat]
  rfl

theorem reports_concat (context : ResponseContext K.Uri) (inputs : List (Input K.Uri))
    (input : Input K.Uri) :
    reports K context (inputs ++ [input]) =
      reports K context inputs ++
        (reportedBy K (after (onInput K) context inputs) input).toList := by
  rw [reports, observed_concat, ← List.concat_eq_append, List.reduceOption_concat]
  rfl

/-- A run of branch events decides among the finals. -/
theorem deciding_run (responds : K.Responds) {context targeted : ResponseContext K.Uri}
    {request : Request K.Uri} {taking : Input K.Uri} (coherent : Coherent context)
    (unfinished : context.finished = false) (unanswered : context.answered = false)
    (noBranches : context.branches = []) (noFinals : context.finals = [])
    (takes : TakesTargets K context taking targeted request)
    (respondable : isRespondable K request = true) (events : List (Input K.Uri))
    (areEvents : ∀ input ∈ events, IsBranchEvent K request input)
    (moves : Along (onInput K) (fun state input => forksNothingLast K state input = false) context
      (taking :: events)) :
    Deciding request (inFlight K context (taking :: events)) (outcomes K context (taking :: events))
      (reports K context (taking :: events))
      (finalStatuses (emitted (onInput K) context (taking :: events)))
      (after (onInput K) context (taking :: events)) := by
  induction events using List.reverseRecOn with
  | nil =>
      have started := deciding_start coherent unfinished unanswered noBranches noFinals takes
      have flying : inFlight K context [taking] = copies (onInput K context taking).2 := by
        rw [← List.nil_append [taking], inFlight_concat]
        rfl
      have noOutcome : outcomes K context [taking] = [] := by
        rw [← List.nil_append [taking], outcomes_concat, after_nil, outcomeBy,
          takes.concludes_none]
        rfl
      have noReport : reports K context [taking] = [] := by
        rw [← List.nil_append [taking], reports_concat, after_nil, reportedBy, unfinished,
          takes.concludes_none]
        rfl
      rw [flying, noOutcome, noReport, emitted_cons, emitted_nil, List.append_nil]
      exact started
  | append_singleton events input ih =>
      rw [← List.cons_append] at moves ⊢
      rw [along_append] at moves
      have earlier := ih (fun input member => areEvents input (List.mem_append_left _ member)) moves.1
      have decidesOn := earlier.decidesOn responds respondable
        (areEvents input (List.mem_append_right _ (List.mem_singleton_self _))) moves.2.1
      rw [inFlight_concat, outcomes_concat, reports_concat, emitted_concat, finalStatuses_append,
        after_concat]
      exact decidesOn

/-- In a run that forks no last group of which nothing can be built, the status sent
upstream is the one specified for the outcomes, provided nothing reported ranks
before their best. -/
theorem selectsFinal_of_ranksFirst (responds : K.Responds) {config : ProxyConfig}
    {past events : List (Input K.Uri)} {taking : Input K.Uri} {targeted : ResponseContext K.Uri}
    {request : Request K.Uri}
    (unfinished : (after (onInput K) (.new config) past).finished = false)
    (noBranches : (after (onInput K) (.new config) past).branches = [])
    (takes : TakesTargets K (after (onInput K) (.new config) past) taking targeted request)
    (areEvents : ∀ input ∈ events, IsBranchEvent K request input)
    (moves : Along (onInput K) (fun state input => forksNothingLast K state input = false)
      (after (onInput K) (.new config) past) (taking :: events))
    (ranks : RanksFirst (outcomes K (after (onInput K) (.new config) past) (taking :: events))
      (reports K (after (onInput K) (.new config) past) (taking :: events))) :
    SelectsFinal K config past (taking :: events) := by
  obtain ⟨answeredOnce, hasBranches⟩ := answered_after_final config past
  have unanswered : (after (onInput K) (.new config) past).answered = false := by
    cases answered : (after (onInput K) (.new config) past).answered with
    | false => rfl
    | true => exact absurd noBranches (hasBranches answered unfinished)
  have quiet : finalStatuses (emitted (onInput K) (.new config) past) = [] := by
    rw [finalStatuses_eq_nil_iff]
    intro sent
    rcases answeredOnce sent with answered | finished
    · rw [unanswered] at answered
      contradiction
    · rw [unfinished] at finished
      contradiction
  have coherent := coherent_after config past
  have started := deciding_start coherent unfinished unanswered noBranches
    (finals_of_no_branches config past noBranches) takes
  have respondable : isRespondable K request = true := by
    apply respondable_after config (past ++ [taking])
    rw [after_concat]
    exact started.requestEq
  have deciding := deciding_run responds coherent unfinished unanswered noBranches
    (finals_of_no_branches config past noBranches) takes respondable events areEvents moves
  constructor
  · intro forwarded landed noQueue
    rw [after_append] at noQueue
    have branches : (after (onInput K) (after (onInput K) (.new config) past)
        (taking :: events)).branches ≠ [] := by
      intro empty
      apply forwarded
      have ids := ids_after config (past ++ taking :: events)
      rw [after_append, empty, List.map_nil, eq_comm] at ids
      exact copies_eq_nil_iff.mpr ids
    have finished : (after (onInput K) (after (onInput K) (.new config) past)
        (taking :: events)).finished = true := by
      by_contra open_
      exact deciding.moving (by simpa using open_) branches noQueue landed
    rw [emitted_append, finalStatuses_append, quiet, List.nil_append,
      deciding.chose finished branches,
      chosenStatus_of_ranksFirst deciding.subset deciding.nonempty ranks]
  · intro order perm
    exact selected_perm perm

/-- Both branches answer `504`, and the stream of the first ends before the second
answers: the `503` recorded for that end outranks the `504`s, and `500` is sent. -/
theorem not_selectsFinal_late_stream_end :
    ¬ SelectsFinal Reference.kernel edge [.upstream invite]
      [.targetsResolved [phone "sip:bob@10.0.0.1" 1000, phone "sip:bob@10.0.0.2" 1000],
        .branchResponse (reply ⟨504, by decide⟩ branchA) branchA,
        .branchTransportError branchA,
        .branchResponse (reply ⟨504, by decide⟩ branchB) branchB] := by
  intro selects
  have landed : inFlight Reference.kernel
      (after (onInput Reference.kernel) (.new edge) [.upstream invite])
      [.targetsResolved [phone "sip:bob@10.0.0.1" 1000, phone "sip:bob@10.0.0.2" 1000],
        .branchResponse (reply ⟨504, by decide⟩ branchA) branchA,
        .branchTransportError branchA,
        .branchResponse (reply ⟨504, by decide⟩ branchB) branchB] = [] := by
    apply List.length_eq_zero_iff.mp
    decide +kernel
  have forwarded : copies (emitted (onInput Reference.kernel) (.new edge)
      ([.upstream invite] ++
        [.targetsResolved [phone "sip:bob@10.0.0.1" 1000, phone "sip:bob@10.0.0.2" 1000],
          .branchResponse (reply ⟨504, by decide⟩ branchA) branchA,
          .branchTransportError branchA,
          .branchResponse (reply ⟨504, by decide⟩ branchB) branchB])) ≠ [] := by
    apply List.ne_nil_of_length_pos
    decide +kernel
  exact absurd (selects.status forwarded landed (by decide +kernel)) (by decide +kernel)

/-- A busy branch beside one that cannot be reached: `486` is sent. -/
theorem selectsFinal_busy :
    SelectsFinal Reference.kernel edge [.upstream invite]
      [.targetsResolved [phone "sip:bob@10.0.0.1" 1000, phone "sip:bob@10.0.0.2" 1000],
        .branchResponse (reply ⟨486, by decide⟩ branchA) branchA,
        .branchTransportError branchB] :=
  have awaits : AwaitsTargets Reference.kernel
      (after (onInput Reference.kernel) (.new edge) [.upstream invite])
      (preprocess Reference.kernel invite edge).1 inviteValidated :=
    awaitsTargets_of_asked (by decide +kernel) (by decide +kernel) (by decide +kernel)
  selectsFinal_of_ranksFirst Reference.kernel_responds awaits.unfinished awaits.noBranches
    (.resolved _ _ awaits.requestEq (List.cons_ne_nil _ _)) (by decide) (by decide +kernel)
    (by decide +kernel)

end SipxClstr.Proxy
