import SipxClstr.Proxy.Ending
import SipxClstr.Proxy.ReturnPath
import Mathlib.Data.List.ReduceOption

/-!
# Challenges on their way upstream

A caller must see the challenge of every realm.  What is sent for a `401` carries the challenges
of the `401`s, and what is sent for a `407` those of the `407`s: where branches answered both,
the `407`s are passed by.
-/

namespace SipxClstr.Proxy

open SipxClstr.Sip ResponseContext Reactive Reactive.Machine

variable (K : Kernel)

/-- The response this input brings from a branch. -/
def producedBy (context : ResponseContext K.Uri) : Input K.Uri → Option Response
  | .branchResponse response branch =>
      if !context.finished && context.knows branch then some response else none
  | _ => none

/-- The responses the branches of a run produced, in the order they came. -/
def produced (config : ProxyConfig) (inputs : List (Input K.Uri)) : List Response :=
  (observed (onInput K) (producedBy K) (.new config) inputs).reduceOption

/-- Every value of this name in the responses of this status. -/
def valuesOf (status : Nat) (name : HeaderName) (responses : List Response) : Headers :=
  (responses.filter fun response => response.status.code = status).flatMap fun response =>
    Headers.getAll response.headers name

/-- The response carries every challenge of these, each once and in order. -/
structure CarriesChallenges (responses : List Response) (response : Response) : Prop where
  unauthorized : Headers.getAll response.headers .wwwAuthenticate =
    valuesOf 401 .wwwAuthenticate responses
  proxy : Headers.getAll response.headers .proxyAuthenticate =
    valuesOf 407 .proxyAuthenticate responses

/-- A response that is built carries no challenge of its own. -/
def BuildsUnchallenged : Prop :=
  ∀ request status reason response, K.toRequest request status reason = some response →
    Headers.getAll response.headers .wwwAuthenticate = [] ∧
      Headers.getAll response.headers .proxyAuthenticate = []

variable {K}

def isChallenge (response : Response) : Bool :=
  response.status.code = 401 || response.status.code = 407

theorem valuesOf_filter {status : Nat} (isStatus : status = 401 ∨ status = 407) (name : HeaderName)
    (responses : List Response) :
    valuesOf status name (responses.filter isChallenge) = valuesOf status name responses := by
  unfold valuesOf
  rw [List.filter_filter]
  congr 1
  apply List.filter_congr
  intro response _
  rcases isStatus with rfl | rfl
  · by_cases same : response.status.code = 401 <;> simp [isChallenge, same]
  · by_cases same : response.status.code = 407 <;> simp [isChallenge, same]

theorem getAll_valuesOf_self (status : Nat) (name : HeaderName) (responses : List Response) :
    Headers.getAll (valuesOf status name responses) name = valuesOf status name responses := by
  unfold Headers.getAll
  rw [List.filter_eq_self]
  intro header member
  rcases List.mem_flatMap.mp member with ⟨response, -, isIn⟩
  exact (List.mem_filter.mp isIn).2

theorem getAll_valuesOf_of_ne {name other : HeaderName} (differs : other ≠ name) (status : Nat)
    (responses : List Response) : Headers.getAll (valuesOf status other responses) name = [] := by
  unfold Headers.getAll
  rw [List.filter_eq_nil_iff]
  intro header member isName
  rcases List.mem_flatMap.mp member with ⟨response, -, isIn⟩
  have isOther : header.name = other := of_decide_eq_true (List.mem_filter.mp isIn).2
  exact differs (isOther.symm.trans (of_decide_eq_true isName))

/-! ## What is recorded -/

theorem not_isChallenge {response : Response} (notUnauthorized : response.status.code ≠ 401)
    (notProxy : response.status.code ≠ 407) : isChallenge response = false := by
  simp [isChallenge, notUnauthorized, notProxy]

/-- What is built here has the status asked for. -/
theorem status_of_buildResponse (responds : K.Responds) {request : Request K.Uri} {status : Nat}
    {reason : Text} {response : Response}
    (built : buildResponse K request status reason = some response) :
    response.status.code = status := by
  obtain ⟨code, isCode, built⟩ := buildResponse_eq_some built
  rw [responds.status _ _ _ _ built]
  unfold StatusCode.new at isCode
  split at isCode
  · rw [← Option.some.inj isCode]
  · contradiction

/-- A final that is built here is no challenge, unless it has the status of one. -/
theorem filter_recordBuilt (responds : K.Responds) (context : ResponseContext K.Uri)
    (request : Request K.Uri) (branch : BranchId) {status : Nat} (reason : Text)
    (notUnauthorized : status ≠ 401) (notProxy : status ≠ 407) :
    (recordBuilt K context request branch status reason).finals.filter isChallenge =
      context.finals.filter isChallenge := by
  have plain : (buildResponse K request status reason).toList.filter isChallenge = [] := by
    rw [List.filter_eq_nil_iff]
    intro response member
    have isStatus := status_of_buildResponse responds (Option.mem_toList.mp member)
    simp [not_isChallenge (isStatus ▸ notUnauthorized) (isStatus ▸ notProxy)]
  simp only [recordBuilt, concludeBranch, updateBranch, List.filter_append, plain, List.append_nil]

/-- A step records the challenge a branch answered with, and no other. -/
theorem Step.challenges (responds : K.Responds) {context : ResponseContext K.Uri}
    {input : Input K.Uri} {outcome : Outcome K.Uri} (step : Step K context input outcome)
    (coherent : Coherent context) (unfinished : context.finished = false) :
    outcome.1.finals.filter isChallenge =
      context.finals.filter isChallenge ++ (producedBy K context input).toList.filter isChallenge := by
  have nothing : ∀ finals : List Response, finals.filter isChallenge =
      finals.filter isChallenge ++ ([] : List Response).filter isChallenge := by
    simp
  have passed : ∀ {response : Response} (branch : BranchId) (finals : List Response),
      isChallenge response = false → finals.filter isChallenge = finals.filter isChallenge ++
        (producedBy K context (.branchResponse response branch)).toList.filter isChallenge := by
    intro response branch finals plain
    simp only [producedBy]
    split <;> simp [plain]
  cases step with
  | absorbed absorbs =>
      cases input with
      | branchResponse response branch =>
          rcases absorbs.2 with unknown | trying
          · simp [producedBy, unknown]
          · exact passed _ _ (not_isChallenge (by omega) (by omega))
      | _ => exact nothing _
  | premature needs absent =>
      cases input with
      | branchResponse response branch =>
          have unknown : context.knows branch = false := by
            by_contra known
            have held := coherent.branches (by
              intro empty
              simp [knows, empty] at known)
            rw [absent] at held
            contradiction
          simp [producedBy, unknown, terminate]
      | _ => exact nothing _
  | minted tokens => exact nothing _
  | refused request refusal _ =>
      rw [refuse_fst]
      exact nothing _
  | held _ _ _ _ _ => exact nothing _
  | asked determines _ =>
      rw [determines.frame.finals]
      cases determines <;> exact nothing _
  | taken takes tail =>
      rw [tail.finals_eq, takes.frame.finals]
      cases takes with
      | predetermined determines _ => cases determines <;> exact nothing _
      | resolved _ _ _ _ => exact nothing _
  | concluded _ concludes =>
      rw [respondAndFinish_fst]
      simp only [concludes.frame.finals]
      cases concludes <;> exact nothing _
  | provisional response branch request _ known _ isProvisional =>
      rw [(sameButBranches_forwardProvisional context request response branch).finals]
      rw [StatusCode.isProvisional_iff] at isProvisional
      exact passed _ _ (not_isChallenge (by omega) (by omega))
  | accepted response branch request _ known success _ =>
      have plain : isChallenge response = false := by
        unfold StatusCode.hundreds at success
        exact not_isChallenge (by omega) (by omega)
      exact passed _ _ plain
  | rejected response branch request _ known global =>
      have plain : isChallenge response = false := by
        unfold StatusCode.hundreds at global
        exact not_isChallenge (by omega) (by omega)
      have extended : (context.finals ++ [response]).filter isChallenge =
          context.finals.filter isChallenge := by
        simp [plain]
      rw [← passed branch _ plain, ← extended, finishIfSettled_rejected]
      split <;> rfl
  | recorded _ records tail =>
      rw [tail.finals_eq]
      cases records with
      | received response branch known _ _ _ _ =>
          simp [producedBy, known, unfinished]
      | unavailable response branch _ failed =>
          rw [filter_recordBuilt responds _ _ _ _ (by decide) (by decide)]
          exact passed _ _ (not_isChallenge (by omega) (by omega))
      | failed branch _ =>
          rw [filter_recordBuilt responds _ _ _ _ (by decide) (by decide)]
          exact nothing _
      | silent branch _ =>
          rw [filter_recordBuilt responds _ _ _ _ (by decide) (by decide)]
          exact nothing _
  | stopped _ _ => exact nothing _
  | withdrawn =>
      rw [(sameButBranches_onUpstreamCancelled context).finals]
      exact nothing _

/-- The challenges recorded in a run are those its branches produced, in order. -/
theorem challenges_after (responds : K.Responds) (config : ProxyConfig)
    (inputs : List (Input K.Uri)) :
    (after (onInput K) (.new config) inputs).finals.filter isChallenge =
      (produced K config inputs).filter isChallenge := by
  induction inputs using List.reverseRecOn with
  | nil => rfl
  | append_singleton past input ih =>
      have extended : produced K config (past ++ [input]) = produced K config past ++
          (producedBy K (after (onInput K) (.new config) past) input).toList := by
        unfold produced
        rw [observed_concat, ← List.concat_eq_append, List.reduceOption_concat]
      rw [after_concat, extended, List.filter_append, ← ih]
      cases finished : (after (onInput K) (.new config) past).finished with
      | true =>
          have nothing : producedBy K (after (onInput K) (.new config) past) input = none := by
            cases input <;> simp [producedBy, finished]
          rw [onInput_finished finished, nothing]
          simp
      | false =>
          have coherent := coherent_after config past
          exact (onInput_step coherent finished input).challenges responds coherent finished

theorem valuesOf_after (responds : K.Responds) (config : ProxyConfig) (inputs : List (Input K.Uri))
    {status : Nat} (isStatus : status = 401 ∨ status = 407) (name : HeaderName) :
    valuesOf status name (after (onInput K) (.new config) inputs).finals =
      valuesOf status name (produced K config inputs) := by
  rw [← valuesOf_filter isStatus, challenges_after responds, valuesOf_filter isStatus]

/-! ## What is sent -/

theorem valuesOf_eq_nil {status : Nat} {responses : List Response}
    (absent : ∀ response ∈ responses, response.status.code ≠ status) (name : HeaderName) :
    valuesOf status name responses = [] := by
  unfold valuesOf
  rw [List.filter_eq_nil_iff.mpr]
  · rfl
  · intro response member
    simp [absent response member]

/-- An aggregated response has the challenges of its status and no others. -/
theorem getAll_aggregateChallenges (unchallenged : BuildsUnchallenged K)
    {context : ResponseContext K.Uri} {request : Request K.Uri} {status : Nat}
    {response : Response}
    (aggregated : aggregateChallenges K context request status = some response) :
    (Headers.getAll response.headers .wwwAuthenticate =
        if status = 401 then valuesOf 401 .wwwAuthenticate context.finals else []) ∧
      (Headers.getAll response.headers .proxyAuthenticate =
        if status = 401 then [] else valuesOf status .proxyAuthenticate context.finals) := by
  unfold aggregateChallenges at aggregated
  simp only [Option.bind_eq_bind, Option.bind_eq_some_iff, Option.pure_def,
    Option.some.injEq] at aggregated
  obtain ⟨built, isBuilt, same⟩ := aggregated
  obtain ⟨code, -, answered⟩ := buildResponse_eq_some isBuilt
  obtain ⟨noUnauthorized, noProxy⟩ := unchallenged _ _ _ _ answered
  rw [← same]
  have popped : ∀ name, Headers.getAll (built.headers ++ valuesOf status
      (if status = 401 then .wwwAuthenticate else .proxyAuthenticate) context.finals) name =
        Headers.getAll built.headers name ++ Headers.getAll (valuesOf status
          (if status = 401 then .wwwAuthenticate else .proxyAuthenticate) context.finals) name :=
    fun name => Headers.getAll_append _ _ name
  by_cases unauthorized : status = 401
  · subst unauthorized
    constructor
    · refine (popped _).trans ?_
      rw [noUnauthorized, List.nil_append, if_pos rfl, if_pos rfl, getAll_valuesOf_self]
    · refine (popped _).trans ?_
      rw [noProxy, List.nil_append, if_pos rfl, if_pos rfl, getAll_valuesOf_of_ne (by decide)]
  · constructor
    · refine (popped _).trans ?_
      rw [noUnauthorized, List.nil_append, if_neg unauthorized, if_neg unauthorized,
        getAll_valuesOf_of_ne (by decide)]
    · refine (popped _).trans ?_
      rw [noProxy, List.nil_append, if_neg unauthorized, if_neg unauthorized, getAll_valuesOf_self]

/-- The answer is the aggregate of the challenges of the best status recorded. -/
def Aggregated (context : ResponseContext K.Uri) (response : Response) : Prop :=
  ∃ request chosen, context.bestFinal = some response.status.code ∧
    aggregateChallenges K context request response.status.code = some chosen ∧
      response = popVia chosen

theorem status_of_refusalResponse (responds : K.Responds) {request : Request K.Uri}
    {refusal : Refusal} {response : Response}
    (refused : refusalResponse K request refusal = some response) :
    refusal.status = some response.status.code := by
  simp only [refusalResponse, Option.bind_eq_bind, Option.bind_eq_some_iff, Option.pure_def,
    Option.some.injEq] at refused
  obtain ⟨status, isStatus, base, built, extended⟩ := refused
  have kept : (withUnsupported K base refusal).status = base.status := by
    unfold withUnsupported
    split
    · split <;> rfl
    · rfl
  rw [isStatus, ← extended, kept, status_of_buildResponse responds built]

/-- A tail answers with a challenge only by aggregating. -/
theorem Tail.aggregated (responds : K.Responds) {context : ResponseContext K.Uri}
    {request : Request K.Uri} {outcome : Outcome K.Uri} (tail : Tail K context request outcome)
    {response : Response} (sent : response ∈ answers outcome.2)
    (challenges : isChallenge response = true) : Aggregated outcome.1 response := by
  cases tail with
  | waits _ => simp at sent
  | forks _ _ _ _ => simp at sent
  | exhausts _ _ _ =>
      rw [answers_respondAndFinish, Option.mem_toList] at sent
      simp [isChallenge, status_of_buildResponse responds sent] at challenges
  | fails _ _ =>
      rw [answers_respondAndFinish, Option.mem_toList] at sent
      simp [isChallenge, status_of_buildResponse responds sent] at challenges
  | selects best chosen _ _ _ bestEq _ chosenEq =>
      have sentIs : response = popVia chosen := by simpa using sent
      have sameStatus : response.status.code = chosen.status.code := by
        rw [sentIs]
        rfl
      unfold chosenFinal at chosenEq
      split at chosenEq
      · have isBest : chosen.status.code = best := by
          obtain ⟨built, isBuilt, same⟩ := Option.bind_eq_some_iff.mp chosenEq
          rw [← Option.some.inj same]
          show built.status.code = best
          exact status_of_buildResponse responds isBuilt
        refine ⟨request, chosen, ?_, ?_, sentIs⟩
        · rw [sameStatus, isBest]
          exact bestEq
        · rw [sameStatus, isBest]
          exact chosenEq
      · next other =>
          have isBest : chosen.status.code = best := by
            simpa using List.find?_some chosenEq
          simp only [isChallenge, sameStatus, isBest, Bool.or_eq_true, decide_eq_true_eq]
            at challenges
          exact absurd challenges other
  | ends _ _ => simp at sent

/-- A step answers with a challenge only by aggregating. -/
theorem Step.aggregated (responds : K.Responds) {context : ResponseContext K.Uri}
    {input : Input K.Uri} {outcome : Outcome K.Uri} (step : Step K context input outcome)
    {response : Response} (sent : response ∈ answers outcome.2)
    (challenges : isChallenge response = true) : Aggregated outcome.1 response := by
  have forwarded : ∀ {received : Response}, isChallenge received = false →
      answers outcome.2 = [popVia received] → Aggregated outcome.1 response := by
    intro received plain only
    rw [only, List.mem_singleton] at sent
    rw [sent] at challenges
    exact absurd (plain.symm.trans challenges) (by decide)
  have isCode : response.status.code = 401 ∨ response.status.code = 407 := by
    simpa [isChallenge] using challenges
  cases step with
  | absorbed _ => simp at sent
  | premature _ _ => simp [terminate] at sent
  | minted _ => simp at sent
  | refused request refusal _ =>
      rw [(refuse_effects context request refusal).1, Option.mem_toList] at sent
      have isStatus := status_of_refusalResponse responds sent
      cases refusal <;> simp [Refusal.status] at isStatus <;> omega
  | held _ _ _ _ _ => simp at sent
  | asked _ _ => simp at sent
  | taken _ tail => exact tail.aggregated responds sent challenges
  | concluded _ concludes =>
      rw [answers_respondAndFinish, Option.mem_toList] at sent
      have isStatus := status_of_buildResponse responds sent
      cases concludes <;> omega
  | provisional received branch request _ _ _ isProvisional =>
      rw [StatusCode.isProvisional_iff] at isProvisional
      exact forwarded (not_isChallenge (by omega) (by omega))
        (forwardProvisional_effects context request received branch).1
  | accepted received branch request _ _ success _ =>
      unfold StatusCode.hundreds at success
      refine @forwarded received (not_isChallenge (by omega) (by omega)) ?_
      simp [cancelPending]
  | rejected received branch request _ _ global =>
      unfold StatusCode.hundreds at global
      refine @forwarded received (not_isChallenge (by omega) (by omega)) ?_
      rw [finishIfSettled_rejected]
      split <;> simp [cancelPending]
  | recorded _ _ tail => exact tail.aggregated responds sent challenges
  | stopped _ _ => simp at sent
  | withdrawn =>
      rw [(onUpstreamCancelled_effects context).1] at sent
      contradiction

/-- What is sent for a challenge loses none exactly when no `407` is passed by for a
`401`. -/
theorem carriesChallenges_iff (responds : K.Responds) (unchallenged : BuildsUnchallenged K)
    (config : ProxyConfig) (inputs : List (Input K.Uri)) (input : Input K.Uri)
    {response : Response}
    (sent : response ∈ answers (onInput K (after (onInput K) (.new config) inputs) input).2)
    (challenges : response.status.code = 401 ∨ response.status.code = 407) :
    CarriesChallenges (produced K config (inputs ++ [input])) response ↔
      ((∃ answer ∈ produced K config (inputs ++ [input]), answer.status.code = 401) →
        valuesOf 407 .proxyAuthenticate (produced K config (inputs ++ [input])) = []) := by
  have coherent := coherent_after config inputs
  have unfinished : (after (onInput K) (.new config) inputs).finished = false := by
    by_contra finished
    rw [onInput_finished (Bool.eq_true_of_not_eq_false finished)] at sent
    contradiction
  obtain ⟨request, chosen, bestEq, aggregated, sentIs⟩ :=
    (onInput_step coherent unfinished input).aggregated responds sent
      (by simpa [isChallenge] using challenges)
  rw [← after_concat] at bestEq aggregated
  obtain ⟨unauthorized, proxy⟩ := getAll_aggregateChallenges unchallenged aggregated
  have popped : ∀ name, name ≠ .via →
      Headers.getAll response.headers name = Headers.getAll chosen.headers name := by
    intro name different
    rw [sentIs]
    exact Headers.getAll_removeFirst_of_ne _ different
  rw [← popped _ (by decide)] at unauthorized proxy
  obtain ⟨recorded, least⟩ := bestStatus_eq_iff.mp bestEq
  -- Only the challenges among the finals are known to be those of the branches.
  have member_iff : ∀ answer, isChallenge answer = true →
      (answer ∈ (after (onInput K) (.new config) (inputs ++ [input])).finals ↔
        answer ∈ produced K config (inputs ++ [input])) := by
    intro answer isOne
    have same := challenges_after responds config (inputs ++ [input])
    have inFinals : answer ∈ (after (onInput K) (.new config) (inputs ++ [input])).finals ↔
        answer ∈ (after (onInput K) (.new config) (inputs ++ [input])).finals.filter isChallenge := by
      simp [List.mem_filter, isOne]
    rw [inFinals, same]
    simp [List.mem_filter, isOne]
  rcases challenges with isUnauthorized | isProxy
  · rw [isUnauthorized, if_pos rfl, valuesOf_after responds _ _ (.inl rfl)] at unauthorized
    rw [isUnauthorized, if_pos rfl] at proxy
    have answered : ∃ answer ∈ produced K config (inputs ++ [input]),
        answer.status.code = 401 := by
      obtain ⟨answer, isIn, isStatus⟩ := List.mem_map.mp recorded
      rw [isUnauthorized] at isStatus
      exact ⟨answer, (member_iff answer (by simp [isChallenge, isStatus])).mp isIn, isStatus⟩
    constructor
    · rintro carries -
      rw [← carries.proxy, proxy]
    · intro none
      exact ⟨unauthorized, by rw [proxy, none answered]⟩
  · rw [isProxy, if_neg (by decide)] at unauthorized
    rw [isProxy, if_neg (by decide), valuesOf_after responds _ _ (.inr rfl)] at proxy
    -- A `401` among the finals would have been the best of them.
    have absent : ∀ answer ∈ produced K config (inputs ++ [input]),
        answer.status.code ≠ 401 := by
      intro answer isIn isStatus
      have isFinal := (member_iff answer (by simp [isChallenge, isStatus])).mpr isIn
      have below := least _ (List.mem_map_of_mem isFinal)
      rw [isProxy, isStatus] at below
      exact absurd below (by decide)
    constructor
    · rintro - ⟨answer, isIn, isStatus⟩
      exact absurd isStatus (absent answer isIn)
    · intro _
      exact ⟨by rw [unauthorized, valuesOf_eq_nil absent], proxy⟩

/-! ## Two challenged branches -/

theorem kernel_unchallenged : BuildsUnchallenged Reference.kernel := by
  intro request status reason response built
  simp only [Reference.kernel, Reference.toRequest] at built
  split at built
  · rw [← Option.some.inj built]
    have echoed : ∀ name, (∀ header : Header, header.name = name → Reference.isEchoed header = false) →
        Headers.getAll (request.headers.filter Reference.isEchoed) name = [] := by
      intro name dropped
      simp only [Headers.getAll, List.filter_filter, List.filter_eq_nil_iff]
      intro header _ both
      simp only [Bool.and_eq_true, decide_eq_true_eq] at both
      rw [dropped header both.1] at both
      exact absurd both.2 (by decide)
    constructor
    · exact echoed _ (fun header isName => by simp [Reference.isEchoed, isName])
    · exact echoed _ (fun header isName => by simp [Reference.isEchoed, isName])
  · contradiction

/-- A branch asks for credentials. -/
def challenge (status : StatusCode) (branch : BranchId) (header : Header) : Response :=
  { reply status branch with headers := (reply status branch).headers ++ [header] }

/-- A registrar's challenge and a proxy's. -/
def registrarChallenge : Header :=
  Reference.row .wwwAuthenticate "Digest realm=\"b.example\", nonce=\"1\""

def proxyChallenge : Header :=
  Reference.row .proxyAuthenticate "Digest realm=\"p.example\", nonce=\"2\""

/-- `401` is a status code. -/
theorem unauthorized_inRange : 100 ≤ 401 ∧ 401 ≤ 999 := by
  decide

/-- Two phones are rung, and the first asks for credentials. -/
def firstChallenged : List (Input Reference.kernel.Uri) :=
  [.upstream invite,
    .targetsResolved [phone "sip:bob@10.0.0.1" 1000, phone "sip:bob@10.0.0.2" 1000],
    .branchResponse (challenge ⟨401, unauthorized_inRange⟩ branchA registrarChallenge) branchA]

/-- What is sent once the second phone has answered too. -/
def answersTo (second : Response) : List Response :=
  answers (onInput Reference.kernel
    (after (onInput Reference.kernel) (.new edge) firstChallenged)
    (.branchResponse second branchB)).2

/-- Where both phones answer `401`, the caller gets both challenges. -/
theorem carriesChallenges_alike :
    (answersTo (challenge ⟨401, by decide⟩ branchB registrarChallenge)).map
        (fun response => response.status.code) = [401] ∧
      ∀ response ∈ answersTo (challenge ⟨401, by decide⟩ branchB registrarChallenge),
        CarriesChallenges
          (produced Reference.kernel edge (firstChallenged ++
            [.branchResponse (challenge ⟨401, by decide⟩ branchB registrarChallenge) branchB]))
          response := by
  have sent : (answersTo (challenge ⟨401, by decide⟩ branchB registrarChallenge)).map
      (fun response => response.status.code) = [401] := by
    decide +kernel
  refine ⟨sent, fun response member => ?_⟩
  have isCode : response.status.code = 401 := by
    have inCodes := List.mem_map_of_mem (f := fun response => response.status.code) member
    rw [sent] at inCodes
    exact List.mem_singleton.mp inCodes
  refine (carriesChallenges_iff Reference.kernel_responds kernel_unchallenged edge _ _ member
    (.inl isCode)).mpr fun _ => ?_
  decide +kernel

/-- Where the second phone answers `407`, its challenge is lost. -/
theorem not_carriesChallenges :
    ¬ ∀ (config : ProxyConfig) (inputs : List (Input Reference.kernel.Uri))
      (input : Input Reference.kernel.Uri) (response : Response),
      response ∈ answers (onInput Reference.kernel
          (after (onInput Reference.kernel) (.new config) inputs) input).2 →
        response.status.code = 401 ∨ response.status.code = 407 →
          CarriesChallenges (produced Reference.kernel config (inputs ++ [input])) response := by
  intro carries
  have sent : (answersTo (challenge ⟨407, by decide⟩ branchB proxyChallenge)).map
      (fun response => (response.status.code,
        Headers.getAll response.headers .proxyAuthenticate)) = [(401, [])] := by
    decide +kernel
  obtain ⟨response, only⟩ := List.length_eq_one_iff.mp
    ((List.length_map _).symm.trans (congrArg List.length sent))
  rw [only, List.map_singleton] at sent
  have isBoth := Prod.mk.inj (List.cons.inj sent).1
  have member : response ∈ answersTo (challenge ⟨407, by decide⟩ branchB proxyChallenge) := by
    rw [only]
    exact List.mem_singleton_self response
  have kept := (carries edge firstChallenged _ response member (.inl isBoth.1)).proxy
  rw [isBoth.2] at kept
  exact absurd kept (by decide +kernel)

end SipxClstr.Proxy
