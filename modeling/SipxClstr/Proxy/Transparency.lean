import SipxClstr.Proxy.CopyHeaders
import SipxClstr.Proxy.ReturnPath
import SipxClstr.Proxy.Schedule

/-!
# Forwarding is transparent

A copy is the request with the rows edited that forwarding is about.  Every other row is kept, in
its place among the others, whatever rows stand between.  On the way back a response loses the `Via`
on top and nothing else.
-/

namespace SipxClstr.Proxy

open SipxClstr.Sip ResponseContext Reactive Reactive.Machine

/-- Whether forwarding edits rows of this name. -/
def isEdited (name : HeaderName) : Bool :=
  name ∈ [HeaderName.route, .recordRoute, .via, .maxForwards, .maxBreadth]

/-- The copy is the request, but for the rows forwarding is about. -/
structure Transparent {Uri : Type} (request copy : Request Uri) : Prop where
  method : copy.method = request.method
  body : copy.body = request.body
  others : copy.headers.filter (fun header => !isEdited header.name) =
    request.headers.filter fun header => !isEdited header.name
  rows : ∀ name, isEdited name = false →
    Headers.getAll copy.headers name = Headers.getAll request.headers name
  via : ∃ own, Headers.getAll copy.headers .via = own :: Headers.getAll request.headers .via
  recordRoute : ∃ own : Headers, own.length ≤ 2 ∧
    Headers.getAll copy.headers .recordRoute = own ++ Headers.getAll request.headers .recordRoute
  maxForwards : ∃ row, Headers.getAll copy.headers .maxForwards = [row]
  maxBreadth : ∃ row, Headers.getAll copy.headers .maxBreadth = [row]

/-- The response sent is the one received, without the `Via` on top. -/
structure WithoutTopVia (received sent : Response) : Prop where
  status : sent.status = received.status
  reason : sent.reason = received.reason
  body : sent.body = received.body
  others : sent.headers.filter (fun header => header.name ≠ .via) =
    received.headers.filter fun header => header.name ≠ .via
  rows : ∀ name, name ≠ .via →
    Headers.getAll sent.headers name = Headers.getAll received.headers name
  via : Headers.getAll sent.headers .via = (Headers.getAll received.headers .via).tail

variable (K : Kernel)

/-- A response this element makes: an answer, a refusal, a final in a branch's place or the
challenges of several. -/
inductive MadeHere : Response → Prop where
  | answer (request : Request K.Uri) (status : Nat) (reason : Text) (response : Response)
      (built : buildResponse K request status reason = some response) : MadeHere response
  | refusal (request : Request K.Uri) (refusal : Refusal) (response : Response)
      (refused : refusalResponse K request refusal = some response) : MadeHere response
  | final (request : Request K.Uri) (status : Nat) (reason : Text) (response : Response)
      (built : buildResponse K request status reason = some response) : MadeHere (popVia response)
  | challenges (context : ResponseContext K.Uri) (request : Request K.Uri) (status : Nat)
      (response : Response) (aggregated : aggregateChallenges K context request status = some response) :
      MadeHere (popVia response)

/-- Whether a response of a branch is sent upstream as it arrives. -/
def isImmediate (request : Request K.Uri) (response : Response) : Bool :=
  (response.status.isProvisional && response.status.code ≠ 100) ||
    (response.status.hundreds = 2 && request.method = .invite) || response.status.hundreds = 6

variable {K}

/-! ## Rows that are kept -/

section Kept

variable {keeps : Header → Bool}

/-- Rows of this name are not among the ones looked at. -/
def Skips (keeps : Header → Bool) (name : HeaderName) : Prop :=
  ∀ header, header.name = name → keeps header = false

theorem filter_pushFront {header : Header} (skips : Skips keeps header.name) (headers : Headers) :
    (Headers.pushFront headers header).filter keeps = headers.filter keeps := by
  simp [Headers.pushFront, skips header rfl]

theorem filter_removeAll {name : HeaderName} (skips : Skips keeps name) (headers : Headers) :
    (Headers.removeAll headers name).filter keeps = headers.filter keeps := by
  unfold Headers.removeAll
  rw [List.filter_filter]
  apply List.filter_congr
  intro header _
  by_cases same : header.name = name
  · simp [skips header same]
  · simp [same]

theorem filter_removeFirst {name : HeaderName} (skips : Skips keeps name) (headers : Headers) :
    (Headers.removeFirst headers name).filter keeps = headers.filter keeps := by
  induction headers with
  | nil => rfl
  | cons header rest ih =>
      unfold Headers.removeFirst at ih ⊢
      by_cases same : header.name = name
      · simp [same, skips header same]
      · simp [same, List.filter_cons, ih]

theorem filter_built {name : HeaderName} (skips : Skips keeps name) (values : List Bytes) :
    (values.filterMap fun value => Header.build K name value).filter keeps = [] := by
  rw [List.filter_eq_nil_iff]
  intro header member
  obtain ⟨value, -, built⟩ := List.mem_filterMap.mp member
  simp [skips header (Header.build_name built)]

theorem filter_setHeader {name : HeaderName} (skips : Skips keeps name) (headers : Headers)
    (value : Text) : (setHeader K headers name value).filter keeps = headers.filter keeps := by
  unfold setHeader
  simp only
  split
  · next header built =>
      have named := Header.build_name built
      rw [filter_pushFront (named.symm ▸ skips), filter_removeAll skips]
  · exact filter_removeAll skips headers

theorem filter_pushRecordRoutes (skips : Skips keeps .recordRoute) {headers pushed : Headers}
    {values : List Text} (ok : pushRecordRoutes K headers values = .ok pushed) :
    pushed.filter keeps = headers.filter keeps := by
  induction values generalizing headers with
  | nil => rw [← Except.ok.inj ok]
  | cons value rest ih =>
      unfold pushRecordRoutes at ok
      split at ok
      · next header built =>
          have named := Header.build_name built
          rw [ih ok, filter_pushFront (named.symm ▸ skips)]
      · contradiction

theorem filter_setRoutes (skips : Skips keeps .route) (request : Request K.Uri)
    (values : List Bytes) :
    (setRoutes K request values).headers.filter keeps = request.headers.filter keeps := by
  show (pushRoutes K _ values).filter keeps = _
  rw [pushRoutes, List.filter_append, filter_built skips, List.append_nil, filter_removeAll skips]

theorem filter_preprocess (skips : Skips keeps .route) (request : Request K.Uri)
    (config : ProxyConfig) :
    (preprocess K request config).1.headers.filter keeps = request.headers.filter keeps := by
  have recovered : (recoverStrictRouting K request config).headers.filter keeps =
      request.headers.filter keeps := by
    unfold recoverStrictRouting
    split
    · split
      · exact filter_setRoutes skips _ _
      · rfl
    · rfl
  unfold preprocess
  simp only
  split
  · exact recovered
  · rw [filter_setRoutes skips]
    exact recovered

theorem filter_applyStrictRouteSwap (skips : Skips keeps .route) (request : Request K.Uri) :
    (applyStrictRouteSwap K request).1.headers.filter keeps = request.headers.filter keeps := by
  unfold applyStrictRouteSwap
  split
  · rfl
  · split
    · rfl
    · split
      · rfl
      · exact filter_setRoutes skips request _

/-- A built copy keeps the rows forwarding is not about. -/
theorem filter_forward {request : Request K.Uri} {plan : ForwardPlan K.Uri} {config : ProxyConfig}
    {branch : BranchId} {copy : Request K.Uri} {nextHop : Bytes}
    (skips : ∀ name, isEdited name = true → Skips keeps name)
    (preprocessed : plan.original = (preprocess K request config).1)
    (built : forward K plan config = .ok (branch, copy, nextHop)) :
    copy.headers.filter keeps = request.headers.filter keeps := by
  obtain ⟨uri, stamped, via, -, stamping, pushed, -, -, rfl⟩ := forward_eq_ok built
  have skipsRoute := skips .route (by decide)
  have named := Header.build_name pushed
  have hops : (hopHeaders K plan).filter keeps = plan.original.headers.filter keeps := by
    unfold hopHeaders
    rw [filter_setHeader (skips .maxBreadth (by decide)),
      filter_setHeader (skips .maxForwards (by decide))]
  have isStamped : stamped.filter keeps = plan.original.headers.filter keeps := by
    rw [← hops]
    unfold stampedHeaders at stamping
    split at stamping
    · cases values : recordRouteValues config plan.tokens with
      | error refused => simp [values, bind, Except.bind] at stamping
      | ok values' =>
          simp only [values, bind, Except.bind] at stamping
          exact filter_pushRecordRoutes (skips .recordRoute (by decide)) stamping
    · rw [Except.ok.inj stamping]
  have skipsVia : Skips keeps via.name := named.symm ▸ skips .via (by decide)
  have routes := filter_built (K := K) skipsRoute (plan.target.routeSet.map routeSetValue)
  rw [List.filterMap_map] at routes
  rw [filter_pushFront skipsVia, routedCopy, filter_applyStrictRouteSwap skipsRoute, pushRouteSet,
    List.filter_append, ← filter_preprocess skipsRoute request config, ← preprocessed, ← isStamped,
    List.append_left_eq_self]
  exact routes

end Kept

/-! ## The copy -/

theorem recoverStrictRouting_body (request : Request K.Uri) (config : ProxyConfig) :
    (recoverStrictRouting K request config).body = request.body := by
  unfold recoverStrictRouting
  split
  · split <;> rfl
  · rfl

theorem preprocess_body (request : Request K.Uri) (config : ProxyConfig) :
    (preprocess K request config).1.body = request.body := by
  unfold preprocess
  simp only
  split
  · exact recoverStrictRouting_body request config
  · exact recoverStrictRouting_body request config

theorem applyStrictRouteSwap_frame (request : Request K.Uri) :
    (applyStrictRouteSwap K request).1.method = request.method ∧
      (applyStrictRouteSwap K request).1.body = request.body := by
  unfold applyStrictRouteSwap
  split
  · exact ⟨rfl, rfl⟩
  · split
    · exact ⟨rfl, rfl⟩
    · split <;> exact ⟨rfl, rfl⟩

theorem length_recordRouteValues {config : ProxyConfig} {tokens : Option RecordRouteTokens}
    {values : List Text} (isValues : recordRouteValues config tokens = .ok values) :
    values.length ≤ 2 := by
  cases tokens with
  | none =>
      rw [← Except.ok.inj isValues]
      exact Nat.le_succ 1
  | some tokens =>
      simp only [recordRouteValues, bind, Except.bind, pure, Except.pure] at isValues
      split at isValues
      · contradiction
      · split at isValues
        · contradiction
        · rw [← Except.ok.inj isValues]
          exact le_rfl

/-- F4 stamps no more than two rows. -/
theorem getAll_recordRoute_stamped {plan : ForwardPlan K.Uri} {config : ProxyConfig}
    {stamped : Headers} (stamping : stampedHeaders K plan config = .ok stamped) :
    ∃ own : Headers, own.length ≤ 2 ∧
      Headers.getAll stamped .recordRoute =
        own ++ Headers.getAll plan.original.headers .recordRoute := by
  have pushed : ∀ {headers pushed : Headers} {values : List Text},
      pushRecordRoutes K headers values = .ok pushed → ∃ own : Headers,
        own.length = values.length ∧ Headers.getAll pushed .recordRoute =
          own ++ Headers.getAll headers .recordRoute := by
    intro headers pushed values ok
    induction values generalizing headers with
    | nil => exact ⟨[], rfl, by rw [← Except.ok.inj ok]; rfl⟩
    | cons value rest ih =>
        unfold pushRecordRoutes at ok
        split at ok
        · next header built =>
            obtain ⟨own, length, rows⟩ := ih ok
            refine ⟨own ++ [header], by simp [length], ?_⟩
            rw [rows, List.append_assoc]
            simp [Headers.getAll, Headers.pushFront, Header.build_name built]
        · contradiction
  have original : Headers.getAll (hopHeaders K plan) .recordRoute =
      Headers.getAll plan.original.headers .recordRoute := by
    unfold hopHeaders
    rw [getAll_setHeader_of_ne (by decide), getAll_setHeader_of_ne (by decide)]
  unfold stampedHeaders at stamping
  split at stamping
  · cases isValues : recordRouteValues config plan.tokens with
    | error refused => simp [isValues, bind, Except.bind] at stamping
    | ok values =>
        simp only [isValues, bind, Except.bind] at stamping
        obtain ⟨own, length, rows⟩ := pushed stamping
        refine ⟨own, ?_, by rw [rows, original]⟩
        rw [length]
        exact length_recordRouteValues isValues
  · refine ⟨[], by simp, ?_⟩
    rw [← Except.ok.inj stamping, original]
    rfl

/-- Preprocessing and forwarding edit the rows forwarding is about, and no others. -/
theorem forward_transparent (accepts : AcceptsNumbers K) {request : Request K.Uri}
    {plan : ForwardPlan K.Uri} {config : ProxyConfig} {branch : BranchId} {copy : Request K.Uri}
    {nextHop : Bytes} (preprocessed : plan.original = (preprocess K request config).1)
    (built : forward K plan config = .ok (branch, copy, nextHop)) : Transparent request copy := by
  obtain ⟨uri, stamped, via, -, stamping, pushed, -, -, isCopy⟩ := forward_eq_ok built
  have named := Header.build_name pushed
  have frame := applyStrictRouteSwap_frame
    { plan.original with uri := uri, headers := pushRouteSet K stamped plan.target.routeSet }
  constructor
  · rw [isCopy]
    exact frame.1.trans (preprocessed ▸ preprocess_method request config)
  · rw [isCopy]
    exact frame.2.trans (preprocessed ▸ preprocess_body request config)
  · apply filter_forward _ preprocessed built
    intro name edited header named
    simp [named, edited]
  · intro name unedited
    apply filter_forward _ preprocessed built
    rintro other edited header rfl
    simp only [decide_eq_false_iff_not]
    intro same
    rw [same, unedited] at edited
    contradiction
  · refine ⟨via, ?_⟩
    rw [isCopy, ← getAll_preprocess (by decide) request config, ← preprocessed,
      ← getAll_stampedHeaders (by decide) (by decide) (by decide) stamping,
      ← getAll_routedCopy (by decide) plan uri stamped]
    simp [Headers.getAll, Headers.pushFront, named]
  · obtain ⟨own, few, rows⟩ := getAll_recordRoute_stamped stamping
    refine ⟨own, few, ?_⟩
    rw [isCopy, Headers.getAll_pushFront_of_ne _ (named ▸ by decide), getAll_routedCopy (by decide),
      rows, preprocessed, getAll_preprocess (by decide)]
  · refine ⟨⟨.maxForwards, utf8 (decimal (plan.validated.maxForwards - 1))⟩, ?_⟩
    rw [isCopy, Headers.getAll_pushFront_of_ne _ (named ▸ by decide), getAll_routedCopy (by decide),
      getAll_stampedHeaders_hop (by decide) stamping, hopHeaders,
      getAll_setHeader_of_ne (by decide), getAll_setHeader_self, Header.build, if_pos (accepts _ _)]
    rfl
  · refine ⟨⟨.maxBreadth,
      utf8 (decimal (breadthShare plan.validated plan.parallelBranches))⟩, ?_⟩
    rw [getAll_maxBreadth_forward built, Header.build, if_pos (accepts _ _)]
    rfl

/-! ## The way back -/

theorem withoutTopVia_popVia (response : Response) : WithoutTopVia response (popVia response) := by
  constructor
  · rfl
  · rfl
  · rfl
  · apply filter_removeFirst
    intro header named
    simp [named]
  · exact fun name different => Headers.getAll_removeFirst_of_ne _ different
  · exact Headers.getAll_removeFirst _ _

/-- A final recorded is one received, or one made in a branch's place. -/
def Recorded (K : Kernel) (received : List Response) (final : Response) : Prop :=
  final ∈ received ∨ ∃ request status reason, buildResponse K request status reason = some final

theorem Tail.sends {context : ResponseContext K.Uri} {request : Request K.Uri}
    {outcome : Outcome K.Uri} (tail : Tail K context request outcome) {received : List Response}
    (finals : ∀ final ∈ context.finals, Recorded K received final) :
    ∀ response ∈ answers outcome.2,
      (∃ source ∈ received, WithoutTopVia source response) ∨ MadeHere K response := by
  intro response sent
  cases tail with
  | waits _ => simp at sent
  | forks _ _ _ _ => simp at sent
  | exhausts _ _ _ =>
      rw [answers_respondAndFinish, Option.mem_toList] at sent
      exact .inr (.answer _ _ _ response sent)
  | fails _ _ =>
      rw [answers_respondAndFinish, Option.mem_toList] at sent
      exact .inr (.answer _ _ _ response sent)
  | selects best chosen _ _ _ _ _ chosenEq =>
      have sentIs : response = popVia chosen := by simpa using sent
      rw [sentIs]
      unfold chosenFinal at chosenEq
      split at chosenEq
      · exact .inr (.challenges context request best chosen chosenEq)
      · rcases finals chosen (List.mem_of_find?_eq_some chosenEq) with
          isReceived | ⟨asked, status, reason, built⟩
        · exact .inl ⟨chosen, isReceived, withoutTopVia_popVia chosen⟩
        · exact .inr (.final asked status reason chosen built)
  | ends _ _ => simp at sent

/-- A step records what a branch sent or what is made in its place. -/
theorem Step.recorded_finals {context : ResponseContext K.Uri} {input : Input K.Uri}
    {outcome : Outcome K.Uri} (step : Step K context input outcome) {received : List Response}
    (arrives : ∀ response branch, input = .branchResponse response branch → response ∈ received)
    (finals : ∀ final ∈ context.finals, Recorded K received final) :
    ∀ final ∈ outcome.1.finals, Recorded K received final := by
  have extended : ∀ response branch, input = .branchResponse response branch →
      ∀ final ∈ context.finals ++ [response], Recorded K received final := by
    intro response branch isInput final member
    rcases List.mem_append.mp member with earlier | now
    · exact finals final earlier
    · rw [List.mem_singleton.mp now]
      exact .inl (arrives response branch isInput)
  have built : ∀ request branch status reason,
      ∀ final ∈ (recordBuilt K context request branch status reason).finals,
        Recorded K received final := by
    intro request branch status reason final member
    rcases List.mem_append.mp member with earlier | now
    · exact finals final earlier
    · exact .inr ⟨request, status, reason, Option.mem_toList.mp now⟩
  cases step with
  | absorbed _ => exact finals
  | premature _ _ => exact finals
  | minted _ => exact finals
  | refused _ _ _ =>
      rw [refuse_fst]
      exact finals
  | held _ _ _ _ _ => exact finals
  | asked determines _ =>
      rw [determines.frame.finals]
      exact finals
  | taken takes tail =>
      rw [tail.finals_eq, takes.frame.finals]
      exact finals
  | concluded _ concludes =>
      rw [respondAndFinish_fst]
      intro final member
      exact finals final (concludes.frame.finals ▸ member)
  | provisional response branch request _ _ _ _ =>
      rw [(sameButBranches_forwardProvisional context request response branch).finals]
      exact finals
  | accepted _ _ _ _ _ _ _ => exact finals
  | rejected response branch _ _ _ _ =>
      rw [finishIfSettled_rejected]
      split <;> exact extended response branch rfl
  | recorded _ records tail =>
      rw [tail.finals_eq]
      cases records with
      | received response _ _ _ _ _ => exact extended response _ rfl
      | unavailable _ _ _ _ => exact built _ _ _ _
      | failed _ _ => exact built _ _ _ _
      | silent _ _ => exact built _ _ _ _
  | stopped _ _ => exact finals
  | withdrawn =>
      rw [(sameButBranches_onUpstreamCancelled context).finals]
      exact finals

/-- A step sends upstream what a branch sent or what is made here. -/
theorem Step.sends {context : ResponseContext K.Uri} {input : Input K.Uri}
    {outcome : Outcome K.Uri} (step : Step K context input outcome) {received : List Response}
    (arrives : ∀ response branch, input = .branchResponse response branch → response ∈ received)
    (finals : ∀ final ∈ context.finals, Recorded K received final) :
    ∀ response ∈ answers outcome.2,
      (∃ source ∈ received, WithoutTopVia source response) ∨ MadeHere K response := by
  have recorded := step.recorded_finals arrives finals
  have passedOn : ∀ source branch, input = .branchResponse source branch →
      answers outcome.2 = [popVia source] → ∀ response ∈ answers outcome.2,
        (∃ source ∈ received, WithoutTopVia source response) ∨ MadeHere K response := by
    intro source branch isInput only response sent
    rw [only, List.mem_singleton] at sent
    rw [sent]
    exact .inl ⟨source, arrives source branch isInput, withoutTopVia_popVia source⟩
  cases step with
  | absorbed _ => simp
  | premature _ _ => simp [terminate]
  | minted _ => simp
  | refused request refusal _ =>
      intro response sent
      rw [(refuse_effects context request refusal).1, Option.mem_toList] at sent
      exact .inr (.refusal request refusal response sent)
  | held _ _ _ _ _ => simp
  | asked _ _ => simp
  | taken takes tail =>
      apply tail.sends
      rw [takes.frame.finals]
      exact finals
  | concluded _ _ =>
      intro response sent
      rw [answers_respondAndFinish, Option.mem_toList] at sent
      exact .inr (.answer _ _ _ response sent)
  | provisional source branch request _ _ _ _ =>
      exact passedOn source branch rfl
        (forwardProvisional_effects context request source branch).1
  | accepted source branch _ _ _ _ _ =>
      apply passedOn source branch rfl
      simp [cancelPending]
  | rejected source branch _ _ _ _ =>
      apply passedOn source branch rfl
      rw [finishIfSettled_rejected]
      split <;> simp [cancelPending]
  | recorded _ _ tail =>
      apply tail.sends
      rw [← tail.finals_eq]
      exact recorded
  | stopped _ _ => simp
  | withdrawn =>
      rw [(onUpstreamCancelled_effects context).1]
      simp

/-- A response that is sent as it arrives is sent without the `Via` on top. -/
theorem answers_of_isImmediate {context : ResponseContext K.Uri}
    (unfinished : context.finished = false) {request : Request K.Uri}
    (requestEq : context.request = some request) {response : Response} {branch : BranchId}
    (known : context.knows branch = true) (immediate : isImmediate K request response = true) :
    answers (onInput K context (.branchResponse response branch)).2 = [popVia response] := by
  have arrives : onInput K context (.branchResponse response branch) =
      onBranchResponse K context response branch := by
    simp [onInput, unfinished]
  rw [arrives]
  simp only [isImmediate, Bool.or_eq_true, Bool.and_eq_true, decide_eq_true_eq] at immediate
  unfold onBranchResponse
  simp only [requestEq, known, Bool.not_true, Bool.false_eq_true, if_false]
  rcases immediate with (⟨isProvisional, notTrying⟩ | ⟨success, isInvite⟩) | global
  · rw [if_neg notTrying, if_pos isProvisional]
    exact (forwardProvisional_effects context request response branch).1
  · have final : response.status.isProvisional = false := by
      rw [Bool.eq_false_iff, ne_eq, StatusCode.isProvisional_iff]
      unfold StatusCode.hundreds at success
      omega
    unfold StatusCode.hundreds at success
    rw [if_neg (by omega), if_neg (by simp [final]), if_neg (by omega), if_pos ⟨success, isInvite⟩]
    simp [cancelPending]
  · have final : response.status.isProvisional = false := by
      rw [Bool.eq_false_iff, ne_eq, StatusCode.isProvisional_iff]
      unfold StatusCode.hundreds at global
      omega
    have notSuccess : ¬ (response.status.hundreds = 2 ∧ request.method = .invite) := by omega
    have notTrying : response.status.code ≠ 100 ∧ response.status.code ≠ 503 := by
      unfold StatusCode.hundreds at global
      omega
    rw [if_neg notTrying.1, if_neg (by simp [final]), if_neg notTrying.2, if_neg notSuccess,
      if_pos global]
    show answers (.respond (popVia response) ::
      (rejectedContext K context response branch).cancelPending.2 ++
        (rejectedContext K context response branch).cancelPending.1.finishIfSettled.2) = _
    rw [finishIfSettled_rejected]
    split <;> simp [cancelPending]

/-! ## Every copy, and every run -/

variable (K) in
/-- Copies keep the request, and responses of branches lose the `Via` on top and nothing else. -/
structure ForwardsTransparently (config : ProxyConfig) : Prop where
  copies : ∀ (request : Request K.Uri) (plan : ForwardPlan K.Uri) branch copy nextHop,
    plan.original = (preprocess K request config).1 →
      forward K plan config = .ok (branch, copy, nextHop) → Transparent request copy
  answers : ∀ inputs, ∀ sent ∈ answers (emitted (onInput K) (.new config) inputs),
    (∃ source ∈ delivered K inputs, WithoutTopVia source sent) ∨ MadeHere K sent
  immediate : ∀ inputs request response branch,
    (after (onInput K) (.new config) inputs).finished = false →
      (after (onInput K) (.new config) inputs).request = some request →
        (after (onInput K) (.new config) inputs).knows branch = true →
          isImmediate K request response = true →
            ∃ sent, Proxy.answers (onInput K (after (onInput K) (.new config) inputs)
                (.branchResponse response branch)).2 = [sent] ∧ WithoutTopVia response sent

theorem answers_after (config : ProxyConfig) (inputs : List (Input K.Uri)) :
    ∀ sent ∈ answers (emitted (onInput K) (.new config) inputs),
      (∃ source ∈ delivered K inputs, WithoutTopVia source sent) ∨ MadeHere K sent := by
  have holds := run_always (onInput K)
    (fun past effects state => Coherent state ∧
      (∀ final ∈ state.finals, Recorded K (delivered K past) final) ∧
        ∀ sent ∈ answers effects,
          (∃ source ∈ delivered K past, WithoutTopVia source sent) ∨ MadeHere K sent)
    ⟨coherent_new config, by simp [ResponseContext.new], by simp⟩
    (fun past effects state input invariant => by
      obtain ⟨coherent, finals, sent⟩ := invariant
      have grows : ∀ response ∈ delivered K past, response ∈ delivered K (past ++ [input]) := by
        intro response member
        obtain ⟨branch, isInput⟩ := mem_delivered.mp member
        exact mem_delivered.mpr ⟨branch, List.mem_append_left _ isInput⟩
      have still : ∀ response,
          (∃ source ∈ delivered K past, WithoutTopVia source response) ∨ MadeHere K response →
            (∃ source ∈ delivered K (past ++ [input]), WithoutTopVia source response) ∨
              MadeHere K response := by
        rintro response (⟨source, member, without⟩ | made)
        · exact .inl ⟨source, grows source member, without⟩
        · exact .inr made
      have held : ∀ final ∈ state.finals, Recorded K (delivered K (past ++ [input])) final := by
        intro final member
        rcases finals final member with isReceived | made
        · exact .inl (grows final isReceived)
        · exact .inr made
      refine ⟨(onInput_advances coherent input).coherent, ?_⟩
      cases finished : state.finished with
      | true =>
          rw [onInput_finished finished, List.append_nil]
          exact ⟨held, fun response member => still response (sent response member)⟩
      | false =>
          have step := onInput_step coherent finished input
          have arrives : ∀ response branch, input = .branchResponse response branch →
              response ∈ delivered K (past ++ [input]) := by
            rintro response branch rfl
            exact mem_delivered.mpr ⟨branch, by simp⟩
          refine ⟨step.recorded_finals arrives held, fun response member => ?_⟩
          rw [answers_append] at member
          rcases List.mem_append.mp member with earlier | now
          · exact still response (sent response earlier)
          · exact step.sends arrives held response now)
    inputs
  exact holds.2.2

/-- Forwarding is transparent, in both directions. -/
theorem forwardsTransparently (accepts : AcceptsNumbers K) (config : ProxyConfig) :
    ForwardsTransparently K config := by
  constructor
  · exact fun _ _ _ _ _ preprocessed built => forward_transparent accepts preprocessed built
  · exact answers_after config
  · intro inputs request response branch unfinished requestEq known immediate
    exact ⟨popVia response, answers_of_isImmediate unfinished requestEq known immediate,
      withoutTopVia_popVia response⟩

/-- With the reference kernel every number is accepted, and forwarding is transparent. -/
theorem forwardsTransparently_edge : ForwardsTransparently Reference.kernel edge :=
  forwardsTransparently acceptsNumbers_reference edge

end SipxClstr.Proxy
