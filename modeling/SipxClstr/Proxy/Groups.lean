import SipxClstr.Proxy.Reachable

/-!
# The groups a run forks

A step forks a group when it takes up targets, or when it records a final with
nothing outstanding and targets queued.  This file says which copies such a step
tries to build, and that it forwards exactly those it can.
-/

namespace SipxClstr.Proxy

open SipxClstr.Sip ResponseContext Reactive Reactive.Machine

/-- One copy put on a client transaction. -/
structure Copy (Uri : Type) where
  branch : BranchId
  request : Request Uri
  target : Target

/-- The copy this effect forwards, if it forwards one. -/
@[simp]
def Effect.copy? {Uri : Type} : Effect Uri → Option (Copy Uri)
  | .forward branch request target _ => some ⟨branch, request, target⟩
  | _ => none

/-- The copies forwarded, in order. -/
def copies {Uri : Type} (effects : List (Effect Uri)) : List (Copy Uri) :=
  effects.filterMap Effect.copy?

section

variable {Uri : Type}

@[simp]
theorem copies_nil : copies ([] : List (Effect Uri)) = [] :=
  rfl

@[simp]
theorem copies_cons (effect : Effect Uri) (rest : List (Effect Uri)) :
    copies (effect :: rest) = effect.copy?.toList ++ copies rest := by
  cases effect <;> rfl

@[simp]
theorem copies_append (first second : List (Effect Uri)) :
    copies (first ++ second) = copies first ++ copies second :=
  List.filterMap_append

/-- Every copy is on the branch its effect launches. -/
theorem map_branch_copies (effects : List (Effect Uri)) :
    (copies effects).map Copy.branch = launches effects := by
  induction effects with
  | nil => rfl
  | cons effect rest ih => cases effect <;> simp [ih]

theorem copies_eq_nil_iff {effects : List (Effect Uri)} :
    copies effects = [] ↔ launches effects = [] := by
  rw [← map_branch_copies, List.map_eq_nil_iff]

end

variable (K : Kernel)

/-- The copy built from a plan, if one can be. -/
def buildCopy (config : ProxyConfig) (plan : ForwardPlan K.Uri) : Option (Copy K.Uri) :=
  match forward K plan config with
  | .error _ => none
  | .ok (branch, request, _) => some ⟨branch, request, plan.target⟩

/-- The context whose next group this step forks, and the request it is forked
for. -/
def forkedBy (context : ResponseContext K.Uri) (input : Input K.Uri) :
    Option (ResponseContext K.Uri × Request K.Uri) :=
  if context.finished then
    none
  else
    (targetedBy K context input).or do
      let request ← context.request
      let recorded ← recordedBy K context request input
      if recorded.hasPending || !recorded.mayForkNextGroup then none else some (recorded, request)

/-- What each copy of the next group is built from. -/
def groupPlans (context : ResponseContext K.Uri) (request : Request K.Uri)
    (validated : Validated) : List (ForwardPlan K.Uri) :=
  (nextGroup K context validated).mapIdx
    (forkPlan K context request validated (nextGroup K context validated).length)

/-- What the copies of the group this step forks are built from; nothing when it
forks none. -/
def plansOf (context : ResponseContext K.Uri) (input : Input K.Uri) : List (ForwardPlan K.Uri) :=
  ((forkedBy K context input).bind fun (forking, request) =>
    forking.validated.map (groupPlans K forking request)).getD []

variable {K}

/-! ## Launching a group -/

theorem copies_launch (config : ProxyConfig) (plan : Nat → Target → ForwardPlan K.Uri)
    (targetEq : ∀ offset target, (plan offset target).target = target) (offset : Nat)
    (group : List Target) :
    copies (launch K config plan offset group).1 =
      (group.mapIdx fun index target => plan (offset + index) target).filterMap
        (buildCopy K config) := by
  induction group generalizing offset with
  | nil => rfl
  | cons target rest ih =>
      have later := ih (offset + 1)
      have shift : (fun index target => plan (offset + 1 + index) target) =
          fun index target => plan (offset + (index + 1)) target := by
        funext index target
        rw [Nat.add_assoc, Nat.add_comm 1]
      rw [shift] at later
      unfold launch
      cases built : forward K (plan offset target) config with
      | error refused => simp [buildCopy, built, later]
      | ok copy =>
          obtain ⟨branch, forwarded, nextHop⟩ := copy
          by_cases isInvite : (plan offset target).original.method = .invite <;>
            simp [buildCopy, built, later, isInvite, targetEq]

theorem copies_launchGroup (context : ResponseContext K.Uri) (request : Request K.Uri)
    (validated : Validated) :
    copies (launchGroup K context request validated).1 =
      (groupPlans K context request validated).filterMap (buildCopy K context.config) := by
  rw [launchGroup, copies_launch _ _ fun _ _ => rfl]
  simp only [Nat.zero_add]
  rfl

/-- Forking forwards the copies of the next group that can be built. -/
theorem copies_forkNextGroup {context : ResponseContext K.Uri} {request : Request K.Uri}
    {validated : Validated} (requestEq : context.request = some request)
    (validatedEq : context.validated = some validated) (queued : context.queued ≠ []) :
    copies (forkNextGroup K context).2 =
      (groupPlans K context request validated).filterMap (buildCopy K context.config) := by
  rw [← copies_launchGroup]
  rcases forkNextGroup_cases requestEq validatedEq queued with
    ⟨noBranches, _, answered⟩ | ⟨_, forked⟩
  · have none_launched := (List.append_eq_nil_iff.mp noBranches).2
    rw [answered, copies_eq_nil_iff.mpr (launches_respondAndFinish _ _ _ _), eq_comm,
      copies_eq_nil_iff]
    apply (launch_effects _ _ _ _).2.2.1.trans
    exact List.map_eq_nil_iff.mpr none_launched
  · rw [forked]

/-! ## Steps that fork -/

/-- A predetermined request is routed to its Request-URI. -/
theorem routeIt_of_predetermined {context : ResponseContext K.Uri} {request : Request K.Uri}
    (requestEq : context.request = some request) (predetermined : isPredetermined K request = true) :
    routeIt K context =
      forkNextGroup K { context with queued := [predeterminedTarget K request] } := by
  have taken : onTargets K context [predeterminedTarget K request] =
      forkNextGroup K { context with queued := [predeterminedTarget K request] } := by
    simp [onTargets, requestEq, orderByQ]
  rcases Bool.or_eq_true_iff.mp predetermined with inDialog | routes
  · simp only [routeIt, requestEq, inDialog, if_true, taken]
  · simp only [routeIt, requestEq, routes, if_true, taken, ite_self]

theorem takesTargets_of_targetedBy {context targeted : ResponseContext K.Uri} {input : Input K.Uri}
    {request : Request K.Uri} (targets : targetedBy K context input = some (targeted, request)) :
    TakesTargets K context input targeted request := by
  unfold targetedBy at targets
  split at targets
  · next resolved =>
      split at targets
      · contradiction
      · next nonempty =>
          obtain ⟨held, requestEq, same⟩ := Option.map_eq_some_iff.mp targets
          obtain ⟨rfl, rfl⟩ := Prod.mk.inj same
          exact .resolved held resolved requestEq (by simpa using nonempty)
  · next arrived =>
      split at targets
      · contradiction
      · next validated accepted =>
          simp only at targets
          split at targets
          · next taken =>
              simp only [Bool.and_eq_true, Option.isNone_iff_eq_none] at taken
              obtain ⟨rfl, rfl⟩ := Prod.mk.inj (Option.some.inj targets)
              exact .predetermined (.arrival arrived validated accepted taken.1) taken.2
          · contradiction
  · next tenant =>
      obtain ⟨held, filtered, same⟩ := Option.map_eq_some_iff.mp targets
      obtain ⟨requestEq, taken⟩ := Option.filter_eq_some_iff.mp filtered
      simp only [Bool.and_eq_true] at taken
      obtain ⟨rfl, rfl⟩ := Prod.mk.inj same
      exact .predetermined (.verdict held tenant taken.1 requestEq) taken.2
  · contradiction

/-- Taking up targets forks their first group. -/
theorem onInput_of_takesTargets {context targeted : ResponseContext K.Uri} {input : Input K.Uri}
    {request : Request K.Uri} (unfinished : context.finished = false)
    (takes : TakesTargets K context input targeted request) :
    onInput K context input = forkNextGroup K targeted := by
  cases takes with
  | predetermined determines predetermined =>
      cases determines with
      | arrival arrived validated accepted untokened =>
          rw [← routeIt_of_predetermined rfl predetermined]
          simp [onInput, unfinished, onUpstream, accepted, untokened, arrivedContext]
      | verdict _ tenant awaiting requestEq =>
          have decided : ({ context with awaitingVerdict := false } :
              ResponseContext K.Uri).request = some request := requestEq
          rw [← routeIt_of_predetermined decided predetermined]
          simp [onInput, unfinished, onToken, awaiting]
  | resolved _ targets requestEq nonempty =>
      simp [onInput, unfinished, onTargets, requestEq, nonempty]

theorem records_of_recordedBy {context recorded : ResponseContext K.Uri} {input : Input K.Uri}
    {request : Request K.Uri} (records : recordedBy K context request input = some recorded) :
    ∃ branch, Records K context request input branch recorded := by
  unfold recordedBy at records
  split at records
  · next response branch =>
      split at records
      · contradiction
      · next receivable =>
          simp only [Bool.or_eq_true, not_or, Bool.not_eq_true, Bool.not_eq_eq_eq_not,
            Bool.not_true] at receivable
          obtain ⟨known, final⟩ := receivable
          by_cases failed : response.status.code = 503
          · rw [if_pos failed] at records
            rw [← Option.some.inj records]
            exact ⟨branch, .unavailable response branch (by simpa using known) failed⟩
          by_cases accepted : response.status.hundreds = 2 ∧ request.method = .invite
          · simp [failed, accepted] at records
          by_cases rejected : response.status.hundreds = 6
          · simp [failed, rejected] at records
          rw [if_neg failed, if_neg accepted, if_neg rejected] at records
          rw [← Option.some.inj records]
          exact ⟨branch, .received response branch (by simpa using known) final failed accepted
            rejected⟩
  · next branch =>
      split at records
      · next known =>
          rw [← Option.some.inj records]
          exact ⟨branch, .failed branch known⟩
      · contradiction
  · next branch =>
      split at records
      · next silent =>
          rw [← Option.some.inj records]
          exact ⟨branch, .silent branch silent⟩
      · contradiction
  · contradiction

/-- Recording a final goes on with selection. -/
theorem onInput_of_records {context recorded : ResponseContext K.Uri} {input : Input K.Uri}
    {request : Request K.Uri} {branch : BranchId} (unfinished : context.finished = false)
    (requestEq : context.request = some request)
    (records : Records K context request input branch recorded) :
    onInput K context input = continueSelection K recorded request := by
  cases records with
  | received response _ known final forwardable notAccepted notRejected =>
      have notTrying : response.status.code ≠ 100 := by
        intro trying
        have isProvisional := response.status.isProvisional_iff.mpr (by omega)
        rw [final] at isProvisional
        contradiction
      simp only [onInput, unfinished, onBranchResponse, requestEq, known, notTrying, final,
        forwardable, Bool.not_true, Bool.false_eq_true, if_false]
      rw [if_neg notAccepted, if_neg notRejected]
      rfl
  | unavailable response _ known failed =>
      have final : response.status.isProvisional = false := by
        simp [StatusCode.isProvisional, StatusCode.hundreds, failed]
      simp [onInput, unfinished, onBranchResponse, requestEq, known, failed, final,
        onBranchFailure]
  | failed _ known => simp [onInput, unfinished, onBranchFailure, requestEq, known]
  | silent _ silent => simp [onInput, unfinished, onTimerC, silent, concludeAsTimeout, requestEq]

/-- A step that takes up no targets and records no final forwards nothing. -/
theorem Step.copies_of_unforked {context : ResponseContext K.Uri} {input : Input K.Uri}
    {outcome : Outcome K.Uri} (step : Step K context input outcome)
    (untargeted : targetedBy K context input = none)
    (unrecorded : ∀ request, context.request = some request →
      recordedBy K context request input = none) : copies outcome.2 = [] := by
  rw [copies_eq_nil_iff]
  cases step with
  | absorbed _ => rfl
  | premature _ _ => rfl
  | minted _ => rfl
  | refused request refusal _ => exact (refuse_effects context request refusal).2.2.1
  | held _ _ _ _ _ => rfl
  | asked _ _ => rfl
  | taken takes _ =>
      rw [takes.targetedBy_eq] at untargeted
      contradiction
  | concluded _ _ => exact launches_respondAndFinish _ _ _ _
  | provisional response branch request _ _ _ _ =>
      exact (forwardProvisional_effects context request response branch).2.2.1
  | accepted _ _ _ _ _ _ _ => simp [cancelPending]
  | rejected response branch _ _ _ _ =>
      rw [finishIfSettled_rejected]
      split <;> simp [cancelPending]
  | recorded requestEq records _ =>
      have none_recorded := unrecorded _ requestEq
      rw [records.recordedBy_eq] at none_recorded
      contradiction
  | stopped _ _ => rfl
  | withdrawn => exact (onUpstreamCancelled_effects context).2.2.1

/-- Selection forwards nothing. -/
theorem copies_selectAndAnswer {context : ResponseContext K.Uri}
    (settled : context.hasPending = false) (request : Request K.Uri) :
    copies (selectAndAnswer K context request).2 = [] := by
  rw [copies_eq_nil_iff]
  rcases selectAndAnswer_cases settled request with
    ⟨_, selected⟩ | ⟨_, selected⟩ | ⟨_, best, response, _, _, _, selected⟩
  · rw [selected]
    rfl
  · rw [selected]
    exact launches_respondAndFinish _ _ _ _
  · rw [selected]
    rfl

/-- How a step goes: the context is over, it takes up targets and forks their first
group, it records a final and goes on with selection, or it does neither. -/
inductive Course (context : ResponseContext K.Uri) (input : Input K.Uri) : Prop where
  | ended (finished : context.finished = true) : Course context input
  | takes {targeted : ResponseContext K.Uri} {request : Request K.Uri} {validated : Validated}
      (unfinished : context.finished = false)
      (takes : TakesTargets K context input targeted request)
      (validatedEq : targeted.validated = some validated)
      (forks : onInput K context input = forkNextGroup K targeted) : Course context input
  | records {request : Request K.Uri} {branch : BranchId} {recorded : ResponseContext K.Uri}
      {validated : Validated} (unfinished : context.finished = false)
      (requestEq : context.request = some request)
      (records : Records K context request input branch recorded)
      (validatedEq : recorded.validated = some validated)
      (continues : onInput K context input = continueSelection K recorded request) :
      Course context input
  | stands (unfinished : context.finished = false)
      (untargeted : targetedBy K context input = none)
      (unrecorded : ∀ request, context.request = some request →
        recordedBy K context request input = none) : Course context input

theorem Records.untargeted {context recorded : ResponseContext K.Uri} {input : Input K.Uri}
    {request : Request K.Uri} {branch : BranchId}
    (records : Records K context request input branch recorded) :
    targetedBy K context input = none := by
  cases records <;> rfl

theorem onInput_course {context : ResponseContext K.Uri} (coherent : Coherent context)
    (input : Input K.Uri) : Course context input := by
  cases finished : context.finished with
  | true => exact .ended finished
  | false =>
      cases targets : targetedBy K context input with
      | some taken =>
          have takes := takesTargets_of_targetedBy targets
          obtain ⟨validated, validatedEq⟩ := takes.exists_validated coherent
          exact .takes finished takes validatedEq (onInput_of_takesTargets finished takes)
      | none =>
          cases requestEq : context.request with
          | none => exact .stands finished targets (by simp [requestEq])
          | some request =>
              cases records : recordedBy K context request input with
              | none => exact .stands finished targets (by simp [requestEq, records])
              | some recorded =>
                  obtain ⟨branch, recording⟩ := records_of_recordedBy records
                  obtain ⟨validated, validatedEq⟩ := coherent.exists_validated requestEq
                  obtain ⟨status, final, recordedEq⟩ := recording.frame
                  have sameValidated : recorded.validated = some validated := by
                    rw [recordedEq]
                    exact validatedEq
                  exact .records finished requestEq recording sameValidated
                    (onInput_of_records finished requestEq recording)

/-! ## What a step forwards -/

/-- The queue of a context that may fork is not empty. -/
theorem queued_ne_nil_of_mayFork {Uri : Type} {context : ResponseContext Uri}
    (mayFork : context.mayForkNextGroup = true) : context.queued ≠ [] := by
  intro empty
  simp [mayForkNextGroup, empty] at mayFork

theorem plansOf_of_takes {context targeted : ResponseContext K.Uri} {input : Input K.Uri}
    {request : Request K.Uri} {validated : Validated} (unfinished : context.finished = false)
    (takes : TakesTargets K context input targeted request)
    (validatedEq : targeted.validated = some validated) :
    plansOf K context input = groupPlans K targeted request validated := by
  simp [plansOf, forkedBy, unfinished, takes.targetedBy_eq, validatedEq]

theorem plansOf_of_records {context recorded : ResponseContext K.Uri} {input : Input K.Uri}
    {request : Request K.Uri} {branch : BranchId} {validated : Validated}
    (unfinished : context.finished = false) (requestEq : context.request = some request)
    (records : Records K context request input branch recorded)
    (validatedEq : recorded.validated = some validated) :
    plansOf K context input =
      if recorded.hasPending || !recorded.mayForkNextGroup then []
      else groupPlans K recorded request validated := by
  have forked : forkedBy K context input =
      if recorded.hasPending || !recorded.mayForkNextGroup then none
      else some (recorded, request) := by
    simp [forkedBy, unfinished, records.untargeted, requestEq, records.recordedBy_eq]
  rw [plansOf, forked]
  split
  · rfl
  · simp [validatedEq]

theorem plansOf_of_finished {context : ResponseContext K.Uri} (finished : context.finished = true)
    (input : Input K.Uri) : plansOf K context input = [] := by
  simp [plansOf, forkedBy, finished]

theorem plansOf_of_stands {context : ResponseContext K.Uri} {input : Input K.Uri}
    (untargeted : targetedBy K context input = none)
    (unrecorded : ∀ request, context.request = some request →
      recordedBy K context request input = none) : plansOf K context input = [] := by
  cases requestEq : context.request with
  | none => simp [plansOf, forkedBy, untargeted, requestEq]
  | some request =>
      simp [plansOf, forkedBy, untargeted, requestEq, unrecorded request requestEq]

/-- A step forwards the copies of its group that can be built. -/
theorem onInput_copies {context : ResponseContext K.Uri} (coherent : Coherent context)
    (input : Input K.Uri) :
    copies (onInput K context input).2 =
      (plansOf K context input).filterMap (buildCopy K context.config) := by
  cases onInput_course coherent input with
  | ended finished => simp [onInput_finished finished, plansOf_of_finished finished]
  | takes unfinished takes validatedEq forks =>
      rw [forks, plansOf_of_takes unfinished takes validatedEq, ← takes.frame.config]
      exact copies_forkNextGroup takes.request_eq validatedEq takes.queued_ne_nil
  | @records request branch recorded validated unfinished requestEq records validatedEq continues =>
      obtain ⟨status, final, recordedEq⟩ := records.frame
      have sameRequest : recorded.request = some request := by rw [recordedEq]; exact requestEq
      have sameConfig : recorded.config = context.config := by rw [recordedEq]; rfl
      rw [continues, plansOf_of_records unfinished requestEq records validatedEq, ← sameConfig,
        continueSelection]
      cases pending : recorded.hasPending with
      | true => rfl
      | false =>
          cases mayFork : recorded.mayForkNextGroup with
          | true =>
              simpa using copies_forkNextGroup sameRequest validatedEq
                (queued_ne_nil_of_mayFork mayFork)
          | false => simpa using copies_selectAndAnswer pending request
  | stands unfinished untargeted unrecorded =>
      have step := onInput_step coherent unfinished input
      rw [step.copies_of_unforked untargeted unrecorded, plansOf_of_stands untargeted unrecorded]
      rfl

/-! ## What a run forwards -/

variable (K)

/-- The groups the run forks: what each step tries to build, in order. -/
def forkedGroups (config : ProxyConfig) (inputs : List (Input K.Uri)) :
    List (List (ForwardPlan K.Uri)) :=
  observed (onInput K) (plansOf K) (.new config) inputs

/-- Whether the copy of a plan can be built. -/
def builds (config : ProxyConfig) (plan : ForwardPlan K.Uri) : Bool :=
  (buildCopy K config plan).isSome

variable {K}

theorem forkedGroups_concat (config : ProxyConfig) (past : List (Input K.Uri))
    (input : Input K.Uri) :
    forkedGroups K config (past ++ [input]) =
      forkedGroups K config past ++ [plansOf K (after (onInput K) (.new config) past) input] :=
  observed_concat (onInput K) (plansOf K) (.new config) past input

/-- A run forwards the copies of its groups that can be built. -/
theorem copies_emitted (config : ProxyConfig) (inputs : List (Input K.Uri)) :
    copies (emitted (onInput K) (.new config) inputs) =
      (forkedGroups K config inputs).flatten.filterMap (buildCopy K config) := by
  induction inputs using List.reverseRecOn with
  | nil => rfl
  | append_singleton past input ih =>
      rw [emitted_concat, copies_append, ih, onInput_copies (coherent_after config past),
        config_after, forkedGroups_concat]
      simp

/-- As many branches are held as copies were built. -/
theorem length_branches_after (config : ProxyConfig) (inputs : List (Input K.Uri)) :
    (after (onInput K) (.new config) inputs).branches.length =
      ((forkedGroups K config inputs).flatten.filter (builds K config)).length := by
  rw [← List.length_map (Branch.id), ids_after, ← map_branch_copies, List.length_map,
    copies_emitted, List.length_filterMap_eq_countP, ← List.countP_eq_length_filter]
  rfl

/-- The copies of a group are numbered on from the branches held. -/
theorem map_index_plansOf {context : ResponseContext K.Uri} (coherent : Coherent context)
    (input : Input K.Uri) :
    (plansOf K context input).map ForwardPlan.index =
      List.range' context.branches.length (plansOf K context input).length := by
  have numbered : ∀ (forking : ResponseContext K.Uri) (request : Request K.Uri)
      (validated : Validated), forking.branches.length = context.branches.length →
        (groupPlans K forking request validated).map ForwardPlan.index =
          List.range' context.branches.length (groupPlans K forking request validated).length := by
    intro forking request validated sameLength
    apply List.ext_getElem
    · simp
    · intro offset _ _
      simp [groupPlans, forkPlan, sameLength]
  cases onInput_course coherent input with
  | ended finished => simp [plansOf_of_finished finished]
  | takes unfinished takes validatedEq _ =>
      rw [plansOf_of_takes unfinished takes validatedEq]
      exact numbered _ _ _ (by rw [takes.frame.branches])
  | records unfinished requestEq records validatedEq _ =>
      rw [plansOf_of_records unfinished requestEq records validatedEq]
      split
      · rfl
      · obtain ⟨status, final, recordedEq⟩ := records.frame
        apply numbered
        rw [recordedEq]
        simp [concludeBranch, updateBranch]
  | stands _ untargeted unrecorded => simp [plansOf_of_stands untargeted unrecorded]

end SipxClstr.Proxy
