import SipxClstr.Proxy.Step
import SipxClstr.Sip.Reference

/-!
# What every run keeps

The invariants of a response context that hold after any inputs whatever: it
stays coherent, it never takes back that it answered or finished, and the
branches it holds are the branches it forwarded.
-/

namespace SipxClstr.Proxy

open SipxClstr.Sip ResponseContext Reactive Reactive.Machine

section Branches

variable {Uri : Type}

theorem knows_iff {context : ResponseContext Uri} {branch : BranchId} :
    context.knows branch = true ↔ branch ∈ context.branches.map Branch.id := by
  simp [knows]

/-- Changing states changes no id. -/
@[simp]
theorem map_id_updateBranch (context : ResponseContext Uri) (branch : BranchId)
    (change : BranchState → BranchState) :
    (context.updateBranch branch change).branches.map Branch.id =
      context.branches.map Branch.id := by
  simp only [updateBranch, List.map_map]
  apply List.map_congr_left
  intro entry _
  simp only [Function.comp_apply]
  split <;> rfl

@[simp]
theorem map_id_cancelPending (context : ResponseContext Uri) :
    context.cancelPending.1.branches.map Branch.id = context.branches.map Branch.id := by
  simp only [cancelPending, List.map_map]
  apply List.map_congr_left
  intro entry _
  simp only [Function.comp_apply]
  split <;> rfl

/-- The parts of a context that only branch bookkeeping leaves alone. -/
structure SameButBranches (before after : ResponseContext Uri) : Prop where
  config : after.config = before.config
  request : after.request = before.request
  validated : after.validated = before.validated
  queued : after.queued = before.queued
  finals : after.finals = before.finals
  answered : after.answered = before.answered
  finished : after.finished = before.finished
  awaitingVerdict : after.awaitingVerdict = before.awaitingVerdict
  ids : after.branches.map Branch.id = before.branches.map Branch.id

theorem SameButBranches.trans {first second third : ResponseContext Uri}
    (left : SameButBranches first second) (right : SameButBranches second third) :
    SameButBranches first third where
  config := right.config.trans left.config
  request := right.request.trans left.request
  validated := right.validated.trans left.validated
  queued := right.queued.trans left.queued
  finals := right.finals.trans left.finals
  answered := right.answered.trans left.answered
  finished := right.finished.trans left.finished
  awaitingVerdict := right.awaitingVerdict.trans left.awaitingVerdict
  ids := right.ids.trans left.ids

theorem sameButBranches_updateBranch (context : ResponseContext Uri) (branch : BranchId)
    (change : BranchState → BranchState) :
    SameButBranches context (context.updateBranch branch change) :=
  ⟨rfl, rfl, rfl, rfl, rfl, rfl, rfl, rfl, map_id_updateBranch context branch change⟩

theorem sameButBranches_cancelOrQueue (pending : List (BranchId × Bool))
    (context : ResponseContext Uri) :
    SameButBranches context (cancelOrQueue context pending).1 := by
  induction pending generalizing context with
  | nil => exact ⟨rfl, rfl, rfl, rfl, rfl, rfl, rfl, rfl, rfl⟩
  | cons entry rest ih =>
      obtain ⟨branch, saw⟩ := entry
      cases saw with
      | true => exact (sameButBranches_updateBranch context branch _).trans (ih _)
      | false => exact (sameButBranches_updateBranch context branch _).trans (ih _)

theorem cancelOrQueue_effects (pending : List (BranchId × Bool)) (context : ResponseContext Uri) :
    (cancelOrQueue context pending).2 =
      ((pending.filter Prod.snd).map Prod.fst).map .cancelBranch := by
  induction pending generalizing context with
  | nil => rfl
  | cons entry rest ih =>
      obtain ⟨branch, saw⟩ := entry
      cases saw <;> simp [cancelOrQueue, ih]

/-- A withdrawal acknowledges the CANCEL and cancels the pending branches that
have been heard from. -/
theorem onUpstreamCancelled_snd (context : ResponseContext Uri) :
    (onUpstreamCancelled context).2 =
      .answerCancel ::
        ((context.pendingWithProvisional.filter Prod.snd).map Prod.fst).map .cancelBranch := by
  simp only [onUpstreamCancelled, cancelOrQueue_effects]
  rfl

theorem onUpstreamCancelled_effects (context : ResponseContext Uri) :
    answers (onUpstreamCancelled context).2 = [] ∧
      cancels (onUpstreamCancelled context).2 =
          (context.pendingWithProvisional.filter Prod.snd).map Prod.fst ∧
        launches (onUpstreamCancelled context).2 = [] ∧
          queries (onUpstreamCancelled context).2 = [] := by
  rw [onUpstreamCancelled_snd, answers_cons, answers_map_cancelBranch, cancels_cons,
    cancels_map_cancelBranch, launches_cons, launches_map_cancelBranch, queries_cons,
    queries_map_cancelBranch]
  exact ⟨rfl, rfl, rfl, rfl⟩

theorem sameButBranches_onUpstreamCancelled (context : ResponseContext Uri) :
    SameButBranches context.concludeTargetSet (onUpstreamCancelled context).1 :=
  sameButBranches_cancelOrQueue _ _

theorem sameButBranches_forwardProvisional {K : Kernel} (context : ResponseContext K.Uri)
    (request : Request K.Uri) (response : Response) (branch : BranchId) :
    SameButBranches context (forwardProvisional K context request response branch).1 := by
  have marked : SameButBranches context (context.markProvisional branch).1 :=
    sameButBranches_updateBranch context branch _
  rw [forwardProvisional_fst]
  split
  · exact marked.trans (sameButBranches_updateBranch _ branch _)
  · exact marked

/-- Whatever changes only branches keeps a context coherent. -/
theorem SameButBranches.coherent {before after : ResponseContext Uri}
    (same : SameButBranches before after) (coherent : Coherent before) : Coherent after where
  validated := by rw [same.request, same.validated]; exact coherent.validated
  awaiting awaiting := by
    rw [same.awaitingVerdict] at awaiting
    rw [same.request]
    exact coherent.awaiting awaiting
  branches nonempty := by
    rw [same.request]
    apply coherent.branches
    intro empty
    apply nonempty
    have ids := same.ids
    rw [empty] at ids
    exact List.map_eq_nil_iff.mp ids

/-- A context that has its request and what validation learned is coherent. -/
theorem coherent_of_some {context : ResponseContext Uri} {request : Request Uri}
    {validated : Validated} (requestEq : context.request = some request)
    (validatedEq : context.validated = some validated) : Coherent context where
  validated := by rw [requestEq, validatedEq]; rfl
  awaiting _ := by rw [requestEq]; rfl
  branches _ := by rw [requestEq]; rfl

end Branches

variable {K : Kernel}

/-! ## One step -/

/-- What a step does to a context, whichever move it is. -/
structure Advances (before : ResponseContext K.Uri) (outcome : Outcome K.Uri) : Prop where
  config : outcome.1.config = before.config
  request : before.request.isSome = true → outcome.1.request.isSome = true
  coherent : Coherent outcome.1
  answered : before.answered = true → outcome.1.answered = true
  finished : before.finished = true → outcome.1.finished = true
  ids : outcome.1.branches.map Branch.id = before.branches.map Branch.id ++ launches outcome.2

theorem SameButBranches.advances {before : ResponseContext K.Uri} {outcome : Outcome K.Uri}
    (same : SameButBranches before outcome.1) (coherent : Coherent before)
    (noLaunch : launches outcome.2 = []) : Advances before outcome where
  config := same.config
  request some_ := by rw [same.request]; exact some_
  coherent := same.coherent coherent
  answered answered := by rw [same.answered]; exact answered
  finished finished := by rw [same.finished]; exact finished
  ids := by rw [same.ids, noLaunch, List.append_nil]

/-- Advancing to a context that has its request, then taking a tail from it. -/
theorem Tail.advances {before middle : ResponseContext K.Uri} {request : Request K.Uri}
    {validated : Validated} {outcome : Outcome K.Uri} (tail : Tail K middle request outcome)
    (config : middle.config = before.config) (requestEq : middle.request = some request)
    (validatedEq : middle.validated = some validated)
    (answered : before.answered = true → middle.answered = true)
    (finished : before.finished = true → middle.finished = true)
    (ids : middle.branches.map Branch.id = before.branches.map Branch.id) :
    Advances before outcome where
  config := tail.request_eq.1.trans config
  request _ := by rw [tail.request_eq.2.1, requestEq]; rfl
  coherent := coherent_of_some (tail.request_eq.2.1.trans requestEq)
    (tail.request_eq.2.2.1.trans validatedEq)
  answered wasAnswered := tail.answered_mono (answered wasAnswered)
  finished wasFinished := tail.finished_mono (finished wasFinished)
  ids := by
    obtain ⟨launched, branchesEq, launchesEq, -⟩ := tail.branches_eq
    rw [branchesEq, launchesEq, List.map_append, ids]

/-- Every move advances a coherent context. -/
theorem Step.advances {context : ResponseContext K.Uri} {input : Input K.Uri}
    {outcome : Outcome K.Uri} (coherent : Coherent context)
    (step : Step K context input outcome) : Advances context outcome := by
  cases step with
  | absorbed _ => exact ⟨rfl, id, coherent, id, id, by simp⟩
  | premature _ _ =>
      exact ⟨rfl, id, ⟨coherent.validated, coherent.awaiting, coherent.branches⟩, id,
        fun _ => rfl, by simp [terminate]⟩
  | minted _ =>
      exact ⟨rfl, id, ⟨coherent.validated, coherent.awaiting, coherent.branches⟩, id, id, by simp⟩
  | refused request refusal _ =>
      unfold refuse
      split <;>
        exact ⟨rfl, id, ⟨coherent.validated, coherent.awaiting, coherent.branches⟩, id,
          fun _ => rfl, by simp⟩
  | held request validated carriage _ _ =>
      exact ⟨rfl, fun _ => rfl, coherent_of_some rfl rfl, id, id, by simp [arrivedContext]⟩
  | asked determines _ =>
      obtain ⟨validated, validatedEq⟩ := determines.exists_validated coherent
      have frame := determines.frame
      exact ⟨frame.config, fun _ => by simp [determines.request_eq],
        coherent_of_some determines.request_eq validatedEq, frame.answered.trans,
        frame.finished.trans, by simp [frame.branches]⟩
  | taken takes tail =>
      obtain ⟨validated, validatedEq⟩ := takes.exists_validated coherent
      have frame := takes.frame
      exact tail.advances frame.config takes.request_eq validatedEq frame.answered.trans
        frame.finished.trans (by rw [frame.branches])
  | concluded requestEq concludes =>
      have frame := concludes.frame
      have coherentAfter := coherent
      obtain ⟨validated, validatedEq⟩ := coherent.exists_validated requestEq
      refine ⟨?_, ?_, ?_, ?_, ?_, ?_⟩ <;> rw [respondAndFinish_fst]
      · exact frame.config
      · cases concludes <;> exact id
      · cases concludes <;> exact coherent_of_some requestEq validatedEq
      · exact fun _ => rfl
      · exact fun _ => rfl
      · simp [frame.branches]
  | provisional response branch request _ _ _ _ =>
      exact (sameButBranches_forwardProvisional context request response branch).advances coherent
        (forwardProvisional_effects context request response branch).2.2.1
  | accepted response branch request requestEq known _ _ =>
      obtain ⟨validated, validatedEq⟩ := coherent.exists_validated requestEq
      refine ⟨rfl, id, coherent_of_some requestEq validatedEq, fun _ => rfl, id, ?_⟩
      rw [map_id_cancelPending]
      simp [acceptedContext, concludeBranch, cancelPending]
  | rejected response branch request requestEq known _ =>
      obtain ⟨validated, validatedEq⟩ := coherent.exists_validated requestEq
      rw [finishIfSettled_rejected]
      split
      · refine ⟨rfl, id, coherent_of_some requestEq validatedEq, fun _ => rfl, id, ?_⟩
        rw [map_id_cancelPending]
        simp [rejectedContext, concludeBranch, cancelPending]
      · refine ⟨rfl, id, coherent_of_some requestEq validatedEq, fun _ => rfl, fun _ => rfl, ?_⟩
        rw [map_id_cancelPending]
        simp [rejectedContext, concludeBranch, cancelPending]
  | recorded requestEq records tail =>
      obtain ⟨validated, validatedEq⟩ := coherent.exists_validated requestEq
      obtain ⟨status, final, recordedEq⟩ := records.frame
      subst recordedEq
      exact tail.advances rfl requestEq validatedEq id id
        (map_id_updateBranch context _ fun _ => .concluded status)
  | stopped branch _ =>
      have same : SameButBranches context (context.setCancelling branch) :=
        sameButBranches_updateBranch context branch _
      exact same.advances coherent (by simp)
  | withdrawn =>
      have same := sameButBranches_onUpstreamCancelled context
      have cleared : Coherent context.concludeTargetSet :=
        ⟨coherent.validated, coherent.awaiting, coherent.branches⟩
      have advances := same.advances cleared (onUpstreamCancelled_effects context).2.2.1
      exact ⟨advances.config, advances.request, advances.coherent, advances.answered,
        advances.finished, advances.ids⟩

/-- Every step of a coherent context advances it. -/
theorem onInput_advances {context : ResponseContext K.Uri} (coherent : Coherent context)
    (input : Input K.Uri) : Advances context (onInput K context input) := by
  cases finished : context.finished with
  | true =>
      rw [onInput_finished finished]
      exact ⟨rfl, id, coherent, id, id, by simp⟩
  | false => exact (onInput_step coherent finished input).advances coherent

/-- The request held changes only when one arrives. -/
theorem Step.request_cases {context : ResponseContext K.Uri} {input : Input K.Uri}
    {outcome : Outcome K.Uri} (step : Step K context input outcome) :
    outcome.1.request = context.request ∨
      ∃ request, input = .upstream request ∧
        outcome.1.request = some (preprocess K request context.config).1 := by
  have determined : ∀ {middle : ResponseContext K.Uri} {request : Request K.Uri},
      Determines K context input middle request →
        middle.request = context.request ∨ ∃ arrived, input = .upstream arrived ∧
          middle.request = some (preprocess K arrived context.config).1 := by
    intro middle request determines
    cases determines with
    | arrival arrived _ _ _ => exact .inr ⟨arrived, rfl, rfl⟩
    | verdict _ _ _ _ => exact .inl rfl
  cases step with
  | absorbed _ => exact .inl rfl
  | premature _ _ => exact .inl rfl
  | minted _ => exact .inl rfl
  | refused request refusal _ =>
      unfold refuse
      split <;> exact .inl rfl
  | held request _ _ _ _ => exact .inr ⟨request, rfl, rfl⟩
  | asked determines _ => exact determined determines
  | taken takes tail =>
      rw [tail.request_eq.2.1]
      cases takes with
      | predetermined determines _ =>
          have held := determined determines
          exact held
      | resolved _ _ _ _ => exact .inl rfl
  | concluded _ concludes =>
      rw [respondAndFinish_fst]
      cases concludes <;> exact .inl rfl
  | provisional response branch request _ _ _ _ =>
      exact .inl (sameButBranches_forwardProvisional context request response branch).request
  | accepted _ _ _ _ _ _ _ => exact .inl rfl
  | rejected response branch _ _ _ _ =>
      rw [finishIfSettled_rejected]
      split <;> exact .inl rfl
  | recorded _ records tail =>
      obtain ⟨status, final, recordedEq⟩ := records.frame
      rw [tail.request_eq.2.1, recordedEq]
      exact .inl rfl
  | stopped _ _ => exact .inl rfl
  | withdrawn => exact .inl (sameButBranches_onUpstreamCancelled context).request

theorem onInput_request {context : ResponseContext K.Uri} (coherent : Coherent context)
    (input : Input K.Uri) :
    (onInput K context input).1.request = context.request ∨
      ∃ request, input = .upstream request ∧
        (onInput K context input).1.request = some (preprocess K request context.config).1 := by
  cases finished : context.finished with
  | true => exact .inl (by rw [onInput_finished finished])
  | false => exact (onInput_step coherent finished input).request_cases

/-- The request a step leaves is the one held, or one that arrived and validated. -/
theorem Step.respondable {context : ResponseContext K.Uri} {input : Input K.Uri}
    {outcome : Outcome K.Uri} (step : Step K context input outcome)
    (held : ∀ request, context.request = some request → isRespondable K request = true) :
    ∀ request, outcome.1.request = some request → isRespondable K request = true := by
  have arrives : ∀ {arrived : Request K.Uri} {validated : Validated},
      validate K arrived context.config = .ok validated →
        isRespondable K (preprocess K arrived context.config).1 = true := by
    intro arrived validated accepted
    rw [isRespondable_preprocess]
    exact isRespondable_of_validate K accepted
  have determined : ∀ {middle : ResponseContext K.Uri} {request : Request K.Uri},
      Determines K context input middle request → isRespondable K request = true := by
    intro middle request determines
    cases determines with
    | arrival arrived _ accepted _ => exact arrives accepted
    | verdict request _ _ requestEq => exact held request requestEq
  intro request requestEq
  cases step with
  | absorbed _ => exact held request requestEq
  | premature _ _ => exact held request requestEq
  | minted _ => exact held request requestEq
  | refused arrived refusal _ =>
      rw [refuse_fst] at requestEq
      exact held request requestEq
  | held arrived _ _ accepted _ =>
      rw [← Option.some.inj requestEq]
      exact arrives accepted
  | asked determines _ =>
      rw [determines.request_eq] at requestEq
      rw [← Option.some.inj requestEq]
      exact determined determines
  | taken takes tail =>
      rw [tail.request_eq.2.1, takes.request_eq] at requestEq
      rw [← Option.some.inj requestEq]
      cases takes with
      | predetermined determines _ => exact determined determines
      | resolved _ _ heldEq _ => exact held _ heldEq
  | concluded _ concludes =>
      rw [respondAndFinish_fst] at requestEq
      cases concludes <;> exact held request requestEq
  | provisional response branch request' _ _ _ _ =>
      have same := sameButBranches_forwardProvisional context request' response branch
      exact held request (same.request.symm.trans requestEq)
  | accepted _ _ _ _ _ _ _ => exact held request requestEq
  | rejected response branch _ _ _ _ =>
      rw [finishIfSettled_rejected] at requestEq
      split at requestEq <;> exact held request requestEq
  | recorded _ records tail =>
      obtain ⟨status, final, recordedEq⟩ := records.frame
      rw [tail.request_eq.2.1, recordedEq] at requestEq
      exact held request requestEq
  | stopped _ _ => exact held request requestEq
  | withdrawn =>
      exact held request ((sameButBranches_onUpstreamCancelled context).request.symm.trans requestEq)

/-- Finals are recorded for branches only. -/
theorem Step.finals_cases {context : ResponseContext K.Uri} {input : Input K.Uri}
    {outcome : Outcome K.Uri} (step : Step K context input outcome) :
    outcome.1.finals = context.finals ∨ context.branches ≠ [] := by
  have known_branches : ∀ {branch}, context.knows branch = true → context.branches ≠ [] := by
    intro branch known empty
    simp [knows, empty] at known
  cases step with
  | absorbed _ => exact .inl rfl
  | premature _ _ => exact .inl rfl
  | minted _ => exact .inl rfl
  | refused arrived refusal _ => exact .inl (by rw [refuse_fst])
  | held _ _ _ _ _ => exact .inl rfl
  | asked determines _ => exact .inl determines.frame.finals
  | taken takes tail => exact .inl (tail.finals_eq.trans takes.frame.finals)
  | concluded _ concludes =>
      rw [respondAndFinish_fst]
      exact .inl concludes.frame.finals
  | provisional _ _ _ _ known _ _ => exact .inr (known_branches known)
  | accepted _ _ _ _ known _ _ => exact .inr (known_branches known)
  | rejected _ _ _ _ known _ => exact .inr (known_branches known)
  | recorded _ records _ =>
      cases records with
      | received _ _ known _ _ _ _ => exact .inr (known_branches known)
      | unavailable _ _ known _ => exact .inr (known_branches known)
      | failed _ known => exact .inr (known_branches known)
      | silent _ silent =>
          obtain ⟨entry, member, -⟩ := knows_of_sawProvisional silent
          exact .inr (List.ne_nil_of_mem member)
  | stopped _ _ => exact .inl rfl
  | withdrawn => exact .inl (sameButBranches_onUpstreamCancelled context).finals

/-! ## Every run -/

variable (config : ProxyConfig)

theorem coherent_after (inputs : List (Input K.Uri)) :
    Coherent (after (onInput K) (.new config) inputs) :=
  invariant_always (onInput K) Coherent
    (fun _ input coherent => (onInput_advances coherent input).coherent) (coherent_new config) inputs

/-- Induction over a run by its moves.  A finished context takes nothing in, so a
property of what was emitted and of the state reached is kept if the moves of
unfinished, coherent contexts keep it wherever `condition` holds. -/
theorem step_induction {condition : ResponseContext K.Uri → Input K.Uri → Prop}
    {start : ResponseContext K.Uri} (coherent : Coherent start)
    (property : List (Effect K.Uri) → ResponseContext K.Uri → Prop) (base : property [] start)
    (preserved : ∀ effects state input outcome, property effects state →
      state.finished = false → Coherent state → condition state input →
        Step K state input outcome → property (effects ++ outcome.2) outcome.1)
    {inputs : List (Input K.Uri)} (along : Along (onInput K) condition start inputs) :
    property (emitted (onInput K) start inputs) (after (onInput K) start inputs) := by
  have both := run_induction (onInput K)
    (fun _ effects state => Coherent state ∧ property effects state) ⟨coherent, base⟩
    (fun _ effects state input holds condition => by
      refine ⟨(onInput_advances holds.1 input).coherent, ?_⟩
      cases finished : state.finished with
      | true =>
          rw [onInput_finished finished, List.append_nil]
          exact holds.2
      | false =>
          exact preserved effects state input _ holds.2 finished holds.1 condition
            (onInput_step holds.1 finished input))
    along
  exact both.2

/-- A finished context emits nothing more, whatever arrives. -/
theorem emitted_of_finished {context : ResponseContext K.Uri} (finished : context.finished = true)
    (inputs : List (Input K.Uri)) : emitted (onInput K) context inputs = [] := by
  induction inputs with
  | nil => rfl
  | cons input rest ih => rw [emitted_cons, onInput_finished finished, ih]; rfl

/-- A finished context stays as it is, whatever arrives. -/
theorem after_of_finished {context : ResponseContext K.Uri} (finished : context.finished = true)
    (inputs : List (Input K.Uri)) : after (onInput K) context inputs = context := by
  induction inputs with
  | nil => rfl
  | cons input rest ih => rw [after_cons, onInput_finished finished, ih]

theorem config_after (inputs : List (Input K.Uri)) :
    (after (onInput K) (.new config) inputs).config = config :=
  step_induction (coherent_new config) (fun _ state => state.config = config) rfl
    (fun _ _ _ _ same _ coherent _ step => (step.advances coherent).config.trans same)
    (along_of_forall (onInput K) (fun _ _ => trivial) _ inputs)

/-- The branches held are the branches forwarded, in order. -/
theorem ids_after (inputs : List (Input K.Uri)) :
    (after (onInput K) (.new config) inputs).branches.map Branch.id =
      launches (emitted (onInput K) (.new config) inputs) :=
  step_induction (coherent_new config)
    (fun effects state => state.branches.map Branch.id = launches effects) rfl
    (fun _ _ _ _ same _ coherent _ step => by
      rw [(step.advances coherent).ids, same, launches_append])
    (along_of_forall (onInput K) (fun _ _ => trivial) _ inputs)

/-- A branch is known exactly when it was forwarded. -/
theorem knows_after_iff (inputs : List (Input K.Uri)) (branch : BranchId) :
    (after (onInput K) (.new config) inputs).knows branch = true ↔
      branch ∈ launches (emitted (onInput K) (.new config) inputs) := by
  rw [knows_iff, ids_after]

/-- The request held is one that arrived, as preprocessing left it. -/
theorem request_after (inputs : List (Input K.Uri)) {request : Request K.Uri}
    (held : (after (onInput K) (.new config) inputs).request = some request) :
    ∃ arrived config, .upstream arrived ∈ inputs ∧ request = (preprocess K arrived config).1 := by
  have both := run_always (onInput K)
    (fun past _ state => Coherent state ∧ ∀ request, state.request = some request →
      ∃ arrived config, .upstream arrived ∈ past ∧ request = (preprocess K arrived config).1)
    ⟨coherent_new config, by simp [ResponseContext.new]⟩
    (fun past _ state input invariant => by
      refine ⟨(onInput_advances invariant.1 input).coherent, fun request held => ?_⟩
      rcases onInput_request invariant.1 input with same | ⟨arrived, inputEq, arrivedEq⟩
      · rw [same] at held
        obtain ⟨arrived, config, member, requestEq⟩ := invariant.2 request held
        exact ⟨arrived, config, List.mem_append_left _ member, requestEq⟩
      · rw [arrivedEq, Option.some.injEq] at held
        exact ⟨arrived, state.config, by simp [inputEq], held.symm⟩)
    inputs
  exact both.2 request held

/-- The request a run holds can be answered. -/
theorem respondable_after (inputs : List (Input K.Uri)) {request : Request K.Uri}
    (held : (after (onInput K) (.new config) inputs).request = some request) :
    isRespondable K request = true :=
  step_induction (coherent_new config)
    (fun _ state => ∀ request, state.request = some request → isRespondable K request = true)
    (fun _ absent => by contradiction) (fun _ _ _ _ held _ _ _ step => step.respondable held)
    (along_of_forall (onInput K) (fun _ _ => trivial) _ inputs) request held

/-- A run that forwarded nothing recorded nothing. -/
theorem finals_of_no_branches (inputs : List (Input K.Uri))
    (noBranches : (after (onInput K) (.new config) inputs).branches = []) :
    (after (onInput K) (.new config) inputs).finals = [] := by
  revert noBranches
  refine step_induction (coherent_new config) (fun _ state => state.branches = [] → state.finals = [])
    (fun _ => rfl) (fun _ state _ outcome holds _ coherent _ step noBranches => ?_)
    (along_of_forall (onInput K) (fun _ _ => trivial) _ inputs)
  have ids := (step.advances coherent).ids
  rw [noBranches, List.map_nil, eq_comm, List.append_eq_nil_iff, List.map_eq_nil_iff] at ids
  rcases step.finals_cases with same | branches
  · rw [same]
    exact holds ids.1
  · exact absurd ids.1 branches

/-! ## A call to run -/

/-- An edge with a fixed cookie key. -/
def edge : ProxyConfig :=
  .new (text "edge-1.example") (bytes "<sip:edge-1.example;lr>") (bytes "key")

/-- What the caller's `Via` says. -/
def callerVia : Header :=
  Reference.row .via "SIP/2.0/UDP a.example;branch=z9hG4bK-in"

/-- A dialog-forming `INVITE` that traverses these `Route`s. -/
def inviteVia (routes : Headers) : Request Reference.kernel.Uri where
  method := .invite
  uri := Reference.uri "sip:bob@b.example"
  headers := callerVia :: routes ++ [Reference.row .callId "call-1", Reference.row .cSeq "1 INVITE",
    Reference.row .fromHeader "<sip:alice@a.example>;tag=af",
    Reference.row .toHeader "<sip:bob@b.example>"]
  body := []

/-- A dialog-forming `INVITE`. -/
def invite : Request Reference.kernel.Uri :=
  inviteVia []

/-- One of the callee's phones. -/
def phone (uri : String) (q : Nat) : Target where
  uri := bytes uri
  routeSet := []
  q := q

/-- The branches of the first and the second copy of `invite`. -/
def branchA : BranchId :=
  ⟨text "z9hG4bK-32a85eaa47ea50bf-da926ca5d032e607"⟩

def branchB : BranchId :=
  ⟨text "z9hG4bK-d0dfd863c734ccd5-da926ca5d032e607"⟩

/-- A response to the copy that went out on a branch. -/
def reply (status : StatusCode) (branch : BranchId) : Response where
  status := status
  reason := []
  headers := [⟨.via, utf8 (text "SIP/2.0/UDP edge-1.example;branch=" ++ branch.branch)⟩, callerVia]
  body := []

end SipxClstr.Proxy
