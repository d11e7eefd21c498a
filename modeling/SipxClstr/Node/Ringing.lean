import SipxClstr.Node.Return
import SipxClstr.Proxy.Amplification
import SipxClstr.Registrar.Aor
import SipxClstr.Registrar.Drivers
import SipxClstr.Registrar.Reference

/-!
# A call rings what is registered

REGISTERs are applied to a store, their steps interleaved in any order; a call arrives, and its
driver asks the store for the targets of the address-of-record.  The copies go to the contacts of
the set the row's commands make one after the other, in the order of the lookup.
-/

namespace SipxClstr.Node

open SipxClstr.Sip SipxClstr.Proxy SipxClstr.Proxy.ResponseContext SipxClstr.Registrar
  Reactive Reactive.Machine

/-! ## From a lookup to targets -/

/-- Turn an ordered lookup into forking targets. -/
def targetsFromLookup (found : List Registrar.Target) : List Proxy.Target :=
  found.map fun binding => ⟨binding.contact, binding.routeSet, binding.q⟩

/-- Only a store that cannot be read leaves the targets unknown. -/
def targetsFound : Except ReadFailure (List Registrar.Target) → Option (List Proxy.Target)
  | .ok found => some (targetsFromLookup found)
  | .error _ => none

/-- What `perform` makes of a `ResolveTargets`: a Request-URI that is no address-of-record has no
targets. -/
def resolveTargets {K : Kernel} {σ : Type} (P : UriParts K) (store : LocationStore σ) (state : σ)
    (tenant : Text) (now : Timestamp) (query : TargetQuery) : Option (List Proxy.Target) :=
  match CanonicalAor.parse P query.uri with
  | .ok aor => targetsFound (store.lookup state tenant aor now)
  | .error _ => targetsFound (.ok [])

/-- The lookup's order is the order of forking. -/
theorem orderByQ_targetsFromLookup (set : BindingSet) (now : Timestamp) :
    orderByQ (targetsFromLookup (orderTargets set now)) =
      targetsFromLookup (orderTargets set now) := by
  apply List.Pairwise.insertionSort_eq
  rw [targetsFromLookup, List.pairwise_map]
  exact orderTargets_descending set now

variable {K : Kernel}

/-! ## The queue -/

/-- The targets of the copies a step forwards. -/
def forwardedTo {Uri : Type} (effects : List (Effect Uri)) : List Proxy.Target :=
  (copies effects).map Copy.target

theorem forwardedTo_of_quiet {Uri : Type} {effects : List (Effect Uri)}
    (quiet : launches effects = []) : forwardedTo effects = [] := by
  rw [forwardedTo, copies_eq_nil_iff.mpr quiet]
  rfl

/-- What a tail forwards it takes off the front of the queue. -/
theorem sublist_tail {context : ResponseContext K.Uri} {request : Request K.Uri}
    {outcome : Outcome K.Uri} (tail : Tail K context request outcome) :
    (forwardedTo outcome.2 ++ outcome.1.queued).Sublist context.queued := by
  cases tail with
  | waits _ => exact List.Sublist.refl _
  | forks validated _ _ _ =>
      have built : forwardedTo (launchGroup K context request validated).1 =
          ((groupPlans K context request validated).filter (builds K context.config)).map
            ForwardPlan.target := by
        rw [forwardedTo, copies_launchGroup]
        exact map_target_copies _ _
      have front : (forwardedTo (launchGroup K context request validated).1).Sublist
          (context.queued.take (groupSize context.queued validated.maxBreadth)) := by
        rw [built, ← map_target_groupPlans context request validated]
        exact List.filter_sublist.map _
      have whole := front.append_right
        (context.queued.drop (groupSize context.queued validated.maxBreadth))
      rw [List.take_append_drop] at whole
      exact whole
  | exhausts _ _ _ =>
      rw [forwardedTo_of_quiet (launches_respondAndFinish _ _ _ _), respondAndFinish_fst]
      exact List.drop_sublist _ _
  | fails _ _ =>
      rw [forwardedTo_of_quiet (launches_respondAndFinish _ _ _ _), respondAndFinish_fst]
      exact List.Sublist.refl _
  | selects _ _ _ _ _ _ _ _ => exact List.Sublist.refl _
  | ends _ _ => exact List.Sublist.refl _

/-- What comes of a branch. -/
inductive Reports {Uri : Type} : Input Uri → Prop where
  | response (response : Response) (branch : BranchId) : Reports (.branchResponse response branch)
  | failure (branch : BranchId) : Reports (.branchTransportError branch)

theorem Reports.feeds {Uri : Type} {input : Input Uri} (reports : Reports input) : Feeds input := by
  cases reports with
  | response response branch => exact .response response branch
  | failure branch => exact .failure branch

/-- What a step forwards when a branch reports it takes off the front of the queue. -/
theorem sublist_step {context : ResponseContext K.Uri} {input : Input K.Uri}
    {outcome : Outcome K.Uri} (step : Step K context input outcome) (reports : Reports input) :
    (forwardedTo outcome.2 ++ outcome.1.queued).Sublist context.queued := by
  cases step with
  | absorbed _ => exact List.Sublist.refl _
  | premature _ _ => exact List.Sublist.refl _
  | minted _ => cases reports
  | refused _ _ _ => cases reports
  | held _ _ _ _ _ => cases reports
  | asked determines _ => exact absurd determines reports.feeds.not_determines
  | taken takes _ =>
      cases takes with
      | predetermined determines _ => exact absurd determines reports.feeds.not_determines
      | resolved _ _ _ _ => cases reports
  | concluded _ concludes => cases concludes <;> cases reports
  | provisional response branch request _ _ _ _ =>
      rw [forwardedTo_of_quiet (forwardProvisional_effects context request response branch).2.2.1,
        (sameButBranches_forwardProvisional context request response branch).queued]
      exact List.Sublist.refl _
  | accepted response branch _ _ _ _ _ =>
      have quiet : launches (.respond (popVia response) ::
          (acceptedContext K context response branch).cancelPending.2) = [] := by
        simp [cancelPending]
      rw [forwardedTo_of_quiet quiet]
      exact List.nil_sublist _
  | rejected response branch _ _ _ _ =>
      rw [finishIfSettled_rejected]
      have quiet : launches (.respond (popVia response) ::
          (rejectedContext K context response branch).cancelPending.2) = [] := by
        simp [cancelPending]
      split
      · simp only [List.append_nil]
        rw [forwardedTo_of_quiet quiet]
        exact List.nil_sublist _
      · rw [forwardedTo_of_quiet (by simp [cancelPending])]
        exact List.nil_sublist _
  | recorded _ records tail =>
      obtain ⟨status, final, recordedEq⟩ := records.frame
      have taken := sublist_tail tail
      rw [recordedEq] at taken
      exact taken
  | stopped _ _ => cases reports
  | withdrawn => cases reports

theorem forwardedTo_append {Uri : Type} (first second : List (Effect Uri)) :
    forwardedTo (first ++ second) = forwardedTo first ++ forwardedTo second := by
  rw [forwardedTo, copies_append, List.map_append, forwardedTo, forwardedTo]

section Runs

variable {config : ProxyConfig} {request arrived : Request K.Uri} {validated : Validated}

/-- What a context that awaits targets forwards when it is told them comes off their front. -/
theorem sublist_resolved {context : ResponseContext K.Uri} (coherent : Coherent context)
    (awaits : AwaitsTargets K context arrived validated) (targets : List Proxy.Target) :
    (forwardedTo (onInput K context (.targetsResolved targets)).2 ++
      (onInput K context (.targetsResolved targets)).1.queued).Sublist (orderByQ targets) := by
  have step := onInput_step coherent awaits.unfinished (.targetsResolved targets)
  generalize onInput K context (.targetsResolved targets) = outcome at step ⊢
  cases step with
  | absorbed absorbs => cases absorbs
  | premature _ absent =>
      rw [awaits.requestEq] at absent
      contradiction
  | taken takes tail =>
      cases takes with
      | predetermined determines _ => cases determines
      | resolved _ _ _ _ => exact sublist_tail tail
  | asked determines _ => cases determines
  | concluded _ concludes =>
      cases concludes with
      | noTargets =>
          rw [forwardedTo_of_quiet (launches_respondAndFinish _ _ _ _), respondAndFinish_fst,
            awaits.noQueue]
          exact List.nil_sublist _
  | recorded _ records _ => cases records

/-- Over any run of reports the copies go to targets in the order they were told, and to each as
often as it was told at most. -/
theorem sublist_after {context : ResponseContext K.Uri} (coherent : Coherent context)
    (awaits : AwaitsTargets K context arrived validated) (targets : List Proxy.Target)
    (events : List (Input K.Uri)) (reports : ∀ input ∈ events, Reports input) :
    (forwardedTo (emitted (onInput K) context (.targetsResolved targets :: events)) ++
      (after (onInput K) context (.targetsResolved targets :: events)).queued).Sublist
        (orderByQ targets) := by
  induction events using List.reverseRecOn with
  | nil =>
      rw [emitted_cons, emitted_nil, List.append_nil, after_cons, after_nil]
      exact sublist_resolved coherent awaits targets
  | append_singleton events input ih =>
      have earlier := ih fun other member => reports other (List.mem_append_left _ member)
      have report := reports input (by simp)
      rw [← List.cons_append, emitted_concat, after_concat, forwardedTo_append, List.append_assoc]
      have stillCoherent : Coherent (after (onInput K) context (.targetsResolved targets :: events)) :=
        invariant_always (onInput K) Coherent (fun _ input coherent =>
          (onInput_advances coherent input).coherent) coherent _
      generalize after (onInput K) context (.targetsResolved targets :: events) = state
        at earlier stillCoherent ⊢
      refine List.Sublist.trans (List.Sublist.append_left ?_ _) earlier
      cases finished : state.finished with
      | true =>
          rw [onInput_finished finished]
          exact List.Sublist.refl _
      | false => exact sublist_step (onInput_step stillCoherent finished input) report

end Runs

/-! ## What the driver tells its context -/

namespace Driver

variable {world : World} {config : ProxyConfig} {request : Request K.Uri} {driver : Driver K.Uri}

/-- Where the driver stands that looked the targets up: what branches reported is all it told its
context since, and nothing is left to answer. -/
structure LookedUp (config : ProxyConfig) (request : Request K.Uri) (answer : Input K.Uri)
    (driver : Driver K.Uri) : Prop where
  isRequest : driver.request = request
  context : driver.context = after (onInput K) (.new config) driver.inputs
  told : ∃ events, driver.inputs = .upstream request :: answer :: events ∧
    ∀ input ∈ events, Reports input
  unasked : ∀ effect ∈ driver.effects, asks effect = false

/-- A report is told to the context, and brings up no question. -/
theorem LookedUp.feed {answer input : Input K.Uri} (lookedUp : LookedUp config request answer driver)
    (reports : Reports input) : LookedUp config request answer (driver.feed K input) where
  isRequest := lookedUp.isRequest
  context := by
    rw [Driver.feed, after_concat, lookedUp.context]
  told := by
    obtain ⟨events, told, areReports⟩ := lookedUp.told
    refine ⟨events ++ [input], ?_, ?_⟩
    · rw [Driver.feed, told, List.cons_append, List.cons_append]
    · intro other member
      rcases List.mem_append.mp member with before | now
      · exact areReports other before
      · rw [List.mem_singleton.mp now]
        exact reports
  unasked := by
    intro effect member
    have coherent : Coherent driver.context := by
      rw [lookedUp.context]
      exact coherent_after config driver.inputs
    rcases List.mem_append.mp member with now | before
    · have none := countP_asks_onInput coherent reports.feeds
      rw [List.countP_eq_zero] at none
      simpa using none effect now
    · exact lookedUp.unasked effect before

/-- What the driver does leaves what it told its context, or adds a report. -/
inductive Continues (driver : Driver K.Uri) : Driver K.Uri → Prop where
  | same {next : Driver K.Uri} (request : next.request = driver.request)
      (context : next.context = driver.context) (inputs : next.inputs = driver.inputs)
      (effects : ∀ effect ∈ next.effects, effect ∈ driver.effects) : Continues driver next
  | reports {told : Driver K.Uri} {input : Input K.Uri} (reports : Reports input)
      (request : told.request = driver.request) (context : told.context = driver.context)
      (inputs : told.inputs = driver.inputs)
      (effects : ∀ effect ∈ told.effects, effect ∈ driver.effects) :
      Continues driver (told.feed K input)

theorem LookedUp.of_same {answer : Input K.Uri} {next : Driver K.Uri}
    (lookedUp : LookedUp config request answer driver) (sameRequest : next.request = driver.request)
    (context : next.context = driver.context) (inputs : next.inputs = driver.inputs)
    (effects : ∀ effect ∈ next.effects, effect ∈ driver.effects) :
    LookedUp config request answer next where
  isRequest := sameRequest.trans lookedUp.isRequest
  context := by
    rw [context, inputs]
    exact lookedUp.context
  told := by
    rw [inputs]
    exact lookedUp.told
  unasked effect member := lookedUp.unasked effect (effects effect member)

theorem LookedUp.continues {answer : Input K.Uri} {next : Driver K.Uri}
    (lookedUp : LookedUp config request answer driver) (continues : Continues driver next) :
    LookedUp config request answer next := by
  cases continues with
  | same request context inputs effects => exact lookedUp.of_same request context inputs effects
  | reports reports request context inputs effects =>
      exact (lookedUp.of_same request context inputs effects).feed reports

theorem continues_perform (world : World) {effect : Effect K.Uri} {rest : List (Effect K.Uri)}
    (effects : driver.effects = effect :: rest) (unasked : asks effect = false) :
    Continues driver (({ driver with effects := rest } : Driver K.Uri).perform K world effect) := by
  have fewer : ∀ other ∈ rest, other ∈ driver.effects := by
    intro other member
    rw [effects]
    exact List.mem_cons_of_mem _ member
  have performs := performs_perform world ({ driver with effects := rest } : Driver K.Uri) effect
  generalize ({ driver with effects := rest } : Driver K.Uri).perform K world effect = performed
    at performs ⊢
  cases performs with
  | answered asked _ _ _ =>
      rw [unasked] at asked
      contradiction
  | unaddressed _ => exact .reports (.failure _) rfl rfl rfl fewer
  | sent _ _ => exact .same rfl rfl rfl fewer
  | unsent _ _ => exact .same rfl rfl rfl fewer
  | responded _ => exact .same rfl rfl rfl fewer
  | unanswered _ => exact .same rfl rfl rfl fewer
  | skipped _ _ _ => exact .same rfl rfl rfl fewer

theorem reports_inputOf {branch : BranchId} {event : TuEvent} {input : Input K.Uri}
    (told : inputOf K request branch event = some input) : Reports input := by
  rcases inputOf_cases told with ⟨response, rfl⟩ | rfl
  · exact .response response branch
  · exact .failure branch

theorem continues_joined {joining : Driver K.Uri} (branch : BranchId) (events : List TuEvent)
    (sameRequest : joining.request = driver.request) (context : joining.context = driver.context)
    (inputs : joining.inputs = driver.inputs)
    (effects : ∀ effect ∈ joining.effects, effect ∈ driver.effects) :
    Continues driver (joining.joined K branch events) := by
  cases events with
  | nil =>
      simp only [joined]
      split
      · exact .same sameRequest context inputs effects
      · exact .reports (.failure branch) sameRequest context inputs effects
  | cons event later =>
      cases told : inputOf K joining.request branch event with
      | some input =>
          simp only [joined, told]
          exact .reports (reports_inputOf told) sameRequest context inputs effects
      | none =>
          simp only [joined, told]
          exact .same sameRequest context inputs effects

theorem continues_joinNext (world : World) (driver : Driver K.Uri) :
    Continues driver (driver.joinNext K world) := by
  have unchanged : ∀ effect ∈ driver.effects, effect ∈ driver.effects := fun _ member => member
  unfold joinNext
  simp only
  split
  · exact .same rfl rfl rfl unchanged
  · split
    · exact continues_joined _ _ rfl rfl rfl unchanged
    · exact .same rfl rfl rfl unchanged

theorem LookedUp.step {answer : Input K.Uri} (world : World)
    (lookedUp : LookedUp config request answer driver) :
    LookedUp config request answer (driver.step K world) := by
  by_cases running : driver.status = .running
  · cases effects : driver.effects with
    | cons effect rest =>
        rw [step_of_effect running effects]
        have unasked := lookedUp.unasked effect (by rw [effects]; exact List.mem_cons_self)
        exact lookedUp.continues (continues_perform world effects unasked)
    | nil =>
        rw [step_of_idle running effects]
        split
        · exact lookedUp.of_same rfl rfl rfl fun _ member => member
        · exact lookedUp.continues (continues_joinNext world driver)
  · rw [step_of_stopped running]
    exact lookedUp

end Driver

/-! ## A call -/

section Calls

variable {world : World} {config : ProxyConfig} {request : Request K.Uri} {validated : Validated}

/-- The request as it stands once the platform's own routes are off. -/
def arrivedAs (K : Kernel) (config : ProxyConfig) (request : Request K.Uri) : Request K.Uri :=
  (preprocess K request config).1

/-- A request whose targets are to be looked up: it is accepted, carries no token, and nothing in
it says already where it goes. -/
structure LooksUp (K : Kernel) (config : ProxyConfig) (request : Request K.Uri)
    (validated : Validated) : Prop where
  accepted : validate K request config = .ok validated
  untokened : (preprocess K request config).2 = none
  undetermined : isPredetermined K (arrivedAs K config request) = false

theorem LooksUp.onInput_eq (looksUp : LooksUp K config request validated) :
    onInput K (.new config) (.upstream request) =
      (arrivedContext K (.new config) request validated,
        [.resolveTargets (aorQuery K (arrivedAs K config request))]) := by
  have undetermined := looksUp.undetermined
  simp only [isPredetermined, arrivedAs, Bool.or_eq_false_iff] at undetermined
  simp only [onInput, onUpstream, ResponseContext.new, looksUp.accepted, looksUp.untokened, routeIt,
    undetermined, Bool.false_eq_true, if_false, arrivedContext, arrivedAs]

theorem LooksUp.awaits (looksUp : LooksUp K config request validated) :
    AwaitsTargets K (onInput K (.new config) (.upstream request)).1 (arrivedAs K config request)
      validated := by
  rw [looksUp.onInput_eq]
  constructor <;> rfl

/-- Arriving forks nothing. -/
theorem LooksUp.forkedGroups_cons (looksUp : LooksUp K config request validated)
    (later : List (Input K.Uri)) :
    (forkedGroups K config (.upstream request :: later)).flatten =
      (groupsFrom K (onInput K (.new config) (.upstream request)).1 later).flatten := by
  have unplanned : plansOf K (.new config) (.upstream request) = [] := by
    apply plansOf_of_stands
    · have undetermined := looksUp.undetermined
      have accepted := looksUp.accepted
      have untokened := looksUp.untokened
      rw [arrivedAs] at undetermined
      simp only [targetedBy, ResponseContext.new, accepted, untokened, undetermined,
        Option.isNone_none, Bool.and_false, Bool.false_eq_true, if_false]
    · intro held isHeld
      contradiction
  rw [forkedGroups, observed, unplanned, List.flatten_cons, List.nil_append, groupsFrom]

namespace Driver

/-- From its first step on the driver has looked the targets up. -/
theorem lookedUp_proxyRequest (looksUp : LooksUp K config request validated)
    {targets : List Proxy.Target}
    (found : world.lookup (aorQuery K (arrivedAs K config request)) = some targets) (steps : Nat) :
    LookedUp config request (.targetsResolved targets)
      (proxyRequest K world config request (steps + 1)) := by
  induction steps with
  | zero =>
      have starts : (start K config request).effects =
          [.resolveTargets (aorQuery K (arrivedAs K config request))] := by
        simp only [start, looksUp.onInput_eq]
      have first : proxyRequest K world config request 1 =
          ({ start K config request with effects := [] } : Driver K.Uri).feed K
            (.targetsResolved targets) := by
        have stepped : step K world (start K config request) =
            ({ start K config request with effects := [] } : Driver K.Uri).perform K world
              (.resolveTargets (aorQuery K (arrivedAs K config request))) :=
          step_of_effect rfl starts
        change step K world (start K config request) = _
        rw [stepped]
        simp only [perform, found]
      rw [first]
      constructor
      · rfl
      · rfl
      · exact ⟨[], rfl, fun input member => absurd member List.not_mem_nil⟩
      · intro effect member
        have none := countP_asks_onInput (coherent_after config [.upstream request])
          (.targets targets)
        rw [List.countP_eq_zero] at none
        have member : effect ∈ (onInput K (after (onInput K) (.new config) [.upstream request])
            (.targetsResolved targets)).2 := by
          simpa [Driver.feed, start] using member
        simpa using none effect member
  | succ steps ih =>
      have next : proxyRequest K world config request (steps + 1 + 1) =
          step K world (proxyRequest K world config request (steps + 1)) :=
        Function.iterate_succ_apply' _ _ _
      rw [next]
      exact ih.step world

/-- The targets that the context of a driver has forwarded copies to, in order. -/
def rung (config : ProxyConfig) (driver : Driver K.Uri) : List Proxy.Target :=
  forwardedTo (emitted (onInput K) (.new config) driver.inputs)

/-- The targets that it has tried, those among them for which no copy could be built. -/
def tried (config : ProxyConfig) (driver : Driver K.Uri) : List (ForwardPlan K.Uri) :=
  (forkedGroups K config driver.inputs).flatten

/-- What was rung is what could be built of what was tried. -/
theorem rung_eq (config : ProxyConfig) (driver : Driver K.Uri) :
    driver.rung config = ((driver.tried config).filter (builds K config)).map ForwardPlan.target := by
  rw [rung, forwardedTo, copies_emitted]
  exact map_target_copies config _

/-- A driver rings targets in the order it was told them, and each as often as it was told at
most. -/
theorem rung_sublist (looksUp : LooksUp K config request validated) {targets : List Proxy.Target}
    (found : world.lookup (aorQuery K (arrivedAs K config request)) = some targets) (steps : Nat) :
    ((proxyRequest K world config request steps).rung config).Sublist (orderByQ targets) := by
  have first : forwardedTo (onInput K (.new config) (.upstream request)).2 = [] := by
    rw [looksUp.onInput_eq]
    rfl
  cases steps with
  | zero =>
      have starts : (proxyRequest K world config request 0).rung config =
          forwardedTo ((onInput K (.new config) (.upstream request)).2 ++ []) := rfl
      rw [starts, List.append_nil, first]
      exact List.nil_sublist _
  | succ steps =>
      obtain ⟨events, told, reports⟩ := (lookedUp_proxyRequest looksUp found steps).told
      rw [rung, told, emitted_cons, forwardedTo_append, first, List.nil_append]
      exact (List.sublist_append_left _ _).trans
        (sublist_after (coherent_after config [.upstream request]) looksUp.awaits targets events
          reports)

/-- A call that has returned with no branch having taken or refused it for all has tried every
target. -/
theorem tried_of_returned (accepts : AcceptsNumbers K) (someBreadth : 1 ≤ validated.maxBreadth)
    (breadthFits : validated.maxBreadth ≤ u32Max) (looksUp : LooksUp K config request validated)
    {targets : List Proxy.Target}
    (found : world.lookup (aorQuery K (arrivedAs K config request)) = some targets)
    (smooth : ∀ steps, Smooth K world (proxyRequest K world config request steps)) {steps : Nat}
    (returned : (proxyRequest K world config request steps).status = .returned)
    (events : ∀ input ∈ (proxyRequest K world config request steps).inputs.drop 2,
      IsBranchEvent K (arrivedAs K config request) input)
    (moves : Along (onInput K) (fun state input => strandsQueue K state input = false) (.new config)
      (proxyRequest K world config request steps).inputs) :
    ((proxyRequest K world config request steps).tried config).map ForwardPlan.target =
      orderByQ targets := by
  cases steps with
  | zero => contradiction
  | succ steps =>
      obtain ⟨later, told, -⟩ := (lookedUp_proxyRequest looksUp found steps).told
      rcases sound_proxyRequest smooth (steps + 1) with ⟨running, -⟩ | ⟨-, ended⟩
      · rw [returned] at running
        contradiction
      · obtain ⟨context, accounts⟩ := ended
        rw [told] at events moves context accounts
        have awaits := looksUp.awaits
        have unanswered : (onInput K (.new config) (.upstream request)).1.answered = false := by
          rw [looksUp.onInput_eq]
          rfl
        have run := runScheduled accepts (coherent_after config [.upstream request]) awaits
          unanswered someBreadth breadthFits targets later events moves.2
        have scheduled := run.scheduled
        rw [tried, told, looksUp.forkedGroups_cons]
        have noQueue : (after (onInput K) (.new config)
            (.upstream request :: .targetsResolved targets :: later)).queued = [] := by
          cases finished : (after (onInput K) (.new config)
              (.upstream request :: .targetsResolved targets :: later)).finished with
          | true => exact (scheduled.ended finished).1
          | false =>
              by_contra queued
              apply scheduled.moving finished queued
              rw [List.eq_nil_iff_forall_not_mem]
              intro copy member
              have live := (scheduled.live copy.branch).mpr ⟨copy, member, rfl⟩
              rcases accounts with ⟨isOver, -⟩ | accounts
              · rw [context, finished] at isOver
                contradiction
              · rcases accounts.live with isOver | read
                · rw [finished] at isOver
                  contradiction
                · rcases read copy.branch live with reading | launched <;> contradiction
        have order := scheduled.order
        change _ ++ (after (onInput K) (.new config)
          (.upstream request :: .targetsResolved targets :: later)).queued = _ at order
        rw [noQueue, List.append_nil] at order
        exact order

end Driver

end Calls

/-! ## Registrations and calls -/

section Registered

universe u

variable {ι : Type u} [DecidableEq ι]

/-- What is bound to an address-of-record: its row's commands one after the other. -/
def registeredAt (R : ContactRules K) (task : ι → Task K) (key : RowKey) (registrations : List ι) :
    BindingSet :=
  after (registrar R) [] (committedOn task key (emitted (drivers R task) (.start .new) registrations))

/-- What a call is to ring: the active bindings, in the order of the lookup. -/
def dueAt (set : BindingSet) (now : Timestamp) : List Proxy.Target :=
  targetsFromLookup (orderTargets set now)

variable (P : UriParts K) (R : ContactRules K) (task : ι → Task K) (registrations : List ι)
  (tenant : Text) (now : Timestamp)

/-- What the driver of a call meets whose node keeps its locations in memory. -/
def withStore (world : World) : World :=
  { world with
    lookup := resolveTargets P InMemoryStore.locationStore
      (after (drivers R task) (.start .new) registrations).store tenant now }

theorem lookup_withStore (world : World) {query : TargetQuery} {aor : CanonicalAor}
    (parsed : CanonicalAor.parse P query.uri = .ok aor) :
    (withStore P R task registrations tenant now world).lookup query =
      some (dueAt (registeredAt R task (tenant, aor) registrations) now) := by
  have serial := (atSerial_after R task .new registrations (tenant, aor)).1
  have isRow := InMemoryStore.lookup_eq
    (after (drivers R task) (.start .new) registrations).store tenant aor now
  rw [serial] at isRow
  simp only [withStore, resolveTargets, parsed]
  exact congrArg targetsFound isRow

variable {config : ProxyConfig} {request : Request K.Uri} {validated : Validated}

/-- **A call rings what is registered.**  Whatever REGISTERs were applied to the store and however
their steps interleaved, a call rings bindings that the row's commands make one after the other and
that are active when it is looked up, in the order of the lookup, and each once at most.  A call
that has returned with no branch having taken or refused it for all, and with no group of which
nothing could be built before the last, has tried them all. -/
theorem rings_registered (accepts : AcceptsNumbers K) (world : World) {aor : CanonicalAor}
    (someBreadth : 1 ≤ config.defaultMaxBreadth) (breadthFits : config.defaultMaxBreadth ≤ u32Max)
    (someHops : 1 ≤ config.defaultMaxForwards) (hopsFit : config.defaultMaxForwards ≤ u8Max)
    (looksUp : LooksUp K config request validated)
    (parsed : CanonicalAor.parse P (aorQuery K (arrivedAs K config request)).uri = .ok aor) :
    let due := dueAt (registeredAt R task (tenant, aor) registrations) now
    let met := withStore P R task registrations tenant now world
    let call := Driver.proxyRequest K met config request
    (∀ steps, ((call steps).rung config).Sublist due ∧
        (call steps).rung config =
          (((call steps).tried config).filter (builds K config)).map ForwardPlan.target) ∧
      ((∀ steps, Driver.Smooth K met (call steps)) → ∀ steps, (call steps).status = .returned →
        (∀ input ∈ (call steps).inputs.drop 2,
            IsBranchEvent K (arrivedAs K config request) input) →
          Along (onInput K) (fun state input => strandsQueue K state input = false) (.new config)
              (call steps).inputs →
            ((call steps).tried config).map ForwardPlan.target = due) := by
  intro due met call
  have found : met.lookup (aorQuery K (arrivedAs K config request)) = some due :=
    lookup_withStore P R task registrations tenant now world parsed
  have limited := limited_of_validate looksUp.accepted someBreadth breadthFits someHops hopsFit
  have inOrder : orderByQ due = due := orderByQ_targetsFromLookup _ _
  constructor
  · intro steps
    have rings := Driver.rung_sublist looksUp found steps
    rw [inOrder] at rings
    exact ⟨rings, Driver.rung_eq config _⟩
  · intro smooth steps returned events moves
    rw [← inOrder]
    exact Driver.tried_of_returned accepts limited.someBreadth limited.breadthFits looksUp found
      smooth returned events moves

end Registered

/-! ## Two phones, registered at once -/

theorem toLowercase_referenceParts (value : Text) (_ : ∀ c ∈ value, c.toNat < 128) :
    toAsciiLowercase value = toAsciiLowercase value :=
  rfl

/-- What the registrar asks of the reference kernel's URIs. -/
def referenceParts : UriParts Reference.kernel where
  hasHeaders _ := false
  password _ := none
  decodedUser uri := uri.user.map utf8
  host uri := uri.host.map fun name => .name (utf8 name)
  toLowercase := toAsciiLowercase
  toLowercase_ascii := toLowercase_referenceParts

/-- Each phone registers under a line of its own. -/
def registersPhone (second : Bool) : Task Reference.kernel where
  cmd := Reference.registerAt 0 (if second then "b" else "a") 1
    (.explicit [if second then Reference.opLine2 3600 else Reference.opLine1 3600])
  policy := .default
  retries := 3

/-- Both read the row before either commits, so that the second has to read again. -/
def atOnce : List Bool :=
  [false, true, false, true, true, true]

/-- A call to the address-of-record they registered for. -/
def callsAlice : Request Reference.kernel.Uri :=
  { invite with uri := Reference.uri "sip:alice@example.test" }

/-- Nobody picks up. -/
def unanswered : World where
  destinationOf _ := true
  lookup _ := none
  send _ := some [.timeout]
  respond _ := true
  next _ := 0
  joins _ := true

def alicesRow : RowKey :=
  (text "t", ⟨text "sip:alice@example.test"⟩)

/-- The call of the two phones after some steps. -/
def alicesCall (steps : Nat) : Driver Reference.kernel.Uri :=
  Driver.proxyRequest Reference.kernel
    (withStore referenceParts Reference.rules registersPhone atOnce (text "t") 0 unanswered) edge
    callsAlice steps

/-- What validation learns of that call. -/
def alicesValidated : Validated where
  maxForwards := 70
  maxBreadth := 60
  cookieInput := CookieInput.fromRequest Reference.kernel callsAlice

/-- Both phones were tried by the time the call went unanswered. -/
theorem rings_registered_twoPhones :
    ((alicesCall 12).tried edge).map ForwardPlan.target =
      dueAt (registeredAt Reference.rules registersPhone alicesRow atOnce) 0 := by
  have looksUp : LooksUp Reference.kernel edge callsAlice alicesValidated :=
    ⟨by decide +kernel, by decide +kernel, by decide +kernel⟩
  have parsed : CanonicalAor.parse referenceParts
      (aorQuery Reference.kernel (arrivedAs Reference.kernel edge callsAlice)).uri =
        .ok ⟨text "sip:alice@example.test"⟩ := by
    decide +kernel
  apply (rings_registered referenceParts Reference.rules registersPhone atOnce (text "t") 0
    acceptsNumbers_reference unanswered (by decide) (by decide) (by decide) (by decide) looksUp
    parsed).2
  · intro steps
    apply Driver.smooth_of_forall
    · exact fun _ => rfl
    · exact fun _ => rfl
    · exact fun _ => rfl
  · decide +kernel
  · decide +kernel
  · decide +kernel

end SipxClstr.Node
