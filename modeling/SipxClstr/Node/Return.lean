import Mathlib.Data.List.Perm.Basic
import Mathlib.Data.Prod.Lex
import SipxClstr.Node.Settlement

/-!
# A proxied request comes to an end

Whatever the store and the network answer, the driver stops.  While the transport does its
part it returns: every branch has been reported, or the context is over, and the request
has been given a final response.
-/

namespace SipxClstr.Node

open SipxClstr.Sip SipxClstr.Proxy SipxClstr.Proxy.ResponseContext Reactive Reactive.Machine

variable {K : Kernel}

namespace Driver

/-! ## The driver stops -/

/-- Events yet to be read, with the end of each stream. -/
def unread (branches : List (BranchId × List TuEvent)) : Nat :=
  (branches.map fun entry => entry.2.length + 1).sum

theorem unread_append (first second : List (BranchId × List TuEvent)) :
    unread (first ++ second) = unread first + unread second := by
  simp [unread]

/-- Taking a branch out leaves its events to the others. -/
theorem unread_eraseIdx {branches : List (BranchId × List TuEvent)} {index : Nat}
    {entry : BranchId × List TuEvent} (isEntry : branches[index]? = some entry) :
    unread branches = entry.2.length + 1 + unread (branches.eraseIdx index) := by
  obtain ⟨inside, rfl⟩ := List.getElem?_eq_some_iff.mp isEntry
  have moved := (List.getElem_cons_eraseIdx_perm inside).map fun entry => entry.2.length + 1
  unfold unread
  rw [← moved.sum_eq, List.map_cons, List.sum_cons]

/-- What is left to do: questions to answer, then copies to send, then events to read,
then effects to perform. -/
def rank {Uri : Type} (driver : Driver Uri) : Nat ×ₗ Nat ×ₗ Nat ×ₗ Nat :=
  toLex (driver.effects.countP asks,
    toLex ((launches driver.effects).length + driver.context.queued.length,
      toLex (unread driver.branches, driver.effects.length)))

theorem rank_lt_rank {Uri : Type} {first second : Driver Uri} :
    first.rank < second.rank ↔
      first.effects.countP asks < second.effects.countP asks ∨
      first.effects.countP asks = second.effects.countP asks ∧
        ((launches first.effects).length + first.context.queued.length <
            (launches second.effects).length + second.context.queued.length ∨
          (launches first.effects).length + first.context.queued.length =
            (launches second.effects).length + second.context.queued.length ∧
            (unread first.branches < unread second.branches ∨
              unread first.branches = unread second.branches ∧
                first.effects.length < second.effects.length)) := by
  simp [rank, Prod.Lex.toLex_lt_toLex]

theorem countP_asks_onInput {context : ResponseContext K.Uri} (coherent : Coherent context)
    {input : Input K.Uri} (feeds : Feeds input) :
    (onInput K context input).2.countP asks = 0 := by
  rw [List.countP_eq_zero]
  intro effect member
  cases finished : context.finished with
  | true =>
      rw [onInput_finished finished] at member
      contradiction
  | false => simp [asks_step (onInput_step coherent finished input) feeds effect member]

theorem length_onInput_le {context : ResponseContext K.Uri} (coherent : Coherent context)
    {input : Input K.Uri} (feeds : Feeds input)
    (event : ∀ targets, input ≠ .targetsResolved targets) :
    (launches (onInput K context input).2).length + (onInput K context input).1.queued.length ≤
      context.queued.length := by
  cases finished : context.finished with
  | true => simp [onInput_finished finished]
  | false => exact length_step_le (onInput_step coherent finished input) feeds event

section Feeding

variable (driver : Driver K.Uri) (input : Input K.Uri)

@[simp]
theorem feed_context : (driver.feed K input).context = (onInput K driver.context input).1 :=
  rfl

@[simp]
theorem feed_effects :
    (driver.feed K input).effects = (onInput K driver.context input).2 ++ driver.effects :=
  rfl

@[simp]
theorem feed_branches : (driver.feed K input).branches = driver.branches :=
  rfl

variable {input}

theorem countP_asks_feed (coherent : Coherent driver.context) (feeds : Feeds input) :
    (driver.feed K input).effects.countP asks = driver.effects.countP asks := by
  rw [feed_effects, List.countP_append, countP_asks_onInput coherent feeds, Nat.zero_add]

theorem length_feed_le (coherent : Coherent driver.context) (feeds : Feeds input)
    (event : ∀ targets, input ≠ .targetsResolved targets) :
    (launches (driver.feed K input).effects).length + (driver.feed K input).context.queued.length ≤
      (launches driver.effects).length + driver.context.queued.length := by
  have bound := length_onInput_le coherent feeds event
  rw [feed_effects, feed_context, launches_append, List.length_append]
  omega

end Feeding

section Ranks

variable {world : World} {driver : Driver K.Uri}

/-- Feeding what is no answer to a question leaves no more copies to send. -/
theorem rank_feed_lt (driver : Driver K.Uri) {input : Input K.Uri} {second : Driver K.Uri}
    (coherent : Coherent driver.context) (feeds : Feeds input)
    (event : ∀ targets, input ≠ .targetsResolved targets)
    (asked : driver.effects.countP asks ≤ second.effects.countP asks)
    (less : (launches driver.effects).length + driver.context.queued.length <
        (launches second.effects).length + second.context.queued.length ∨
      (launches driver.effects).length + driver.context.queued.length ≤
        (launches second.effects).length + second.context.queued.length ∧
        unread driver.branches < unread second.branches) :
    (driver.feed K input).rank < second.rank := by
  have same := countP_asks_feed driver coherent feeds
  have bound := length_feed_le driver coherent feeds event
  rw [rank_lt_rank, same, feed_branches]
  omega

/-- Performing an effect leaves less to do. -/
theorem rank_perform_lt {effect : Effect K.Uri} {rest : List (Effect K.Uri)}
    (coherent : Coherent driver.context) (effects : driver.effects = effect :: rest) :
    (({ driver with effects := rest } : Driver K.Uri).perform K world effect).rank <
      driver.rank := by
  have performs := performs_perform world ({ driver with effects := rest } : Driver K.Uri) effect
  generalize ({ driver with effects := rest } : Driver K.Uri).perform K world effect = performed
    at performs ⊢
  cases performs with
  | answered asked fed verdict targets =>
      rw [rank_lt_rank, countP_asks_feed { driver with effects := rest } coherent fed, effects,
        List.countP_cons_of_pos asked]
      exact .inl (Nat.lt_succ_self _)
  | unaddressed absent =>
      apply rank_feed_lt { driver with effects := rest } coherent (.failure _) (by simp)
      · rw [effects]
        exact (List.sublist_cons_self _ rest).countP_le
      · left
        simp [effects]
  | sent addressed isSent =>
      rw [rank_lt_rank, effects]
      simp [asks]
  | unsent addressed failed =>
      rw [rank_lt_rank, effects]
      simp [asks]
  | responded succeeds =>
      rw [rank_lt_rank, effects]
      simp [asks]
  | unanswered fails =>
      rw [rank_lt_rank, effects]
      simp [asks]
  | skipped unasked quiet unlaunched =>
      have same : launches (effect :: rest) = launches rest := by
        rw [← List.singleton_append, launches_append, unlaunched, List.nil_append]
      rw [rank_lt_rank, effects, same]
      simp [unasked]

theorem rank_joined_lt (driver : Driver K.Uri) {second : Driver K.Uri} {branch : BranchId}
    {events : List TuEvent} (coherent : Coherent driver.context)
    (effects : driver.effects = second.effects) (context : driver.context = second.context)
    (less : unread second.branches = events.length + 1 + unread driver.branches)
    (goes : (driver.joined K branch events).status = .running) :
    (driver.joined K branch events).rank < second.rank := by
  cases events with
  | nil =>
      cases finished : driver.context.finished with
      | true =>
          rw [joined, if_pos finished] at goes
          contradiction
      | false =>
          rw [joined, if_neg (by simp [finished])]
          apply rank_feed_lt { driver with looping := true } coherent (.failure _) (by simp)
          · exact (congrArg (List.countP asks) effects).le
          · right
            rw [← effects, ← context, less]
            simp
  | cons event later =>
      have watched : unread (driver.branches ++ [(branch, later)]) < unread second.branches := by
        rw [unread_append, less]
        simp [unread]
        omega
      unfold joined
      cases told : inputOf K driver.request branch event with
      | some input =>
          simp only [told]
          apply rank_feed_lt
            { driver with branches := driver.branches ++ [(branch, later)], looping := true }
            coherent (feeds_inputOf told)
          · intro targets isTargets
            rcases inputOf_cases told with ⟨response, rfl⟩ | rfl <;> cases isTargets
          · exact (congrArg (List.countP asks) effects).le
          · right
            rw [← effects, ← context]
            exact ⟨le_rfl, watched⟩
      | none =>
          simp only [told]
          rw [rank_lt_rank, ← effects, ← context]
          simp [watched]

/-- Reading an event leaves less to do, unless the driver returns. -/
theorem rank_joinNext_lt (coherent : Coherent driver.context)
    (goes : (driver.joinNext K world).status = .running) :
    (driver.joinNext K world).rank < driver.rank := by
  unfold joinNext at goes ⊢
  generalize world.next driver.reads % driver.branches.length = index at goes ⊢
  cases read : driver.branches[index]? with
  | none =>
      simp [read] at goes
  | some entry =>
      obtain ⟨branch, events⟩ := entry
      have taken := unread_eraseIdx read
      simp only [read] at goes ⊢
      cases joins : world.joins driver.reads with
      | false =>
          simp only [Bool.false_eq_true, if_false]
          rw [rank_lt_rank]
          simp
          omega
      | true =>
          simp only [joins, if_true] at goes ⊢
          exact rank_joined_lt
            { driver with reads := driver.reads + 1, branches := driver.branches.eraseIdx index }
            coherent rfl rfl taken goes

theorem coherent_feed (driver : Driver K.Uri) (coherent : Coherent driver.context)
    (input : Input K.Uri) : Coherent (driver.feed K input).context :=
  (onInput_advances coherent input).coherent

theorem coherent_perform (driver : Driver K.Uri) (coherent : Coherent driver.context)
    (effect : Effect K.Uri) : Coherent (driver.perform K world effect).context := by
  have performs := performs_perform world driver effect
  generalize driver.perform K world effect = performed at performs ⊢
  cases performs with
  | answered _ _ _ _ => exact coherent_feed driver coherent _
  | unaddressed _ => exact coherent_feed driver coherent _
  | _ => exact coherent

theorem coherent_joined (driver : Driver K.Uri) (coherent : Coherent driver.context)
    (branch : BranchId) (events : List TuEvent) :
    Coherent (driver.joined K branch events).context := by
  cases events with
  | nil =>
      simp only [joined]
      split
      · exact coherent
      · exact coherent_feed { driver with looping := true } coherent _
  | cons event later =>
      simp only [joined]
      split
      · exact coherent_feed
          { driver with branches := driver.branches ++ [(branch, later)], looping := true }
          coherent _
      · exact coherent

theorem coherent_joinNext (coherent : Coherent driver.context) :
    Coherent (driver.joinNext K world).context := by
  simp only [joinNext]
  split
  · exact coherent
  · split
    · apply coherent_joined
      exact coherent
    · exact coherent

/-- A step keeps the context coherent. -/
theorem coherent_step (coherent : Coherent driver.context) :
    Coherent (step K world driver).context := by
  simp only [step]
  split
  · apply coherent_perform
    exact coherent
  · split
    · exact coherent
    · exact coherent_joinNext coherent
  · exact coherent

/-- Whatever the store and the network answer, the driver stops. -/
theorem exists_stopped (world : World) (driver : Driver K.Uri)
    (coherent : Coherent driver.context) :
    ∃ steps, ((step K world)^[steps] driver).status ≠ .running := by
  apply exists_iterate_stopped (fun driver : Driver K.Uri => driver.status = .running)
    (fun driver => Coherent driver.context) rank
  · intro driver _ coherent
    exact coherent_step coherent
  · intro driver running coherent goes
    cases effects : driver.effects with
    | cons effect rest =>
        rw [step_of_effect running effects]
        exact rank_perform_lt coherent effects
    | nil =>
        rw [step_of_idle running effects] at goes ⊢
        split at goes
        · contradiction
        · next goesOn =>
            rw [if_neg goesOn]
            exact rank_joinNext_lt coherent goes
  · exact coherent

/-- A driver that has stopped takes no further step. -/
theorem iterate_of_stopped (stopped : driver.status ≠ .running) (steps : Nat) :
    (step K world)^[steps] driver = driver :=
  Function.iterate_fixed (step_of_stopped stopped) steps

/-- A driver that has stopped stays as it is. -/
theorem iterate_of_le {first second : Nat} (later : first ≤ second)
    (stopped : ((step K world)^[first] driver).status ≠ .running) :
    (step K world)^[second] driver = (step K world)^[first] driver := by
  obtain ⟨more, rfl⟩ := Nat.exists_eq_add_of_le' later
  rw [Function.iterate_add_apply, iterate_of_stopped stopped]

/-- A driver that has failed never returns. -/
theorem ne_returned_of_failed {first : Nat}
    (failed : ((step K world)^[first] driver).status = .failed) (second : Nat) :
    ((step K world)^[second] driver).status ≠ .returned := by
  intro returned
  rcases Nat.le_total first second with later | earlier
  · rw [iterate_of_le later (by simp [failed]), failed] at returned
    contradiction
  · rw [iterate_of_le earlier (by simp [returned]), returned] at failed
    contradiction

end Ranks

/-! ## What a run of the driver comes to -/

section Settling

variable {world : World} {config : ProxyConfig} {request : Request K.Uri}

/-- The driver begins with everything the request brings up still to do. -/
theorem sound_start (world : World) (config : ProxyConfig) (request : Request K.Uri) :
    Sound world config request (start K config request) where
  isRequest := rfl
  context := rfl
  accounts := by
    have emits : emitted (onInput K) (.new config) [.upstream request] =
        (start K config request).effects := List.append_nil _
    have coherent : Coherent (ResponseContext.new config : ResponseContext K.Uri) :=
      coherent_new config
    constructor
    · exact ⟨[], rfl, by simp⟩
    · intro response member
      rw [← emits]
      exact .inr member
    · right
      intro branch live
      right
      obtain ⟨entry, member, isBranch, -⟩ := live
      have ids := (onInput_advances coherent (.upstream request)).ids
      rw [← isBranch]
      have isId := List.mem_map_of_mem (f := Branch.id) member
      change entry.id ∈ (onInput K (.new config) (.upstream request)).1.branches.map Branch.id
        at isId
      rw [ids] at isId
      exact isId
    · intro branch member
      rw [← emits]
      exact .inr (.inl member)
    · intro outstanding
      change Outstanding (onInput K) AsksVerdict AnswersVerdict (.new config)
        ([] ++ [.upstream request]) at outstanding
      rcases (outstanding_concat_iff _).mp outstanding with asked | ⟨before, -⟩
      · exact asked
      · exact absurd before (not_outstanding_nil _ _ _ _)
    · intro outstanding
      change Outstanding (onInput K) AsksTargets AnswersTargets (.new config)
        ([] ++ [.upstream request]) at outstanding
      rcases (outstanding_concat_iff _).mp outstanding with asked | ⟨before, -⟩
      · exact asked
      · exact absurd before (not_outstanding_nil _ _ _ _)
    · intro branch copy target nextHop member _
      rw [← emits]
      exact .inl member

/-- While the transport does its part the driver is sound, until it returns. -/
theorem sound_proxyRequest
    (smooth : ∀ steps, Smooth K world (proxyRequest K world config request steps)) (steps : Nat) :
    ((proxyRequest K world config request steps).status = .running ∧
        Sound world config request (proxyRequest K world config request steps)) ∨
      ((proxyRequest K world config request steps).status = .returned ∧
        Returned world config request (proxyRequest K world config request steps)) := by
  induction steps with
  | zero => exact .inl ⟨rfl, sound_start world config request⟩
  | succ steps ih =>
      have next : proxyRequest K world config request (steps + 1) =
          step K world (proxyRequest K world config request steps) :=
        Function.iterate_succ_apply' _ _ _
      rw [next]
      rcases ih with ⟨running, sound⟩ | ⟨returned, ended⟩
      · exact sound_step (smooth steps) running sound
      · rw [step_of_stopped (by simp [returned])]
        exact .inr ⟨returned, ended⟩

theorem proxyRequest_of_le {first second : Nat} (later : first ≤ second)
    (stopped : (proxyRequest K world config request first).status ≠ .running) :
    proxyRequest K world config request second = proxyRequest K world config request first :=
  iterate_of_le later stopped

/-- What holds along the inputs until the driver stops holds along them whenever it is
looked at. -/
theorem along_of_stopped {condition : ResponseContext K.Uri → Input K.Uri → Prop} {last : Nat}
    (stopped : (proxyRequest K world config request last).status ≠ .running)
    (along : ∀ steps ≤ last, Along (onInput K) condition (.new config)
      (proxyRequest K world config request steps).inputs) (steps : Nat) :
    Along (onInput K) condition (.new config)
      (proxyRequest K world config request steps).inputs := by
  rcases Nat.le_total steps last with earlier | later
  · exact along steps earlier
  · rw [proxyRequest_of_le later stopped]
    exact along last le_rfl

theorem proxyRequest_ne_returned {first : Nat}
    (failed : (proxyRequest K world config request first).status = .failed) (second : Nat) :
    (proxyRequest K world config request second).status ≠ .returned :=
  ne_returned_of_failed failed second

/-- A proxied request is settled: the driver has returned, with the context over or every
branch reported concluded, every copy that had no address reported as the failure of its
branch, and everything the context answers sent upstream, a final response with it. -/
structure Settled (K : Kernel) (world : World) (config : ProxyConfig) (driver : Driver K.Uri) :
    Prop where
  returned : driver.status = .returned
  concluded : driver.context.finished = true ∨
    ∀ branch ∈ launches (emitted (onInput K) (.new config) driver.inputs),
      .branchTransportError branch ∈ driver.inputs
  reported : ∀ branch request target nextHop,
    .forward branch request target nextHop ∈ emitted (onInput K) (.new config) driver.inputs →
      world.destinationOf nextHop = false → .branchTransportError branch ∈ driver.inputs
  sent : ∀ response ∈ answers (emitted (onInput K) (.new config) driver.inputs),
    response ∈ driver.responded
  answered : ∃ response ∈ driver.responded, 200 ≤ response.status.code

/-- A context that is not over, with nothing outstanding, has sent a final response. -/
theorem sendsFinal_of_accounts {inputs : List (Input K.Uri)} {responded : List Response}
    (moves : Along (onInput K) (StaysMoving K) (.new config) inputs)
    (accounts : Accounts world config request inputs [] [] responded)
    (unfinished : (after (onInput K) (.new config) inputs).finished = false) :
    SendsFinal (emitted (onInput K) (.new config) inputs) := by
  have arrived : ∃ request, .upstream request ∈ inputs := by
    obtain ⟨later, rfl, -⟩ := accounts.begins
    exact ⟨request, List.mem_cons_self⟩
  rcases driven_of_staysMoving moves arrived with ended | sent | verdict | targets | pending
  · rw [unfinished] at ended
    contradiction
  · exact sent
  · obtain ⟨effect, member, -⟩ := accounts.verdict verdict
    contradiction
  · obtain ⟨effect, member, -⟩ := accounts.targets targets
    contradiction
  · obtain ⟨branch, live⟩ := hasPending_iff.mp pending
    rcases accounts.live with ended | accounted
    · rw [unfinished] at ended
      contradiction
    · rcases accounted branch live with read | launched <;> contradiction

/-- A driver that has returned has settled the request. -/
theorem Returned.settled (responds : K.Responds) (respondable : isRespondable K request = true)
    {driver : Driver K.Uri} (moves : Along (onInput K) (StaysMoving K) (.new config) driver.inputs)
    (returned : driver.status = .returned) (ended : Returned world config request driver) :
    Settled K world config driver := by
  have accounted : ∃ reading, Accounts world config request driver.inputs [] reading
      driver.responded := by
    rcases ended.accounts with ⟨-, accounts⟩ | accounts
    · exact accounts
    · exact ⟨[], accounts⟩
  obtain ⟨reading, accounts⟩ := accounted
  have sent : ∀ response ∈ answers (emitted (onInput K) (.new config) driver.inputs),
      response ∈ driver.responded := by
    intro response member
    rcases accounts.answered response member with sent | due
    · exact sent
    · contradiction
  have sendsFinal : SendsFinal (emitted (onInput K) (.new config) driver.inputs) := by
    cases finished : (after (onInput K) (.new config) driver.inputs).finished with
    | true =>
        obtain ⟨later, isInputs, fed⟩ := accounts.begins
        rw [isInputs] at finished ⊢
        apply sendsFinal_of_finished responds config respondable _ finished
        rintro input member arrived rfl
        cases fed _ member
    | false =>
        rcases ended.accounts with ⟨stopped, -⟩ | settled
        · rw [ended.context, finished] at stopped
          contradiction
        · exact sendsFinal_of_accounts moves settled finished
  constructor
  · exact returned
  · rcases ended.accounts with ⟨finished, -⟩ | settled
    · exact .inl finished
    · right
      intro branch member
      rcases settled.reported branch member with read | due | told
      · contradiction
      · contradiction
      · exact told
  · intro branch copy target nextHop member absent
    rcases accounts.unaddressed branch copy target nextHop member absent with due | told
    · contradiction
    · exact told
  · exact sent
  · obtain ⟨response, member, final⟩ := sendsFinal
    exact ⟨response, sent response member, final⟩

/-- While the transport does its part, and no group is forked of which no copy can be
built, every proxied request that can be answered is settled. -/
theorem settles (responds : K.Responds) (world : World) (config : ProxyConfig)
    (request : Request K.Uri) (respondable : isRespondable K request = true)
    (smooth : ∀ steps, Smooth K world (proxyRequest K world config request steps))
    (moves : ∀ steps, Along (onInput K) (StaysMoving K) (.new config)
      (proxyRequest K world config request steps).inputs) :
    ∃ steps, Settled K world config (proxyRequest K world config request steps) := by
  obtain ⟨steps, stopped⟩ := exists_stopped world (start K config request)
    (onInput_advances (coherent_new config) (.upstream request)).coherent
  rcases sound_proxyRequest smooth steps with ⟨running, -⟩ | ⟨returned, ended⟩
  · exact absurd running stopped
  · exact ⟨steps, ended.settled responds respondable (moves steps) returned⟩

/-- A world in which nothing of the transport fails is smooth at every step. -/
theorem smooth_of_forall {world : World} (sends : ∀ count, (world.send count).isSome = true)
    (responds : ∀ count, world.respond count = true) (joins : ∀ count, world.joins count = true)
    (driver : Driver K.Uri) : Smooth K world driver := by
  unfold Smooth
  split
  · exact fun _ => sends _
  · exact responds _
  · exact joins _
  · trivial

/-- Two phones are registered.  The first answers; where the second is, and whether its
copy can be sent. -/
def household (second : String) (sent : Option (List TuEvent)) : World where
  destinationOf nextHop := decide (nextHop ≠ bytes "sip:bob@desk.example")
  lookup _ := some [phone "sip:bob@10.0.0.2" 1000, phone second 1000]
  send count := if count = 0 then some [.response (reply .ok branchA)] else sent
  respond _ := true
  next _ := 0
  joins _ := true

/-- A call to that household. -/
def callHousehold (second : String) (sent : Option (List TuEvent)) (steps : Nat) :
    Driver Reference.kernel.Uri :=
  proxyRequest Reference.kernel (household second sent) edge invite steps

theorem callHousehold_desk_stopped :
    (callHousehold "sip:bob@desk.example" (some []) 12).status ≠ .running := by
  decide +kernel

theorem callHousehold_desk_moves : ∀ steps ≤ 12,
    Along (onInput Reference.kernel) (StaysMoving Reference.kernel) (.new edge)
      (callHousehold "sip:bob@desk.example" (some []) steps).inputs := by
  decide +kernel

/-- The desk phone has no address, and the other one answers. -/
theorem settles_household :
    ∃ steps, Settled Reference.kernel (household "sip:bob@desk.example" (some [])) edge
      (callHousehold "sip:bob@desk.example" (some []) steps) := by
  apply settles Reference.kernel_responds _ _ _ (by decide +kernel)
  · intro steps
    apply smooth_of_forall
    · intro count
      cases count <;> rfl
    · exact fun _ => rfl
    · exact fun _ => rfl
  · exact along_of_stopped callHousehold_desk_stopped callHousehold_desk_moves

/-- The copy to the second phone cannot be sent: the driver gives up on the first, which
was about to answer. -/
theorem not_settles_unsent :
    ¬ ∃ steps, Settled Reference.kernel (household "sip:bob@10.0.0.3" none) edge
      (callHousehold "sip:bob@10.0.0.3" none steps) := by
  rintro ⟨steps, settled⟩
  have failed : (callHousehold "sip:bob@10.0.0.3" none 12).status = .failed := by decide +kernel
  exact proxyRequest_ne_returned failed steps settled.returned

end Settling

end Driver

end SipxClstr.Node
