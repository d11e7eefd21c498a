import SipxClstr.Probe.Engine
import SipxClstr.Sip.Reference
import Mathlib.Data.Bool.Basic

/-!
# Progress of a probe run

A run in progress waits for one step, and that step's timer is set.  So nothing
but timers is needed to end it: three in a row reach `Finish`.
-/

namespace SipxClstr.Probe

open SipxClstr.Sip

/-- The step a run waits for, in the plan or in the cleanup. -/
def Waiting.awaited : Waiting → Option Step
  | .nothing => none
  | .step awaited => some awaited
  | .cleanup awaited => some awaited

/-- Which timers are set once an effect is performed. -/
def Effect.timers {Uri : Type} (timers : Step → Bool) : Effect Uri → Step → Bool
  | .setTimer step _ => Function.update timers step true
  | .clearTimer step => Function.update timers step false
  | _ => timers

/-- Which timers are still set once an input arrives: one that fired is not. -/
def Input.timers (timers : Step → Bool) : Input → Step → Bool
  | .timerFired step => Function.update timers step false
  | _ => timers

def Effect.isFinish {Uri : Type} : Effect Uri → Bool
  | .finish _ => true
  | _ => false

namespace ProbeEngine

section Runs

variable (K : Kernel) [Inhabited K.Uri]

/-- Each input of a run with the effects it was answered with. -/
def trace (engine : ProbeEngine) (inputs : List (Duration × Input)) :
    List ((Duration × Input) × List (Effect K.Uri)) :=
  (machine K).observed (fun engine input => (input, (machine K engine input).2)) engine inputs

/-- The timers set after a run: set by some turn, and since then neither cleared
nor seen to fire. -/
def timersAfter (engine : ProbeEngine) (inputs : List (Duration × Input)) : Step → Bool :=
  (engine.trace K inputs).foldl
    (fun timers turn => turn.2.foldl Effect.timers (turn.1.2.timers timers)) fun _ => false

/-- Deliver the timer of whatever is awaited, once for each instant given. -/
def fireAwaited (engine : ProbeEngine) : List Duration → ProbeEngine × List (Effect K.Uri)
  | [] => (engine, [])
  | now :: later =>
      match engine.waiting.awaited with
      | none => (engine, [])
      | some step =>
          let (fired, effects) := engine.onInput K now (.timerFired step)
          let (last, more) := fired.fireAwaited later
          (last, effects ++ more)

/-- A run finishes at most once, and emits nothing afterwards. -/
def FinishesOnce (effects : List (Effect K.Uri)) : Prop :=
  effects.countP Effect.isFinish ≤ 1 ∧
    ∀ before run after, effects = before ++ .finish run :: after → after = []

/-- A run that has not finished waits for a step whose timer is set, and three
timers of what it waits for finish it. -/
def CanFinish (engine : ProbeEngine) (inputs : List (Duration × Input)) : Prop :=
  (∃ run, .finish run ∈ (machine K).emitted engine inputs) ∨
    ((∃ step, ((machine K).after engine inputs).waiting.awaited = some step ∧
        engine.timersAfter K inputs step = true) ∧
      ∀ first second third, ∃ run,
        .finish run ∈ (((machine K).after engine inputs).fireAwaited K [first, second, third]).2)

/-- What a run is promised at each point: it ends once, and it can still end. -/
def Progresses (engine : ProbeEngine) (inputs : List (Duration × Input)) : Prop :=
  FinishesOnce K ((machine K).emitted engine inputs) ∧ engine.CanFinish K inputs

end Runs

/-- A 2xx delivered while the run waits for the resolution, which sent nothing to
answer. -/
def AnswersResolution (engine : ProbeEngine) (input : Duration × Input) : Prop :=
  engine.waiting = .step .resolve ∧
    ∃ response, input.2 = .response response ∧ isSuccess response.status = true

/-! ## Turns -/

section Turns

variable {K : Kernel} [Inhabited K.Uri] {engine : ProbeEngine}

@[simp]
theorem awaited_nothing : Waiting.nothing.awaited = none :=
  rfl

@[simp]
theorem awaited_step (step : Step) : (Waiting.step step).awaited = some step :=
  rfl

@[simp]
theorem awaited_cleanup (step : Step) : (Waiting.cleanup step).awaited = some step :=
  rfl

theorem owes_forget_self (state : RunState) (obligation : Obligation) :
    (state.forget obligation).owes obligation = false := by
  simp [RunState.owes, RunState.forget]

theorem owes_of_owes_forget {state : RunState} {forgotten obligation : Obligation}
    (owes : (state.forget forgotten).owes obligation = true) : state.owes obligation = true := by
  simp only [RunState.owes, RunState.forget, List.contains_eq_mem, decide_eq_true_eq,
    List.mem_filter] at owes ⊢
  exact owes.1

/-- The obligations a run still has to undo. -/
def cleanupsLeft (state : RunState) : Nat :=
  (state.owes .endDialog).toNat + (state.owes .deregister).toNat

theorem cleanupsLeft_le (state : RunState) : cleanupsLeft state ≤ 2 :=
  Nat.add_le_add (Bool.toNat_le _) (Bool.toNat_le _)

theorem cleanupsLeft_forget_le (state : RunState) (obligation : Obligation) :
    cleanupsLeft (state.forget obligation) ≤ cleanupsLeft state := by
  apply Nat.add_le_add <;> apply Bool.toNat_le_toNat <;> apply owes_of_owes_forget

theorem cleanupsLeft_forget_lt {state : RunState} {obligation : Obligation}
    (owes : state.owes obligation = true) :
    cleanupsLeft (state.forget obligation) < cleanupsLeft state := by
  cases obligation
  · apply Nat.add_lt_add_of_lt_of_le
    · rw [owes, owes_forget_self]
      exact Nat.one_pos
    · exact Bool.toNat_le_toNat owes_of_owes_forget
  · apply Nat.add_lt_add_of_le_of_lt
    · exact Bool.toNat_le_toNat owes_of_owes_forget
    · rw [owes, owes_forget_self]
      exact Nat.one_pos

/-- What a turn that ends a step or a cleanup leaves: a finished run, or a cleanup
whose timer it sets and with fewer obligations left than `left`. -/
inductive Winds (left : Nat) : ProbeEngine × List (Effect K.Uri) → Prop where
  | finishes {next : ProbeEngine} {run : ProbeRun} (waiting : next.waiting = .nothing)
      (finished : next.state.finished = true) : Winds left (next, [.finish run])
  | cleans {next : ProbeEngine} {step : Step} {request : Request K.Uri} {after : Duration}
      (waiting : next.waiting = .cleanup step) (unfinished : next.state.finished = false)
      (fewer : cleanupsLeft next.state < left) :
      Winds left (next, [.send request, .setTimer step after])

theorem winds_cleanup (engine : ProbeEngine) (unfinished : engine.state.finished = false) :
    Winds (cleanupsLeft engine.state) (engine.cleanup K) := by
  unfold cleanup
  split
  next owes =>
    apply Winds.cleans
    · simp [awaitNext]
    · simpa [simpleRequest, awaitNext, RunState.forget] using unfinished
    · simpa [simpleRequest, awaitNext] using cleanupsLeft_forget_lt owes
  next =>
    split
    next owes =>
      apply Winds.cleans
      · simp [awaitNext]
      · simpa [registerRequest, awaitNext, RunState.forget] using unfinished
      · simpa [registerRequest, awaitNext] using cleanupsLeft_forget_lt owes
    next => exact .finishes rfl rfl

/-- A turn that clears a timer and winds the run up. -/
inductive WindsUp (left : Nat) : ProbeEngine × List (Effect K.Uri) → Prop where
  | clears {next : ProbeEngine} {effects : List (Effect K.Uri)} {step : Step}
      (winds : Winds left (next, effects)) : WindsUp left (next, .clearTimer step :: effects)
  | atOnce {outcome : ProbeEngine × List (Effect K.Uri)} (winds : Winds left outcome) :
      WindsUp left outcome

omit [Inhabited K.Uri] in
theorem Winds.mono {few many : Nat} {outcome : ProbeEngine × List (Effect K.Uri)}
    (winds : Winds few outcome) (le : few ≤ many) : Winds many outcome := by
  cases winds with
  | finishes waiting finished => exact .finishes waiting finished
  | cleans waiting unfinished fewer =>
      exact .cleans waiting unfinished (Nat.lt_of_lt_of_le fewer le)

/-- Cleaning up from a state that owes no more winds a run up. -/
theorem winds_cleanup_of_le {other : ProbeEngine} (unfinished : other.state.finished = false)
    (le : cleanupsLeft other.state ≤ cleanupsLeft engine.state) :
    Winds (cleanupsLeft engine.state) (other.cleanup K) :=
  (winds_cleanup other unfinished).mono le

@[simp]
theorem state_decide (verdict : Verdict) : (engine.decide verdict).state = engine.state := by
  unfold decide
  split <;> rfl

@[simp]
theorem waiting_decide (verdict : Verdict) : (engine.decide verdict).waiting = engine.waiting := by
  unfold decide
  split <;> rfl

@[simp]
theorem state_concludeStep (succeeded : Bool) :
    (engine.concludeStep succeeded).state = engine.state := by
  unfold concludeStep
  split <;> rfl

theorem windsUp_fail (engine : ProbeEngine) (unfinished : engine.state.finished = false)
    (step : Step) (cause : Cause) :
    WindsUp (cleanupsLeft engine.state) (engine.fail K step cause) := by
  apply WindsUp.clears
  apply winds_cleanup_of_le <;> unfold failed <;> split
  · simpa [RunState.forget] using unfinished
  · simpa using unfinished
  · simpa using cleanupsLeft_forget_le engine.state .endDialog
  · simp

theorem windsUp_abandon (engine : ProbeEngine) (unfinished : engine.state.finished = false)
    (fault : ProbeFault) :
    WindsUp (cleanupsLeft engine.state) (engine.abandon K fault) := by
  simp only [abandon]
  split
  · apply WindsUp.clears
    apply winds_cleanup_of_le <;> simp [unfinished]
  · apply WindsUp.atOnce
    apply winds_cleanup_of_le <;> simp [unfinished]

theorem windsUp_afterCleanup (engine : ProbeEngine) (unfinished : engine.state.finished = false)
    (step : Step) :
    WindsUp (cleanupsLeft engine.state) (engine.afterCleanup K step) := by
  apply WindsUp.clears
  apply winds_cleanup_of_le
  · exact unfinished
  · exact le_refl _

theorem windsUp_failStep (engine : ProbeEngine) (unfinished : engine.state.finished = false)
    (step : Step) (cause : Cause) :
    WindsUp (cleanupsLeft engine.state) ((engine.concludeStep false).fail K step cause) := by
  have winds :=
    windsUp_fail (K := K) (engine.concludeStep false) (by simpa using unfinished) step cause
  rwa [state_concludeStep] at winds

theorem windsUp_cleanupFailed (engine : ProbeEngine) (unfinished : engine.state.finished = false)
    (step : Step) :
    WindsUp (cleanupsLeft engine.state) (engine.cleanupFailed.afterCleanup K step) :=
  windsUp_afterCleanup engine.cleanupFailed unfinished step

/-- The timer of what is awaited winds the run up. -/
theorem windsUp_onTimeout (engine : ProbeEngine) (unfinished : engine.state.finished = false)
    {step : Step} (awaited : engine.waiting.awaited = some step) :
    WindsUp (cleanupsLeft engine.state) (engine.onTimeout K step) := by
  unfold onTimeout
  split
  · exact windsUp_failStep engine unfinished step _
  · split
    · exact windsUp_cleanupFailed engine unfinished step
    next notStep notCleanup =>
      rcases waiting : engine.waiting with _ | found | found <;> rw [waiting] at awaited
      · cases awaited
      · cases awaited
        exact absurd waiting notStep
      · cases awaited
        exact absurd waiting notCleanup

theorem windsUp_onTransportError (engine : ProbeEngine)
    (unfinished : engine.state.finished = false) {step : Step}
    (awaited : engine.waiting.awaited = some step) :
    WindsUp (cleanupsLeft engine.state) (engine.onTransportError K) := by
  unfold onTransportError
  split
  · exact windsUp_failStep engine unfinished _ _
  · exact windsUp_cleanupFailed engine unfinished _
  next waiting => simp [waiting] at awaited

omit [Inhabited K.Uri] in
theorem WindsUp.finish_or_awaits {left : Nat} {outcome : ProbeEngine × List (Effect K.Uri)}
    (winds : WindsUp left outcome) :
    (∃ run, .finish run ∈ outcome.2) ∨
      (outcome.1.state.finished = false ∧ cleanupsLeft outcome.1.state < left ∧
        ∃ step, outcome.1.waiting.awaited = some step) := by
  rcases winds with ⟨winds⟩ | ⟨winds⟩ <;>
    rcases winds with ⟨-, finished⟩ | ⟨waiting, unfinished, fewer⟩
  · exact .inl ⟨_, List.mem_cons_of_mem _ (List.mem_singleton_self _)⟩
  · exact .inr ⟨unfinished, fewer, _, by rw [waiting, awaited_cleanup]⟩
  · exact .inl ⟨_, List.mem_singleton_self _⟩
  · exact .inr ⟨unfinished, fewer, _, by rw [waiting, awaited_cleanup]⟩

/-- As many timers as there are obligations left, and one more, finish a run that
waits for a step. -/
theorem finish_mem_fireAwaited {times : List Duration}
    (unfinished : engine.state.finished = false)
    (awaits : ∃ step, engine.waiting.awaited = some step)
    (enough : cleanupsLeft engine.state < times.length) :
    ∃ run, .finish run ∈ (engine.fireAwaited K times).2 := by
  induction times generalizing engine with
  | nil => simp at enough
  | cons now later ih =>
      obtain ⟨step, awaited⟩ := awaits
      have winds :
          WindsUp (cleanupsLeft engine.state) (engine.onInput K now (.timerFired step)) := by
        rw [onInput, if_neg (by simp [unfinished])]
        exact windsUp_onTimeout { engine with now := now } unfinished awaited
      rw [fireAwaited, awaited]
      rcases winds.finish_or_awaits with ⟨run, member⟩ | ⟨unfinished, fewer, awaits⟩
      · exact ⟨run, List.mem_append_left _ member⟩
      · simp only [List.length_cons] at enough
        obtain ⟨run, member⟩ := ih unfinished awaits (by omega)
        exact ⟨run, List.mem_append_right _ member⟩

/-! ## One turn -/

/-- What is known of a run between two turns: it is over, or it waits for a step
whose timer is set.  While it waits for the resolution it has sent nothing. -/
inductive Stands (timers : Step → Bool) : ProbeEngine × List (Effect K.Uri) → Prop where
  | done {next : ProbeEngine} {run : ProbeRun} (before : List (Effect K.Uri))
      (waiting : next.waiting = .nothing) (finished : next.state.finished = true)
      (first : ∀ effect ∈ before, effect.isFinish = false) :
      Stands timers (next, before ++ [.finish run])
  | waits {next : ProbeEngine} {effects : List (Effect K.Uri)} (step : Step)
      (unfinished : next.state.finished = false)
      (awaited : next.waiting.awaited = some step) (set : timers step = true)
      (silent : next.waiting = .step .resolve → next.outstandingCseq = none)
      (none : ∀ effect ∈ effects, effect.isFinish = false) : Stands timers (next, effects)

/-- A turn, judged by the timers it leaves. -/
def Turns (timers : Step → Bool) (outcome : ProbeEngine × List (Effect K.Uri)) : Prop :=
  Stands (outcome.2.foldl Effect.timers timers) outcome

omit [Inhabited K.Uri] in
theorem WindsUp.turns {left : Nat} {outcome : ProbeEngine × List (Effect K.Uri)}
    (winds : WindsUp left outcome) (timers : Step → Bool) : Turns timers outcome := by
  rcases winds with ⟨winds⟩ | ⟨winds⟩ <;>
    rcases winds with ⟨waiting, finished⟩ | ⟨waiting, unfinished, -⟩
  · apply Stands.done [_] waiting finished
    simp [Effect.isFinish]
  · apply Stands.waits _ unfinished (by rw [waiting, awaited_cleanup])
    · simp [Effect.timers]
    · simp [waiting]
    · simp [Effect.isFinish]
  · exact Stands.done [] waiting finished (by simp)
  · apply Stands.waits _ unfinished (by rw [waiting, awaited_cleanup])
    · simp [Effect.timers]
    · simp [waiting]
    · simp [Effect.isFinish]

theorem turns_sendRegister (unfinished : engine.state.finished = false) (timers : Step → Bool) :
    Turns timers (engine.sendRegister K) := by
  apply Stands.waits .register
  · exact unfinished
  · rfl
  · simp [Effect.timers, sendRegister]
  · simp [awaitNext, begin]
  · simp [Effect.isFinish]

theorem turns_sendInvite (unfinished : engine.state.finished = false) (timers : Step → Bool) :
    Turns timers (engine.sendInvite K) := by
  apply Stands.waits .invite
  · exact unfinished
  · rfl
  · simp [Effect.timers, sendInvite]
  · simp [awaitNext, begin]
  · simp [Effect.isFinish]

theorem turns_sendBye (unfinished : engine.state.finished = false) (timers : Step → Bool) :
    Turns timers (engine.sendBye K) := by
  apply Stands.waits .bye
  · exact unfinished
  · rfl
  · simp [Effect.timers, sendBye]
  · simp [awaitNext, skipNext, begin]
  · simp [Effect.isFinish]

section Waiting

variable (engine : ProbeEngine) {timers : Step → Bool} {step : Step}

omit [Inhabited K.Uri] in
/-- A turn that does nothing leaves the run waiting. -/
theorem turns_still (timers : Step → Bool) {next : ProbeEngine}
    (unfinished : engine.state.finished = false) (awaited : engine.waiting.awaited = some step)
    (set : timers step = true)
    (silent : engine.waiting = .step .resolve → engine.outstandingCseq = none)
    (state : next.state.finished = engine.state.finished) (waiting : next.waiting = engine.waiting)
    (outstanding : next.outstandingCseq = engine.outstandingCseq) :
    Turns (K := K) timers (next, []) := by
  apply Stands.waits step
  · rw [state, unfinished]
  · rw [waiting, awaited]
  · exact set
  · rwa [waiting, outstanding]
  · simp

theorem turns_retryChallenged (unfinished : engine.state.finished = false)
    (waiting : engine.waiting = .step step) (set : timers step = true)
    (silent : engine.waiting = .step .resolve → engine.outstandingCseq = none) :
    Turns timers (engine.retryChallenged K step) := by
  have awaited : engine.waiting.awaited = some step := by rw [waiting, awaited_step]
  cases step with
  | resolve => exact turns_still engine timers unfinished awaited set silent rfl rfl rfl
  | register | invite | bye =>
      apply Stands.waits
      · exact unfinished
      · exact awaited
      · exact set
      · simp [awaitNext, waiting]
      · simp [Effect.isFinish]

theorem turns_onStepSuccess (unfinished : engine.state.finished = false)
    (notResolve : step ≠ .resolve) (response : Response) :
    Turns timers (engine.onStepSuccess K step response) := by
  have concluded : (engine.concludeStep true).state.finished = false := by
    rw [state_concludeStep, unfinished]
  have owing : ∀ obligation,
      ((engine.concludeStep true).state.owe obligation).finished = false := by
    intro obligation
    unfold RunState.owe
    split <;> exact concluded
  cases step with
  | resolve => contradiction
  | register => exact turns_sendInvite (owing _) timers
  | invite =>
      simp only [onStepSuccess]
      split
      · exact (windsUp_fail (K := K) _ (owing .endDialog) _ _).turns timers
      · exact turns_sendBye (owing _) timers
  | bye =>
      apply (WindsUp.atOnce (winds_cleanup _ _)).turns
      exact concluded

theorem turns_onStepResponse (unfinished : engine.state.finished = false)
    (waiting : engine.waiting = .step step) (set : timers step = true)
    (silent : engine.waiting = .step .resolve → engine.outstandingCseq = none)
    {response : Response}
    (expected : engine.waiting = .step .resolve → isSuccess response.status = false) :
    Turns timers (engine.onStepResponse K step response.status.code response) := by
  unfold onStepResponse
  split
  · split
    · exact (windsUp_abandon engine unfinished _).turns timers
    · split
      · exact (windsUp_failStep engine unfinished step _).turns timers
      · exact turns_retryChallenged _ unfinished waiting set silent
  · split
    · exact (windsUp_failStep engine unfinished step _).turns timers
    · split
      · exact (windsUp_failStep engine unfinished step _).turns timers
      next succeeds =>
        apply turns_onStepSuccess engine unfinished
        rintro rfl
        exact succeeds (by simp [expected waiting])

theorem turns_onResponse (unfinished : engine.state.finished = false)
    (awaited : engine.waiting.awaited = some step) (set : timers step = true)
    (silent : engine.waiting = .step .resolve → engine.outstandingCseq = none)
    {response : Response}
    (expected : engine.waiting = .step .resolve → isSuccess response.status = false) :
    Turns timers (engine.onResponse K response) := by
  unfold onResponse
  split
  · exact turns_still engine timers unfinished awaited set silent rfl rfl rfl
  · split
    · exact turns_still engine timers unfinished awaited set silent rfl rfl rfl
    · cases waiting : engine.waiting with
      | nothing => simp [waiting] at awaited
      | cleanup found =>
          simp only
          split
          · exact (windsUp_cleanupFailed engine unfinished found).turns timers
          · exact (windsUp_afterCleanup engine unfinished found).turns timers
      | step found =>
          rw [waiting, awaited_step, Option.some.injEq] at awaited
          subst found
          exact turns_onStepResponse engine unfinished waiting set silent expected

/-- A run that waits for a step whose timer is set goes on to wait for such a step, or
ends. -/
theorem turns_onInput (unfinished : engine.state.finished = false)
    (awaited : engine.waiting.awaited = some step) (set : timers step = true)
    (silent : engine.waiting = .step .resolve → engine.outstandingCseq = none) (now : Duration)
    {input : Input} (notStart : input ≠ .start)
    (expected : ¬ AnswersResolution engine (now, input)) :
    Turns (input.timers timers) (engine.onInput K now input) := by
  rw [onInput, if_neg (by simp [unfinished])]
  cases input with
  | start => contradiction
  | resolved outcome =>
      simp only [onResolved]
      split
      · exact turns_still engine timers unfinished awaited set silent rfl rfl rfl
      · cases outcome with
        | error _ =>
            exact (windsUp_failStep (K := K) { engine with now := now } unfinished _ _).turns _
        | ok _ =>
            apply turns_sendRegister
            rwa [state_concludeStep]
  | response response =>
      apply turns_onResponse { engine with now := now } unfinished awaited set silent
      intro waiting
      rw [← Bool.not_eq_true]
      intro success
      exact expected ⟨waiting, response, rfl, success⟩
  | transportError =>
      exact (windsUp_onTransportError (K := K) { engine with now := now } unfinished awaited).turns _
  | timerFired fired =>
      by_cases same : step = fired
      · subst fired
        exact (windsUp_onTimeout (K := K) { engine with now := now } unfinished awaited).turns _
      · have notStep : engine.waiting ≠ .step fired := by
          intro waiting
          simp [waiting, Ne.symm same] at awaited
        have notCleanup : engine.waiting ≠ .cleanup fired := by
          intro waiting
          simp [waiting, Ne.symm same] at awaited
        simp only [onTimeout, if_neg notStep, if_neg notCleanup]
        have still : Input.timers timers (.timerFired fired) step = true := by
          rw [Input.timers, Function.update_of_ne same, set]
        exact turns_still engine _ unfinished awaited still silent rfl rfl rfl
  | cancelled =>
      exact (windsUp_abandon (K := K) { engine with now := now } unfinished _).turns _
  | localResourceUnavailable =>
      exact (windsUp_abandon (K := K) { engine with now := now } unfinished _).turns _

end Waiting

end Turns

/-! ## Runs -/

section Runs

variable (K : Kernel) [Inhabited K.Uri]

theorem timersAfter_concat (engine : ProbeEngine) (past : List (Duration × Input))
    (input : Duration × Input) :
    engine.timersAfter K (past ++ [input]) =
      (machine K ((machine K).after engine past) input).2.foldl Effect.timers
        (input.2.timers (engine.timersAfter K past)) := by
  rw [timersAfter, trace, Reactive.Machine.observed_concat, List.foldl_append]
  rfl

variable {K}

omit [Inhabited K.Uri] in
theorem finishesOnce_of_none {effects : List (Effect K.Uri)}
    (none : ∀ effect ∈ effects, effect.isFinish = false) : FinishesOnce K effects := by
  constructor
  · rw [List.countP_eq_zero.mpr fun effect member => by simp [none effect member]]
    exact Nat.zero_le 1
  · rintro before run after rfl
    simpa [Effect.isFinish] using none (.finish run) (by simp)

omit [Inhabited K.Uri] in
theorem finishesOnce_of_last {before : List (Effect K.Uri)} {run : ProbeRun}
    (first : ∀ effect ∈ before, effect.isFinish = false) :
    FinishesOnce K (before ++ [.finish run]) := by
  constructor
  · rw [List.countP_append,
      List.countP_eq_zero.mpr fun effect member => by simp [first effect member]]
    exact Nat.le_refl 1
  · intro earlier other after split
    rcases Reactive.Machine.concat_eq_append_cons split with ⟨-, -, none⟩ | ⟨between, -, rfl⟩
    · exact none
    · simpa [Effect.isFinish] using first (.finish other) (by simp)

omit [Inhabited K.Uri] in
/-- What went before a turn did not end the run. -/
theorem Stands.append {timers : Step → Bool} {next : ProbeEngine}
    {effects : List (Effect K.Uri)} (stands : Stands timers (next, effects))
    {earlier : List (Effect K.Uri)} (none : ∀ effect ∈ earlier, effect.isFinish = false) :
    Stands timers (next, earlier ++ effects) := by
  cases stands with
  | done before waiting finished first =>
      rw [← List.append_assoc]
      apply Stands.done _ waiting finished
      intro effect member
      rcases List.mem_append.mp member with past | now
      · exact none effect past
      · exact first effect now
  | waits step unfinished awaited set silent noneNow =>
      apply Stands.waits step unfinished awaited set silent
      intro effect member
      rcases List.mem_append.mp member with past | now
      · exact none effect past
      · exact noneNow effect now

/-- A run that stands is promised its end. -/
theorem Stands.progresses {engine : ProbeEngine} {inputs : List (Duration × Input)}
    (stands : Stands (engine.timersAfter K inputs)
      ((machine K).after engine inputs, (machine K).emitted engine inputs)) :
    engine.Progresses K inputs := by
  generalize outcomeEq :
    ((machine K).after engine inputs, (machine K).emitted engine inputs) = outcome at stands
  unfold Progresses CanFinish
  cases stands with
  | done before waiting finished first =>
      obtain ⟨-, emittedEq⟩ := Prod.mk.inj outcomeEq
      rw [emittedEq]
      exact ⟨finishesOnce_of_last first,
        .inl ⟨_, List.mem_append_right _ (List.mem_singleton_self _)⟩⟩
  | waits step unfinished awaited set silent none =>
      obtain ⟨afterEq, emittedEq⟩ := Prod.mk.inj outcomeEq
      rw [afterEq, emittedEq]
      refine ⟨finishesOnce_of_none none, .inr ⟨⟨step, awaited, set⟩, fun first second third => ?_⟩⟩
      apply finish_mem_fireAwaited unfinished ⟨step, awaited⟩
      exact Nat.lt_succ_of_le (cleanupsLeft_le _)

theorem turns_start (engine : ProbeEngine) (unfinished : engine.state.finished = false)
    (silent : engine.outstandingCseq = none) (timers : Step → Bool) :
    Turns timers (engine.start K) := by
  unfold start
  split
  · exact (windsUp_abandon engine unfinished _).turns timers
  · apply Stands.waits .resolve
    · exact unfinished
    · rfl
    · simp [Effect.timers]
    · exact fun _ => silent
    · simp [Effect.isFinish]

variable {config : ProbeConfig} {marker : Marker} {first : Duration}

/-- The state of a run after `Start` and the inputs that follow it. -/
theorem stands_after {rest : List (Duration × Input)}
    (once : ∀ input ∈ rest, input.2 ≠ .start)
    (expected : (machine K).Along (fun engine input => ¬ AnswersResolution engine input)
      (new config marker) ((first, .start) :: rest)) :
    Stands ((new config marker).timersAfter K ((first, .start) :: rest))
      ((machine K).after (new config marker) ((first, .start) :: rest),
        (machine K).emitted (new config marker) ((first, .start) :: rest)) := by
  induction rest using List.reverseRecOn with
  | nil =>
      have turns :=
        turns_start (K := K) { new config marker with now := first } rfl rfl fun _ => false
      rw [Reactive.Machine.emitted_cons, Reactive.Machine.emitted_nil, List.append_nil]
      exact turns
  | append_singleton past input ih =>
      rw [← List.cons_append] at expected ⊢
      rw [Reactive.Machine.along_append] at expected
      have stands := ih (fun input member => once input (List.mem_append_left _ member)) expected.1
      rw [timersAfter_concat, Reactive.Machine.after_concat, Reactive.Machine.emitted_concat]
      generalize (machine K).after (new config marker) ((first, .start) :: past) = engine
        at stands expected ⊢
      generalize (machine K).emitted (new config marker) ((first, .start) :: past) = earlier
        at stands ⊢
      cases stands with
      | done before waiting finished first =>
          have ended : machine K engine input = (engine, []) := by
            simp [machine, onInput, finished]
          rw [ended, List.append_nil]
          exact .done before waiting finished first
      | waits step unfinished awaited set silent none =>
          apply Stands.append _ none
          exact turns_onInput engine unfinished awaited set silent input.1
            (once input (by simp)) expected.2.1

/-- What a stuck run looks like. -/
theorem onInput_of_answersResolution {engine : ProbeEngine} {input : Duration × Input}
    (unfinished : engine.state.finished = false) (silent : engine.outstandingCseq = none)
    (answers : AnswersResolution engine input) :
    ((machine K) engine input).1.waiting = .nothing ∧ ((machine K) engine input).2 = [] := by
  obtain ⟨now, kind⟩ := input
  obtain ⟨waiting, response, rfl, success⟩ := answers
  have hundreds : response.status.hundreds = 2 := by simpa [isSuccess] using success
  have notProvisional : response.status.isProvisional = false := by
    simp [StatusCode.isProvisional, hundreds]
  have notChallenge : ¬ (response.status.code = 401 ∨ response.status.code = 407) := by
    unfold StatusCode.hundreds at hundreds
    omega
  have notShed : ¬ (response.status.code = 503 ∧ (retryAfterOf response).isSome) := by
    unfold StatusCode.hundreds at hundreds
    omega
  simp [machine, onInput, unfinished, onResponse, notProvisional, correlates, silent, waiting,
    onStepResponse, notChallenge, notShed, success, onStepSuccess, concludeStep]

/-- A run progresses at every point exactly when no 2xx is delivered while it waits for
the resolution: then it waits for nothing, and no timer will end it. -/
theorem progresses_iff (config : ProbeConfig) (marker : Marker) (first : Duration)
    (rest : List (Duration × Input)) (once : ∀ input ∈ rest, input.2 ≠ .start) :
    (∀ past, past <+: rest → (new config marker).Progresses K ((first, .start) :: past)) ↔
      (machine K).Along (fun engine input => ¬ AnswersResolution engine input)
        (new config marker) ((first, .start) :: rest) := by
  constructor
  · intro progresses
    induction rest using List.reverseRecOn with
    | nil => exact ⟨fun answers => absurd answers.1 (by simp [new]), trivial⟩
    | append_singleton past input ih =>
        have oncePast : ∀ input ∈ past, input.2 ≠ .start :=
          fun input member => once input (List.mem_append_left _ member)
        have expected := ih oncePast fun earlier isPrefix =>
          progresses earlier (isPrefix.trans (List.prefix_append _ _))
        have stands := stands_after oncePast expected
        have last := (progresses _ (List.prefix_refl _)).2
        rw [← List.cons_append, Reactive.Machine.along_append]
        refine ⟨expected, fun answers => ?_, trivial⟩
        unfold CanFinish at last
        rw [← List.cons_append, Reactive.Machine.after_concat, Reactive.Machine.emitted_concat]
          at last
        generalize (machine K).after (new config marker) ((first, .start) :: past) = engine
          at stands answers last
        generalize (machine K).emitted (new config marker) ((first, .start) :: past) = earlier
          at stands last
        cases stands with
        | done before waiting finished first =>
            exact absurd (waiting.symm.trans answers.1) (by simp)
        | waits step unfinished awaited set silent none =>
            obtain ⟨stuck, quiet⟩ :=
              onInput_of_answersResolution (K := K) unfinished (silent answers.1) answers
            rw [stuck, quiet, List.append_nil] at last
            rcases last with ⟨run, member⟩ | ⟨⟨step, awaits, -⟩, -⟩
            · simpa [Effect.isFinish] using none _ member
            · simp at awaits
  · rintro expected past ⟨future, rfl⟩
    rw [← List.cons_append, Reactive.Machine.along_append] at expected
    apply Stands.progresses
    apply stands_after _ expected.1
    exact fun input member => once input (List.mem_append_left _ member)

end Runs

/-! ## Runs on fixed inputs -/

/-- A usable configuration. -/
def sampleConfig : ProbeConfig where
  probeAor := text "sip:probe@test.example"
  echoAor := text "sip:echo@test.example"
  contact := text "sip:probe@192.0.2.1"
  target := ⟨text "edge.example", text "UDP", text "a"⟩
  timeouts := #v[fromSecs 2, fromSecs 5, fromSecs 10, fromSecs 5]
  sentBy := text "probe.example"
  hasCredentials := true

instance : Inhabited Reference.kernel.Uri :=
  ⟨(Reference.uri "sip:invalid.invalid")⟩

def strayOk : Response where
  status := .ok
  reason := text "OK"
  headers := []
  body := []

/-- A run that is cancelled while it resolves progresses. -/
theorem progresses_cancelled :
    (new sampleConfig ⟨text "m"⟩).Progresses Reference.kernel [(0, .start)] ∧
      (new sampleConfig ⟨text "m"⟩).Progresses Reference.kernel [(0, .start), (1, .cancelled)] := by
  have progresses : ∀ past, past <+: [((1 : Duration), Input.cancelled)] →
      (new sampleConfig ⟨text "m"⟩).Progresses Reference.kernel ((0, .start) :: past) := by
    apply (progresses_iff sampleConfig ⟨text "m"⟩ 0 _ (by simp)).mpr
    simp [AnswersResolution]
  constructor
  · exact progresses [] (List.nil_prefix)
  · exact progresses _ (List.prefix_refl _)

/-- A `200` that answers nothing stops a run for good. -/
theorem not_progresses_stray :
    (∀ input ∈ [((1 : Duration), Input.response strayOk)], input.2 ≠ .start) ∧
      ¬ (new sampleConfig ⟨text "m"⟩).Progresses Reference.kernel
        [(0, .start), (1, .response strayOk)] := by
  have emitted : (machine Reference.kernel).emitted (new sampleConfig ⟨text "m"⟩)
      [(0, .start), (1, .response strayOk)] =
        [.resolve sampleConfig.target, .setTimer .resolve (fromSecs 2)] := rfl
  have stuck : ((machine Reference.kernel).after (new sampleConfig ⟨text "m"⟩)
      [(0, .start), (1, .response strayOk)]).waiting = .nothing := rfl
  constructor
  · simp
  · rintro ⟨-, ⟨run, member⟩ | ⟨⟨step, awaits, -⟩, -⟩⟩
    · rw [emitted] at member
      simp at member
    · rw [stuck] at awaits
      contradiction

end ProbeEngine

end SipxClstr.Probe
