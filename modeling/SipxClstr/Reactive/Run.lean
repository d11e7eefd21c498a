import Mathlib.Data.List.Induction
import Mathlib.Logic.Function.Iterate
import Mathlib.Order.RelClasses

/-!
# Runs of sans-IO machines

A sans-IO machine takes one input at a time and returns its next state together
with the effects it wants performed, in order.  It has no clock, socket or
store of its own, so a run is determined by the initial state and the list of
inputs.

This file gives the runs of such a machine, conditions that hold at every step
of a run, and the induction rule by which a property of one step becomes a
property of every run.
-/

namespace Reactive

universe u v w

/-- One input in; the next state and the ordered effects out. -/
abbrev Machine (σ : Type u) (ι : Type v) (ε : Type w) :=
  σ → ι → σ × List ε

namespace Machine

variable {σ : Type u} {ι : Type v} {ε : Type w}

/-- The state reached after feeding `inputs` in order. -/
def after (machine : Machine σ ι ε) : σ → List ι → σ
  | state, [] => state
  | state, input :: rest => after machine (machine state input).1 rest

/-- Every effect emitted while feeding `inputs` in order. -/
def emitted (machine : Machine σ ι ε) : σ → List ι → List ε
  | _, [] => []
  | state, input :: rest =>
      (machine state input).2 ++ emitted machine (machine state input).1 rest

/-- `condition` holds of the state and the input at every step of the run. -/
def Along (machine : Machine σ ι ε) (condition : σ → ι → Prop) : σ → List ι → Prop
  | _, [] => True
  | state, input :: rest =>
      condition state input ∧ Along machine condition (machine state input).1 rest

instance decidableAlong (machine : Machine σ ι ε) (condition : σ → ι → Prop)
    [∀ state input, Decidable (condition state input)] :
    (state : σ) → (inputs : List ι) → Decidable (Along machine condition state inputs)
  | _, [] => .isTrue trivial
  | state, input :: rest =>
      have := decidableAlong machine condition (machine state input).1 rest
      inferInstanceAs
        (Decidable (condition state input ∧ Along machine condition (machine state input).1 rest))

variable (machine : Machine σ ι ε)

@[simp]
theorem after_nil (state : σ) : after machine state [] = state :=
  rfl

@[simp]
theorem after_cons (state : σ) (input : ι) (rest : List ι) :
    after machine state (input :: rest) = after machine (machine state input).1 rest :=
  rfl

@[simp]
theorem emitted_nil (state : σ) : emitted machine state [] = [] :=
  rfl

@[simp]
theorem emitted_cons (state : σ) (input : ι) (rest : List ι) :
    emitted machine state (input :: rest) =
      (machine state input).2 ++ emitted machine (machine state input).1 rest :=
  rfl

@[simp]
theorem along_nil (condition : σ → ι → Prop) (state : σ) :
    Along machine condition state [] :=
  trivial

@[simp]
theorem along_cons (condition : σ → ι → Prop) (state : σ) (input : ι) (rest : List ι) :
    Along machine condition state (input :: rest) ↔
      condition state input ∧ Along machine condition (machine state input).1 rest :=
  Iff.rfl

theorem after_append (state : σ) (first second : List ι) :
    after machine state (first ++ second) =
      after machine (after machine state first) second := by
  induction first generalizing state with
  | nil => rfl
  | cons input rest ih => exact ih (machine state input).1

theorem emitted_append (state : σ) (first second : List ι) :
    emitted machine state (first ++ second) =
      emitted machine state first ++ emitted machine (after machine state first) second := by
  induction first generalizing state with
  | nil => rfl
  | cons input rest ih => simp [ih]

theorem along_append (condition : σ → ι → Prop) (state : σ) (first second : List ι) :
    Along machine condition state (first ++ second) ↔
      Along machine condition state first ∧
        Along machine condition (after machine state first) second := by
  induction first generalizing state with
  | nil => simp
  | cons input rest ih => simp [ih, and_assoc]

/-- What holds along a run holds up to each of its steps, and at the step. -/
theorem Along.at_step {machine : Machine σ ι ε} {condition : σ → ι → Prop} {start : σ}
    {inputs past future : List ι} {input : ι} (along : Along machine condition start inputs)
    (split : inputs = past ++ input :: future) :
    Along machine condition start past ∧ condition (after machine start past) input := by
  rw [split, along_append] at along
  exact ⟨along.1, along.2.1⟩

/-- A condition that holds of every state and input holds along every run. -/
theorem along_of_forall {condition : σ → ι → Prop}
    (holds : ∀ state input, condition state input) (state : σ) (inputs : List ι) :
    Along machine condition state inputs := by
  induction inputs generalizing state with
  | nil => trivial
  | cons input rest ih => exact ⟨holds state input, ih _⟩

/-- A condition on inputs alone holds along a run whose inputs all meet it. -/
theorem along_of_inputs {condition : ι → Prop} (state : σ) {inputs : List ι}
    (holds : ∀ input ∈ inputs, condition input) :
    Along machine (fun _ input => condition input) state inputs := by
  induction inputs generalizing state with
  | nil => trivial
  | cons input rest ih =>
      exact ⟨holds input List.mem_cons_self,
        ih _ fun next member => holds next (List.mem_cons_of_mem _ member)⟩

theorem Along.mono {machine : Machine σ ι ε} {first second : σ → ι → Prop} {state : σ}
    {inputs : List ι} (along : Along machine first state inputs)
    (implies : ∀ state input, first state input → second state input) :
    Along machine second state inputs := by
  induction inputs generalizing state with
  | nil => trivial
  | cons input rest ih => exact ⟨implies state input along.1, ih along.2⟩

theorem Along.and {machine : Machine σ ι ε} {first second : σ → ι → Prop}
    {state : σ} {inputs : List ι} (left : Along machine first state inputs)
    (right : Along machine second state inputs) :
    Along machine (fun s i => first s i ∧ second s i) state inputs := by
  induction inputs generalizing state with
  | nil => trivial
  | cons input rest ih => exact ⟨⟨left.1, right.1⟩, ih left.2 right.2⟩

theorem after_concat (state : σ) (past : List ι) (input : ι) :
    after machine state (past ++ [input]) = (machine (after machine state past) input).1 := by
  rw [after_append]
  rfl

theorem emitted_concat (state : σ) (past : List ι) (input : ι) :
    emitted machine state (past ++ [input]) =
      emitted machine state past ++ (machine (after machine state past) input).2 := by
  rw [emitted_append, emitted_cons, emitted_nil, List.append_nil]

/-- Induction over a run, one input at a time: each step preserves a property of
the inputs consumed so far wherever `condition` holds. -/
theorem history_induction {condition : σ → ι → Prop} {start : σ} (property : List ι → Prop)
    (base : property [])
    (preserved : ∀ past input, property past → condition (after machine start past) input →
      property (past ++ [input]))
    {inputs : List ι} (along : Along machine condition start inputs) : property inputs := by
  induction inputs using List.reverseRecOn with
  | nil => exact base
  | append_singleton past input ih =>
      rw [along_append] at along
      exact preserved past input (ih along.1) along.2.1

/-- Induction over a run.  The property speaks about the inputs consumed so
far, the effects emitted so far and the state reached; one step from any such
point preserves it wherever `condition` holds. -/
theorem run_induction {condition : σ → ι → Prop} (property : List ι → List ε → σ → Prop)
    {start : σ} (base : property [] [] start)
    (preserved : ∀ past effects state input, property past effects state →
      condition state input →
      property (past ++ [input]) (effects ++ (machine state input).2) (machine state input).1)
    {inputs : List ι} (along : Along machine condition start inputs) :
    property inputs (emitted machine start inputs) (after machine start inputs) := by
  refine machine.history_induction
    (fun past => property past (emitted machine start past) (after machine start past)) base
    (fun past input earlier holds => ?_) along
  rw [emitted_concat, after_concat]
  exact preserved past _ _ input earlier holds

/-- The induction rule for a property every step preserves. -/
theorem run_always (property : List ι → List ε → σ → Prop) {start : σ}
    (base : property [] [] start)
    (preserved : ∀ past effects state input, property past effects state →
      property (past ++ [input]) (effects ++ (machine state input).2) (machine state input).1)
    (inputs : List ι) :
    property inputs (emitted machine start inputs) (after machine start inputs) :=
  machine.run_induction property base
    (fun past effects state input holds (_ : True) => preserved past effects state input holds)
    (along_of_forall machine (fun _ _ => trivial) start inputs)

/-- The invariant rule for an invariant every step preserves. -/
theorem invariant_always (invariant : σ → Prop)
    (preserved : ∀ state input, invariant state → invariant (machine state input).1)
    {start : σ} (initial : invariant start) (inputs : List ι) :
    invariant (after machine start inputs) :=
  machine.run_always (fun _ _ state => invariant state) initial
    (fun _ _ state input holds => preserved state input holds) inputs

/-! ## Events -/

omit machine in
/-- A position of a list and one more entry is the last position, or a position
of the list. -/
theorem concat_eq_append_cons {past earlier future : List ι} {input cause : ι}
    (split : past ++ [input] = earlier ++ cause :: future) :
    (past = earlier ∧ input = cause ∧ future = []) ∨
      ∃ between, future = between ++ [input] ∧ past = earlier ++ cause :: between := by
  rcases List.eq_nil_or_concat future with rfl | ⟨between, last, rfl⟩
  · obtain ⟨samePast, same⟩ := List.append_inj' split rfl
    exact .inl ⟨samePast, List.singleton_inj.mp same, rfl⟩
  · rw [List.concat_eq_append, ← List.cons_append, ← List.append_assoc] at split
    obtain ⟨samePast, same⟩ := List.append_inj' split rfl
    refine .inr ⟨between, ?_, samePast⟩
    rw [List.concat_eq_append, List.singleton_inj.mp same]

/-- Some input of the run was an event of this kind: `event` speaks about the
inputs before it and the input itself. -/
def Happened (event : List ι → ι → Prop) (inputs : List ι) : Prop :=
  ∃ past input future, inputs = past ++ input :: future ∧ event past input

/-- An event happened by the end of a step when it had happened before or the
step's input is one. -/
theorem happened_concat_iff {event : List ι → ι → Prop} {past : List ι} {input : ι} :
    Happened event (past ++ [input]) ↔ Happened event past ∨ event past input := by
  constructor
  · rintro ⟨earlier, cause, future, split, happened⟩
    rcases concat_eq_append_cons split with ⟨rfl, rfl, rfl⟩ | ⟨between, rfl, rfl⟩
    · exact .inr happened
    · exact .inl ⟨earlier, cause, between, rfl, happened⟩
  · rintro (⟨earlier, cause, future, rfl, happened⟩ | happened)
    · exact ⟨earlier, cause, future ++ [input], by simp, happened⟩
    · exact ⟨past, input, [], rfl, happened⟩

theorem Happened.exists_mem {event : List ι → ι → Prop} {inputs : List ι}
    (happened : Happened event inputs) : ∃ input ∈ inputs, ∃ past, event past input := by
  obtain ⟨past, input, future, rfl, event⟩ := happened
  exact ⟨input, by simp, past, event⟩

/-! ## Questions and answers -/

/-- A question is outstanding after `inputs`: a step asked it, and no input
since has answered it. -/
def Outstanding (asks : ε → Prop) (answers : ι → Prop) (start : σ) (inputs : List ι) : Prop :=
  ∃ past input since, inputs = past ++ input :: since ∧
    (∃ effect ∈ (machine (after machine start past) input).2, asks effect) ∧
      ∀ later ∈ since, ¬ answers later

/-- A question is outstanding after a step when the step asked it, or when it was
outstanding before and the step did not answer it. -/
theorem outstanding_concat_iff {asks : ε → Prop} {answers : ι → Prop} {start : σ} {past : List ι}
    {input : ι} :
    Outstanding machine asks answers start (past ++ [input]) ↔
      (∃ effect ∈ (machine (after machine start past) input).2, asks effect) ∨
        (Outstanding machine asks answers start past ∧ ¬ answers input) := by
  constructor
  · rintro ⟨earlier, asking, since, split, asked, waiting⟩
    rcases concat_eq_append_cons split with ⟨rfl, rfl, rfl⟩ | ⟨between, rfl, rfl⟩
    · exact .inl asked
    · refine .inr ⟨⟨earlier, asking, between, rfl, asked, fun later member => ?_⟩, ?_⟩
      · exact waiting later (List.mem_append_left _ member)
      · exact waiting input (by simp)
  · rintro (asked | ⟨⟨earlier, asking, since, rfl, asked, waiting⟩, unanswered⟩)
    · exact ⟨past, input, [], rfl, asked, by simp⟩
    · refine ⟨earlier, asking, since ++ [input], by simp, asked, fun later member => ?_⟩
      rcases List.mem_append.mp member with before | now
      · exact waiting later before
      · rw [List.mem_singleton.mp now]
        exact unanswered

theorem not_outstanding_nil (asks : ε → Prop) (answers : ι → Prop) (start : σ) :
    ¬ Outstanding machine asks answers start [] := by
  rintro ⟨past, input, since, split, -⟩
  simp at split

/-! ## Observations -/

section Observations

variable {α : Type*}

/-- What `observe` sees at each step of the run, in order. -/
def observed (observe : σ → ι → α) : σ → List ι → List α
  | _, [] => []
  | state, input :: rest => observe state input :: observed observe (machine state input).1 rest

theorem observed_append (observe : σ → ι → α) (state : σ) (first second : List ι) :
    observed machine observe state (first ++ second) =
      observed machine observe state first ++
        observed machine observe (after machine state first) second := by
  induction first generalizing state with
  | nil => rfl
  | cons input rest ih => simp [observed, ih]

theorem observed_concat (observe : σ → ι → α) (state : σ) (past : List ι) (input : ι) :
    observed machine observe state (past ++ [input]) =
      observed machine observe state past ++ [observe (after machine state past) input] := by
  rw [observed_append]
  rfl

/-- What the run has opened and not closed since, in the order it was opened: each
step closes what its input closes, and then opens what its effects open. -/
def ledger (closes : σ → ι → α → Bool) (opens : ε → Option α) : List α → σ → List ι → List α
  | held, _, [] => held
  | held, state, input :: rest =>
      ledger closes opens
        ((held.filter fun item => !closes state input item) ++
          (machine state input).2.filterMap opens)
        (machine state input).1 rest

theorem ledger_concat (closes : σ → ι → α → Bool) (opens : ε → Option α) (held : List α)
    (state : σ) (past : List ι) (input : ι) :
    ledger machine closes opens held state (past ++ [input]) =
      ((ledger machine closes opens held state past).filter fun item =>
          !closes (after machine state past) input item) ++
        (machine (after machine state past) input).2.filterMap opens := by
  induction past generalizing held state with
  | nil => rfl
  | cons first rest ih => exact ih _ _

end Observations

end Machine

/-! ## Coming to a stop -/

/-- Steps that keep an invariant, and lower a rank while they run, come to a stop. -/
theorem exists_iterate_stopped {σ : Type u} {ρ : Type v} [LT ρ] [WellFoundedLT ρ] {step : σ → σ}
    (running invariant : σ → Prop) (rank : σ → ρ)
    (keeps : ∀ state, running state → invariant state → invariant (step state))
    (lowers : ∀ state, running state → invariant state → running (step state) →
      rank (step state) < rank state)
    {state : σ} (holds : invariant state) : ∃ steps, ¬ running (step^[steps] state) := by
  have stops : ∀ bound : ρ, ∀ state, rank state = bound → invariant state →
      ∃ steps, ¬ running (step^[steps] state) := by
    intro bound
    induction bound using WellFoundedLT.induction with
    | ind bound ih =>
        rintro state rfl holds
        by_cases runs : running state
        · by_cases goes : running (step state)
          · obtain ⟨steps, stopped⟩ := ih (rank (step state)) (lowers state runs holds goes)
              (step state) rfl (keeps state runs holds)
            exact ⟨steps + 1, stopped⟩
          · exact ⟨1, goes⟩
        · exact ⟨0, runs⟩
  exact stops (rank state) state rfl holds

end Reactive
