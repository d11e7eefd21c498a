import SipxClstr.Reactive.Run
import Mathlib.Algebra.BigOperators.Group.List.Basic
import Mathlib.Algebra.GroupWithZero.Nat

/-!
# Pools of tasks

Tasks that take their steps in any order, each until it ends.  Where every task ends by
itself the pool runs dry, whatever the order.
-/

namespace Reactive

universe u

variable {τ : Type u}

/-- The task at a place takes a step, and leaves the pool when it has none left. -/
def runAt (step : τ → Option τ) : List τ → Nat → List τ
  | [], _ => []
  | task :: rest, 0 => (step task).toList ++ rest
  | task :: rest, place + 1 => task :: runAt step rest place

/-- A task ends with the last of so many steps. -/
inductive EndsIn (step : τ → Option τ) : Nat → τ → Prop where
  | last {task : τ} (ends : step task = none) : EndsIn step 1 task
  | earlier {task next : τ} {steps : Nat} (goesOn : step task = some next)
      (later : EndsIn step steps next) : EndsIn step (steps + 1) task

section Steps

variable {step : τ → Option τ} {task next : τ} {tasks : List τ}

theorem EndsIn.pos {steps : Nat} (ends : EndsIn step steps task) : 0 < steps := by
  cases ends with
  | last _ => exact Nat.one_pos
  | earlier _ _ => exact Nat.succ_pos _

/-- A task that ends, ends after its next step as well. -/
theorem EndsIn.of_step {steps : Nat} (ends : EndsIn step steps task)
    (goesOn : step task = some next) : ∃ fewer, steps = fewer + 1 ∧ EndsIn step fewer next := by
  cases ends with
  | last ends => rw [goesOn] at ends; contradiction
  | earlier same later =>
      obtain rfl := Option.some.inj (goesOn.symm.trans same)
      exact ⟨_, rfl, later⟩

/-- Every task of a pool ends by itself. -/
def AllEnd (step : τ → Option τ) (tasks : List τ) : Prop :=
  ∀ task ∈ tasks, ∃ steps, EndsIn step steps task

theorem AllEnd.runAt (ends : AllEnd step tasks) (place : Nat) :
    AllEnd step (runAt step tasks place) := by
  induction tasks generalizing place with
  | nil => exact ends
  | cons task rest ih =>
      have restEnds : AllEnd step rest := fun other member => ends other (List.mem_cons_of_mem _ member)
      obtain ⟨steps, taskEnds⟩ := ends task List.mem_cons_self
      cases place with
      | zero =>
          intro other member
          rcases List.mem_append.mp member with next | behind
          · obtain ⟨fewer, -, later⟩ := taskEnds.of_step (Option.mem_toList.mp next)
            exact ⟨fewer, later⟩
          · exact restEnds other behind
      | succ place =>
          intro other member
          rcases List.mem_cons.mp member with rfl | behind
          · exact ⟨steps, taskEnds⟩
          · exact ih restEnds place other behind

/-! ## Running dry -/

/-- Each task ends within its budget. -/
abbrev Budgeted (step : τ → Option τ) (budgets : List Nat) (tasks : List τ) : Prop :=
  List.Forall₂ (EndsIn step) budgets tasks

theorem AllEnd.exists_budgeted (ends : AllEnd step tasks) :
    ∃ budgets, Budgeted step budgets tasks := by
  induction tasks with
  | nil => exact ⟨[], .nil⟩
  | cons task rest ih =>
      obtain ⟨steps, taskEnds⟩ := ends task List.mem_cons_self
      obtain ⟨budgets, restEnds⟩ := ih fun other member => ends other (List.mem_cons_of_mem _ member)
      exact ⟨steps :: budgets, .cons taskEnds restEnds⟩

/-- A step of a task is taken from its budget. -/
theorem Budgeted.runAt {budgets : List Nat} (budgeted : Budgeted step budgets tasks) {place : Nat}
    (within : place < tasks.length) :
    ∃ fewer, Budgeted step fewer (runAt step tasks place) ∧ fewer.sum + 1 ≤ budgets.sum := by
  induction budgeted generalizing place with
  | nil => exact absurd within (Nat.not_lt_zero place)
  | @cons budget task budgets rest taskEnds restEnds ih =>
      cases place with
      | zero =>
          cases goesOn : step task with
          | none =>
              refine ⟨budgets, ?_, ?_⟩
              · rw [Reactive.runAt, goesOn]
                exact restEnds
              · rw [List.sum_cons, Nat.add_comm]
                exact Nat.add_le_add_right taskEnds.pos _
          | some next =>
              obtain ⟨fewer, rfl, later⟩ := taskEnds.of_step goesOn
              refine ⟨fewer :: budgets, ?_, ?_⟩
              · rw [Reactive.runAt, goesOn]
                exact .cons later restEnds
              · rw [List.sum_cons, List.sum_cons]
                omega
      | succ place =>
          obtain ⟨fewer, fewerEnds, saved⟩ := ih (Nat.lt_of_succ_lt_succ within)
          refine ⟨budget :: fewer, .cons taskEnds fewerEnds, ?_⟩
          rw [List.sum_cons, List.sum_cons]
          omega

/-- The pool after its tasks took steps in this order. -/
def runAll (step : τ → Option τ) : List τ → List Nat → List τ
  | tasks, [] => tasks
  | tasks, place :: order => runAll step (runAt step tasks place) order

/-- Each place of the order is that of a task still running. -/
def Serves (step : τ → Option τ) : List τ → List Nat → Prop
  | _, [] => True
  | tasks, place :: order => place < tasks.length ∧ Serves step (runAt step tasks place) order

theorem Budgeted.length_le {budgets : List Nat} (budgeted : Budgeted step budgets tasks)
    {order : List Nat} (serves : Serves step tasks order) : order.length ≤ budgets.sum := by
  induction order generalizing tasks budgets with
  | nil => exact Nat.zero_le _
  | cons place order ih =>
      obtain ⟨fewer, fewerEnds, saved⟩ := budgeted.runAt serves.1
      exact Nat.le_trans (Nat.succ_le_succ (ih fewerEnds serves.2)) saved

/-- **A pool of tasks that all end runs dry**, in whatever order they take their steps. -/
theorem AllEnd.exists_bound (ends : AllEnd step tasks) :
    ∃ bound, ∀ order, Serves step tasks order → order.length ≤ bound := by
  obtain ⟨budgets, budgeted⟩ := ends.exists_budgeted
  exact ⟨budgets.sum, fun order serves => budgeted.length_le serves⟩

end Steps

end Reactive
