import Mathlib.Algebra.GroupWithZero.Nat
import Mathlib.Algebra.Order.BigOperators.Group.List
import Mathlib.Algebra.Order.Group.Nat
import Mathlib.Logic.Relation

/-!
# Work that is handed on

A task is taken up by a worker, which hands on tasks of its own, and a worker takes up each of
those in turn.  Where every worker divides what it was given among the tasks it hands on, what it
was given bounds everything outstanding beneath it.
-/

namespace Reactive

universe u v

/-- What is being done about a task: nobody has taken it up, or a worker has, with the tasks it
has outstanding in turn. -/
inductive Work (ω : Type u) (τ : Type v) where
  | waiting
  | worker (state : ω) (tasks : List (τ × Work ω τ))

namespace Work

variable {ω : Type u} {τ : Type v}

mutual

/-- How many outstanding tasks nobody has taken up. -/
def unclaimed : Work ω τ → Nat
  | .waiting => 1
  | .worker _ tasks => unclaimedAll tasks

/-- The same, of several tasks together. -/
def unclaimedAll : List (τ × Work ω τ) → Nat
  | [] => 0
  | (_, work) :: rest => work.unclaimed + unclaimedAll rest

end

mutual

/-- How many times a task has been handed on, along the longest chain. -/
def links : Work ω τ → Nat
  | .waiting => 0
  | .worker _ tasks => linksAll tasks

/-- The same, along the longest chain of several tasks. -/
def linksAll : List (τ × Work ω τ) → Nat
  | [] => 0
  | (_, work) :: rest => max (work.links + 1) (linksAll rest)

end

/-- Who has taken the task up. -/
def taker? : Work ω τ → Option ω
  | .waiting => none
  | .worker state _ => some state

/-- A worker somewhere at work, and the tasks it has outstanding. -/
inductive Has : Work ω τ → ω → List τ → Prop where
  | here (state : ω) (tasks : List (τ × Work ω τ)) :
      Has (.worker state tasks) state (tasks.map Prod.fst)
  | deeper {state worker : ω} {tasks : List (τ × Work ω τ)} {given : List τ}
      {entry : τ × Work ω τ} (member : entry ∈ tasks) (has : Has entry.2 worker given) :
      Has (.worker state tasks) worker given

/-- Every worker holds to a rule about its tasks, and was taken on for a task it fits. -/
inductive Sound (holds : ω → List τ → Prop) (fits : τ → ω → Prop) : Work ω τ → Prop where
  | waiting : Sound holds fits .waiting
  | worker {state : ω} {tasks : List (τ × Work ω τ)} (rule : holds state (tasks.map Prod.fst))
      (fit : ∀ entry ∈ tasks, ∀ inner, entry.2.taker? = some inner → fits entry.1 inner)
      (below : ∀ entry ∈ tasks, Sound holds fits entry.2) : Sound holds fits (.worker state tasks)

/-- One worker does something about its tasks, however deep it works. -/
inductive Moves (acts : ω → List (τ × Work ω τ) → ω → List (τ × Work ω τ) → Prop) :
    Work ω τ → Work ω τ → Prop where
  | here {state next : ω} {tasks left : List (τ × Work ω τ)} (act : acts state tasks next left) :
      Moves acts (.worker state tasks) (.worker next left)
  | deeper {state : ω} {tasks : List (τ × Work ω τ)} {task : τ} {work moved : Work ω τ} (place : Nat)
      (entry : tasks[place]? = some (task, work)) (moves : Moves acts work moved) :
      Moves acts (.worker state tasks) (.worker state (tasks.set place (task, moved)))

variable {holds : ω → List τ → Prop} {fits : τ → ω → Prop}

/-! ## Bounds -/

theorem unclaimedAll_le {tasks : List (τ × Work ω τ)} {weight : τ → Nat}
    (each : ∀ entry ∈ tasks, entry.2.unclaimed ≤ weight entry.1) :
    unclaimedAll tasks ≤ ((tasks.map Prod.fst).map weight).sum := by
  induction tasks with
  | nil => exact Nat.le_refl _
  | cons entry rest ih =>
      obtain ⟨task, work⟩ := entry
      have first := each (task, work) List.mem_cons_self
      have later := ih fun other member => each other (List.mem_cons_of_mem _ member)
      simp only [unclaimedAll, List.map_cons, List.sum_cons]
      exact Nat.add_le_add first later

theorem linksAll_le {tasks : List (τ × Work ω τ)} {bound : Nat}
    (each : ∀ entry ∈ tasks, entry.2.links < bound) : linksAll tasks ≤ bound := by
  induction tasks with
  | nil => exact Nat.zero_le _
  | cons entry rest ih =>
      obtain ⟨task, work⟩ := entry
      have first := each (task, work) List.mem_cons_self
      have later := ih fun other member => each other (List.mem_cons_of_mem _ member)
      simp only [linksAll]
      exact max_le first later

/-- Where no worker hands on more than its limit, and none is taken on with a limit above the
weight of its task, the tasks nobody has taken up stay within the bound given at the top. -/
theorem Sound.unclaimed_le (limit : ω → Nat) (weight : τ → Nat)
    (shares : ∀ state tasks, holds state tasks →
      (tasks.map weight).sum ≤ limit state ∧ ∀ task ∈ tasks, 1 ≤ weight task)
    (carries : ∀ task state, fits task state → limit state ≤ weight task)
    {work : Work ω τ} (sound : Sound holds fits work) {bound : Nat}
    (positive : work.taker? = none → 1 ≤ bound)
    (given : ∀ state, work.taker? = some state → limit state ≤ bound) :
    work.unclaimed ≤ bound := by
  induction sound generalizing bound with
  | waiting => exact positive rfl
  | @worker state tasks rule fit _ ih =>
      obtain ⟨shared, atLeastOne⟩ := shares state _ rule
      have each : ∀ entry ∈ tasks, entry.2.unclaimed ≤ weight entry.1 := by
        intro entry member
        apply ih entry member
        · exact fun _ => atLeastOne entry.1 (List.mem_map_of_mem member)
        · exact fun inner isTaker => carries _ _ (fit entry member inner isTaker)
      calc
        (Work.worker state tasks).unclaimed = unclaimedAll tasks := rfl
        _ ≤ ((tasks.map Prod.fst).map weight).sum := unclaimedAll_le each
        _ ≤ limit state := shared
        _ ≤ bound := given state rfl

/-- Where every task has less reach than the worker that hands it on, and none is taken up by a
worker with more, no chain is longer than the reach at the top. -/
theorem Sound.links_le (reach : ω → Nat) (carried : τ → Nat)
    (falls : ∀ state tasks, holds state tasks → ∀ task ∈ tasks, carried task < reach state)
    (carries : ∀ task state, fits task state → reach state ≤ carried task)
    {work : Work ω τ} (sound : Sound holds fits work) {bound : Nat}
    (given : ∀ state, work.taker? = some state → reach state ≤ bound) :
    work.links ≤ bound := by
  induction sound generalizing bound with
  | waiting => exact Nat.zero_le _
  | @worker state tasks rule fit _ ih =>
      have each : ∀ entry ∈ tasks, entry.2.links < reach state := by
        intro entry member
        apply Nat.lt_of_le_of_lt _ (falls state _ rule entry.1 (List.mem_map_of_mem member))
        apply ih entry member
        exact fun inner isTaker => carries _ _ (fit entry member inner isTaker)
      calc
        (Work.worker state tasks).links = linksAll tasks := rfl
        _ ≤ reach state := linksAll_le each
        _ ≤ bound := given state rfl

/-- The rule holds of every worker, however deep it works. -/
theorem Sound.of_has {work : Work ω τ} (sound : Sound holds fits work) {state : ω} {tasks : List τ}
    (has : work.Has state tasks) : holds state tasks := by
  induction has with
  | here state tasks =>
      cases sound with
      | worker rule _ _ => exact rule
  | deeper member _ ih =>
      cases sound with
      | worker _ _ below => exact ih (below _ member)

/-! ## Moves -/

theorem map_fst_set {tasks : List (τ × Work ω τ)} {place : Nat} {task : τ} {work moved : Work ω τ}
    (entry : tasks[place]? = some (task, work)) :
    (tasks.set place (task, moved)).map Prod.fst = tasks.map Prod.fst := by
  obtain ⟨bound, held⟩ := List.getElem?_eq_some_iff.mp entry
  have inside : place < (tasks.map Prod.fst).length := by simpa using bound
  have same : (tasks.map Prod.fst)[place] = task := by
    rw [List.getElem_map, held]
  rw [List.map_set, ← same]
  exact List.set_getElem_self _

/-- A task's work is replaced by work that is sound and fits it no less. -/
theorem Sound.set {state : ω} {tasks : List (τ × Work ω τ)}
    (sound : Sound holds fits (.worker state tasks)) {place : Nat} {task : τ}
    {work moved : Work ω τ} (entry : tasks[place]? = some (task, work))
    (movedSound : Sound holds fits moved)
    (movedFits : ∀ inner, moved.taker? = some inner → fits task inner) :
    Sound holds fits (.worker state (tasks.set place (task, moved))) := by
  cases sound with
  | worker rule fit below =>
      constructor
      · rw [map_fst_set entry]
        exact rule
      · intro other member
        rcases List.mem_or_eq_of_mem_set member with old | rfl
        · exact fit other old
        · exact movedFits
      · intro other member
        rcases List.mem_or_eq_of_mem_set member with old | rfl
        · exact below other old
        · exact movedSound

/-- What a worker's acts keep of it, moves keep of whoever has taken the task up. -/
theorem Moves.taker {acts : ω → List (τ × Work ω τ) → ω → List (τ × Work ω τ) → Prop}
    (property : ω → Prop)
    (stays : ∀ state tasks next left, acts state tasks next left → property state → property next)
    {work moved : Work ω τ} (moves : Moves acts work moved)
    (holds : ∀ state, work.taker? = some state → property state) :
    ∀ state, moved.taker? = some state → property state := by
  cases moves with
  | @here state next tasks left act =>
      intro taker isTaker
      rw [← Option.some.inj isTaker]
      exact stays state tasks next left act (holds state rfl)
  | deeper _ _ _ => exact holds

/-- What one worker's act keeps of itself and of what it was taken on for, every move keeps. -/
theorem Sound.moves {acts : ω → List (τ × Work ω τ) → ω → List (τ × Work ω τ) → Prop}
    (keeps : ∀ state tasks next left, acts state tasks next left →
      Sound holds fits (.worker state tasks) → Sound holds fits (.worker next left))
    (stays : ∀ task state tasks next left, acts state tasks next left →
      fits task state → fits task next)
    {work moved : Work ω τ} (sound : Sound holds fits work) (moves : Moves acts work moved) :
    Sound holds fits moved := by
  induction moves with
  | @here state next tasks left act => exact keeps state tasks next left act sound
  | @deeper state tasks task work moved place entry moves ih =>
      have member := List.mem_of_getElem? entry
      cases sound with
      | worker rule fit below =>
          apply Sound.set (.worker rule fit below) entry (ih (below _ member))
          exact moves.taker (fits task) (stays task) (fit _ member)

/-- What every move keeps holds of every run. -/
theorem Sound.run {acts : ω → List (τ × Work ω τ) → ω → List (τ × Work ω τ) → Prop}
    (keeps : ∀ state tasks next left, acts state tasks next left →
      Sound holds fits (.worker state tasks) → Sound holds fits (.worker next left))
    (stays : ∀ task state tasks next left, acts state tasks next left →
      fits task state → fits task next)
    {work reached : Work ω τ} (sound : Sound holds fits work)
    (steps : Relation.ReflTransGen (Moves acts) work reached) : Sound holds fits reached := by
  induction steps with
  | refl => exact sound
  | tail _ moves ih => exact ih.moves keeps stays moves

theorem taker_run {acts : ω → List (τ × Work ω τ) → ω → List (τ × Work ω τ) → Prop}
    (property : ω → Prop)
    (stays : ∀ state tasks next left, acts state tasks next left → property state → property next)
    {work reached : Work ω τ} (steps : Relation.ReflTransGen (Moves acts) work reached)
    (holds : ∀ state, work.taker? = some state → property state) :
    ∀ state, reached.taker? = some state → property state := by
  induction steps with
  | refl => exact holds
  | tail _ moves ih => exact moves.taker property stays ih

/-- A task that has been taken up stays taken up. -/
theorem taken_run {acts : ω → List (τ × Work ω τ) → ω → List (τ × Work ω τ) → Prop}
    {work reached : Work ω τ} (steps : Relation.ReflTransGen (Moves acts) work reached)
    (taken : work.taker? ≠ none) : reached.taker? ≠ none := by
  induction steps with
  | refl => exact taken
  | tail _ moves _ => cases moves <;> exact Option.some_ne_none _

end Work

end Reactive
