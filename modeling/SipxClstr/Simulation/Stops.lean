import SipxClstr.Simulation.Order

/-!
# Stopping on the way

A scenario may look at the world in mid-flight and then carry on.  Where it looked makes no
difference to where it gets, to what the trace says, or to whether the run ends well.
-/

namespace SipxClstr.Simulation

open Reactive.Machine

namespace Sim

variable {W : World} {sim : Sim W} {stop deadline : SimTime}

/-- The world at another time on its clock. -/
def asOf (sim : Sim W) (instant : SimTime) : Sim W :=
  { sim with now := instant }

/-! ## The loop -/

/-- A round goes by what is due next, and not by the clock. -/
theorem turn_asOf (sim : Sim W) (instant next : SimTime) :
    (sim.asOf instant).turn next = sim.turn next :=
  rfl

/-- A loop that ends well makes the same rounds at any time on the clock. -/
theorem rounds_asOf {left : Nat} (ended : (rounds deadline left sim).1 = .ok ())
    (instant : SimTime) :
    rounds deadline left (sim.asOf instant) = rounds deadline left sim ∨
      rounds deadline left sim = (.ok (), sim) ∧
        rounds deadline left (sim.asOf instant) = (.ok (), sim.asOf instant) := by
  have sameNext : (sim.asOf instant).nextInstant = sim.nextInstant := rfl
  cases isNext : sim.nextInstant with
  | none =>
      right
      cases left <;> simp only [rounds, sameNext, isNext, and_self]
  | some next =>
      by_cases past : deadline < next
      · right
        cases left <;> simp only [rounds, sameNext, isNext, if_pos past, and_self]
      · left
        cases left with
        | zero =>
            simp only [rounds, isNext, if_neg past] at ended
            contradiction
        | succ left => simp only [rounds, sameNext, isNext, if_neg past, turn_asOf]

/-- A round that is due by the deadline is made, and the loop goes on behind it. -/
theorem rounds_due {left : Nat} {next : SimTime} (isNext : sim.nextInstant = some next)
    (due : ¬ deadline < next) :
    rounds deadline (left + 1) sim = rounds deadline left (sim.turn next).1 := by
  rcases turn_turned isNext with ⟨-, goesOn⟩
  simp only [rounds, isNext, if_neg due]
  generalize sim.turn next = turned at goesOn
  rcases turned with ⟨reached, flag⟩
  cases goesOn
  rfl

/-- A loop that ends well leaves the rest of a larger budget. -/
theorem rounds_of_le {left more : Nat} (ended : (rounds deadline left sim).1 = .ok ())
    (enough : left ≤ more) : rounds deadline more sim = rounds deadline left sim := by
  induction left generalizing sim more with
  | zero =>
      cases isNext : sim.nextInstant with
      | none => cases more <;> simp only [rounds, isNext]
      | some next =>
          by_cases past : deadline < next
          · cases more <;> simp only [rounds, isNext, if_pos past]
          · simp only [rounds, isNext, if_neg past] at ended
            contradiction
  | succ left ih =>
      obtain ⟨more, rfl⟩ := Nat.exists_eq_add_of_lt (Nat.lt_of_succ_le enough)
      cases isNext : sim.nextInstant with
      | none => simp only [rounds, isNext]
      | some next =>
          by_cases past : deadline < next
          · simp only [rounds, isNext, if_pos past]
          · rw [rounds_due isNext past] at ended ⊢
            rw [rounds_due isNext past]
            exact ih ended (Nat.le_add_right left more)

/-- A loop that ends well ends well at an earlier deadline, and goes on from there to its own. -/
theorem rounds_stop {left : Nat} (early : stop ≤ deadline)
    (ended : (rounds deadline left sim).1 = .ok ()) :
    (rounds stop left sim).1 = .ok () ∧
      rounds deadline left (rounds stop left sim).2 = rounds deadline left sim := by
  induction left generalizing sim with
  | zero =>
      cases isNext : sim.nextInstant with
      | none => simp only [rounds, isNext, and_self]
      | some next =>
          by_cases past : deadline < next
          · simp only [rounds, isNext, if_pos past, if_pos (early.trans_lt past), and_self]
          · simp only [rounds, isNext, if_neg past] at ended
            contradiction
  | succ left ih =>
      cases isNext : sim.nextInstant with
      | none => simp only [rounds, isNext, and_self]
      | some next =>
          by_cases here : stop < next
          · have stays : rounds stop (left + 1) sim = (.ok (), sim) := by
              simp only [rounds, isNext, if_pos here]
            rw [stays]
            exact ⟨rfl, rfl⟩
          · have past : ¬ deadline < next := fun past => here (early.trans_lt past)
            rw [rounds_due isNext past] at ended ⊢
            rw [rounds_due isNext here]
            obtain ⟨stopped, resumed⟩ := ih ended
            refine ⟨stopped, ?_⟩
            rw [← resumed] at ended
            rw [rounds_of_le ended (Nat.le_succ left), resumed]

theorem started_rounds (deadline : SimTime) (left : Nat) (started : sim.started = true) :
    (rounds deadline left sim).2.started = true ∧
      (rounds deadline left sim).2.budget = sim.budget := by
  induction left generalizing sim with
  | zero =>
      unfold rounds
      split
      · exact ⟨started, rfl⟩
      · split <;> exact ⟨started, rfl⟩
  | succ left ih =>
      cases isNext : sim.nextInstant with
      | none =>
          simp only [rounds, isNext]
          exact ⟨started, trivial⟩
      | some next =>
          by_cases past : deadline < next
          · simp only [rounds, isNext, if_pos past]
            exact ⟨started, trivial⟩
          · have turned := extends_turned (turn_turned isNext).1
            rw [rounds_due isNext past, ← turned.budget]
            exact ih (turned.started.trans started)

/-! ## Runs -/

/-- Two runs to a deadline end alike.  Only a run until nothing is left leaves the clock at
whatever time the last event, or a stop, left it. -/
structure EndsAs (deadline : SimTime) (first second : Except SimError Unit × Sim W) : Prop where
  result : first.1 = second.1
  world : first.2.asOf second.2.now = second.2
  clock : deadline ≠ .last → first.2.now = second.2.now

namespace EndsAs

theorem refl (ends : Except SimError Unit × Sim W) : EndsAs deadline ends ends :=
  ⟨rfl, rfl, fun _ => rfl⟩

theorem trans {first second third : Except SimError Unit × Sim W}
    (former : EndsAs deadline first second) (latter : EndsAs deadline second third) :
    EndsAs deadline first third where
  result := former.result.trans latter.result
  world := by
    rw [← latter.world, ← former.world]
    rfl
  clock notLast := (former.clock notLast).trans (latter.clock notLast)

end EndsAs

theorem runUntil_of_ok {ends : Sim W}
    (looped : rounds deadline sim.budget sim.start = (.ok (), ends)) :
    sim.runUntil deadline = (.ok (), ends.settle deadline) := by
  unfold runUntil
  rw [looped]

/-- The loop of a run that ends well ended well. -/
theorem exists_rounds_of_runUntil (ended : (sim.runUntil deadline).1 = .ok ()) :
    ∃ ends, rounds deadline sim.budget sim.start = (.ok (), ends) := by
  unfold runUntil at ended
  generalize rounds deadline sim.budget sim.start = looped at ended ⊢
  rcases looped with ⟨_ | _, ends⟩
  · contradiction
  · exact ⟨ends, rfl⟩

theorem settle_last (sim : Sim W) : sim.settle .last = sim := by
  unfold settle
  rw [if_neg (fun jumps => jumps.2 rfl)]

theorem settle_of_lt {instant : SimTime} (behind : sim.now < instant) (notLast : instant ≠ .last) :
    sim.settle instant = sim.asOf instant := by
  unfold settle
  rw [if_pos ⟨behind, notLast⟩]
  rfl

theorem settle_of_le {instant : SimTime} (reached : instant ≤ sim.now) :
    sim.settle instant = sim := by
  unfold settle
  rw [if_neg (fun jumps => absurd jumps.1 (not_lt.mpr reached))]

theorem exists_settle_eq_asOf (sim : Sim W) (instant : SimTime) :
    ∃ shown, sim.settle instant = sim.asOf shown := by
  unfold settle
  split
  · exact ⟨instant, rfl⟩
  · exact ⟨sim.now, rfl⟩

/-- A clock that went to a stop goes on to the deadline. -/
theorem settle_settle (early : stop ≤ deadline) (notLast : deadline ≠ .last) :
    (sim.settle stop).settle deadline = sim.settle deadline := by
  have stopNotLast : stop ≠ .last := by
    rintro rfl
    exact notLast (le_antisymm deadline.fits early)
  by_cases behind : sim.now < stop
  · rw [settle_of_lt behind stopNotLast, settle_of_lt (behind.trans_le early) notLast]
    rcases lt_or_eq_of_le early with before | rfl
    · exact settle_of_lt before notLast
    · exact settle_of_le le_rfl
  · rw [settle_of_le (not_lt.mp behind)]

/-- A run that ends well ends well at a stop on its way, and from there as it would have. -/
theorem runUntil_stop (early : stop ≤ deadline) (ended : (sim.runUntil deadline).1 = .ok ()) :
    (sim.runUntil stop).1 = .ok () ∧
      EndsAs deadline ((sim.runUntil stop).2.runUntil deadline) (sim.runUntil deadline) := by
  obtain ⟨ends, looped⟩ := exists_rounds_of_runUntil ended
  have finished : (rounds deadline sim.budget sim.start).1 = .ok () := congrArg Prod.fst looped
  obtain ⟨stopped, resumed⟩ := rounds_stop early finished
  obtain ⟨started, budget⟩ := started_rounds stop sim.budget sim.started_start
  rw [sim.grows_start.budget] at budget
  rcases isStop : rounds stop sim.budget sim.start with ⟨result, middle⟩
  rw [isStop] at stopped resumed started budget
  cases stopped
  rw [runUntil_of_ok isStop, runUntil_of_ok looped]
  refine ⟨rfl, ?_⟩
  obtain ⟨shown, isShown⟩ := exists_settle_eq_asOf middle stop
  -- The nodes have started, and the loop has the whole budget again.
  have again : ∀ {reached : Sim W},
      rounds deadline sim.budget (middle.settle stop) = (.ok (), reached) →
        (middle.settle stop).runUntil deadline = (.ok (), reached.settle deadline) := by
    intro reached loops
    apply runUntil_of_ok
    rw [isShown] at loops ⊢
    have isStarted : (middle.asOf shown).start = middle.asOf shown := if_pos started
    have sameBudget : (middle.asOf shown).budget = sim.budget := budget
    rw [isStarted, sameBudget]
    exact loops
  rw [looped] at resumed
  rcases rounds_asOf (congrArg Prod.fst resumed) shown with same | ⟨stays, staysShown⟩
  · rw [again (by rw [isShown, same, resumed])]
    exact .refl _
  · rw [resumed] at stays
    cases stays
    rw [again (by rw [isShown, staysShown])]
    by_cases isLast : deadline = .last
    · subst deadline
      rw [← isShown, settle_last, settle_last, isShown]
      exact ⟨rfl, rfl, fun notLast => absurd rfl notLast⟩
    · rw [← isShown, settle_settle early isLast]
      exact .refl _

/-- A run that ends well, and stops on its way: wherever it stops, however often and in whatever
order, every part ends well, and the last one where the run ends that does not stop. -/
theorem runUntil_stops (stops : List SimTime) (early : ∀ stop ∈ stops, stop ≤ deadline)
    (ended : (sim.runUntil deadline).1 = .ok ()) :
    (∀ earlier stop later, stops = earlier ++ stop :: later →
        ((sim.calls (earlier.map .runUntil)).runUntil stop).1 = .ok ()) ∧
      EndsAs deadline ((sim.calls (stops.map .runUntil)).runUntil deadline)
        (sim.runUntil deadline) := by
  induction stops generalizing sim with
  | nil =>
      constructor
      · intro earlier stop later split
        simp at split
      · exact .refl _
  | cons first rest ih =>
      obtain ⟨stopped, resumes⟩ := runUntil_stop (early first List.mem_cons_self) ended
      obtain ⟨parts, goesOn⟩ := ih (fun stop member => early stop (List.mem_cons_of_mem _ member))
        (resumes.result.trans ended)
      constructor
      · intro earlier stop later split
        cases earlier with
        | nil =>
            rw [List.nil_append, List.cons.injEq] at split
            rw [← split.1]
            exact stopped
        | cons _ earlier =>
            rw [List.cons_append, List.cons.injEq] at split
            rw [← split.1]
            exact parts earlier stop later split.2
      · exact goesOn.trans resumes

end Sim

/-- A run of twenty nanoseconds, looked at on its way. -/
theorem runUntil_stops_looping :
    Sim.EndsAs (SimTime.start.saturatingAdd 20)
      (((Sim.built scripted 0 looping).calls
        ([5, 1, 10].map fun nanos => .runUntil (SimTime.start.saturatingAdd nanos))).runUntil
          (SimTime.start.saturatingAdd 20))
      ((Sim.built scripted 0 looping).runUntil (SimTime.start.saturatingAdd 20)) := by
  have ended : ((Sim.built scripted 0 looping).runUntil (SimTime.start.saturatingAdd 20)).1 =
      .ok () := by
    decide +kernel
  exact (Sim.runUntil_stops [SimTime.start.saturatingAdd 5, SimTime.start.saturatingAdd 1,
    SimTime.start.saturatingAdd 10] (by decide) ended).2

end SipxClstr.Simulation
