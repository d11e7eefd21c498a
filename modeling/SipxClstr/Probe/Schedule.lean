import SipxClstr.Probe.Engine
import Mathlib.Data.List.MinMax
import Mathlib.Data.Prod.Lex

/-!
# When to probe what

The scheduler walks the target matrix one run at a time.  A call takes the earliest target that is
due and puts it an interval later, or is refused by the rate bound and leaves the target due.
-/

namespace SipxClstr.Probe

open Reactive SipxClstr.Sip

/-- How often a target is probed, and how much the interval is smeared. -/
structure Cadence where
  interval : Duration
  jitter : Duration
  deriving DecidableEq, Repr

/-- `Cadence::every`: smeared by up to a tenth. -/
def Cadence.every (interval : Duration) : Cadence :=
  ⟨interval, interval / 10⟩

/-- At most `runs` runs may start within `per`. -/
structure RateBound where
  runs : Nat
  per : Duration
  deriving DecidableEq, Repr

/-- A target and when it is next due. -/
structure Slot where
  target : Target
  due : Duration
  deriving DecidableEq, Repr

structure Scheduler where
  slots : List Slot
  cadence : Cadence
  bound : RateBound
  /-- When runs started, oldest first, trimmed to the window. -/
  recentStarts : List Duration
  /-- How many runs the bound has refused. -/
  deferred : Nat
  deriving DecidableEq, Repr

namespace Scheduler

/-- `Scheduler::new`: the first runs are spread over one interval. -/
def new (targets : List Target) (cadence : Cadence) (bound : RateBound) : Scheduler :=
  let count := if max targets.length 1 ≤ u32Max then max targets.length 1 else 1
  let stride := cadence.interval / count
  { slots := targets.zipIdx.map fun (target, index) =>
      ⟨target, stride * if index ≤ u32Max then index else 0⟩
    cadence := cadence
    bound := bound
    recentStarts := []
    deferred := 0 }

/-- `trim`: drop the starts that have left the window. -/
def trim (scheduler : Scheduler) (now : Duration) : Scheduler :=
  { scheduler with
    recentStarts := scheduler.recentStarts.filter fun started =>
      started + scheduler.bound.per > now }

/-- The position of the earliest slot that is due, the first of several. -/
def earliestDue (scheduler : Scheduler) (now : Duration) : Option Nat :=
  ((scheduler.slots.zipIdx.filter fun (slot, _) => slot.due ≤ now).argmin fun (slot, index) =>
    toLex (slot.due, index)).map Prod.snd

/-- Put a slot an interval behind now, and what was drawn behind that. -/
def reschedule (scheduler : Scheduler) (now drawn : Duration) (slot : Slot) : Slot :=
  { slot with due := now + scheduler.cadence.interval + drawn }

/-- `take_due`: the jitter source is asked for a part of the cadence's jitter. -/
def takeDue (scheduler : Scheduler) (now : Duration) (jitter : Duration → Duration) :
    Scheduler × Option Target :=
  let scheduler := scheduler.trim now
  match scheduler.earliestDue now with
  | none => (scheduler, none)
  | some index =>
      if scheduler.bound.runs ≤ scheduler.recentStarts.length then
        -- Over the bound, and the slot stays due.
        ({ scheduler with deferred := scheduler.deferred + 1 }, none)
      else match scheduler.slots[index]? with
        | none => (scheduler, none)
        | some slot =>
            ({ scheduler with
                slots := scheduler.slots.set index
                  (scheduler.reschedule now (jitter scheduler.cadence.jitter) slot)
                recentStarts := scheduler.recentStarts ++ [now] },
              some slot.target)

end Scheduler

/-- One call: when it is made, and what its jitter source answers. -/
structure Call where
  now : Duration
  jitter : Duration → Duration

/-- The scheduler over its calls. -/
def scheduling : Machine Scheduler Call Target := fun scheduler call =>
  let (scheduler, target) := scheduler.takeDue call.now call.jitter
  (scheduler, target.toList)

namespace Scheduler

/-- A slot that is due, and stands before every other that is. -/
def Earliest (scheduler : Scheduler) (now : Duration) (position : Nat) : Prop :=
  ∃ slot, scheduler.slots[position]? = some slot ∧ slot.due ≤ now ∧
    ∀ other slot', scheduler.slots[other]? = some slot' → slot'.due ≤ now →
      slot.due < slot'.due ∨ slot.due = slot'.due ∧ position ≤ other

/-- The position whose target a call returns. -/
def starts (scheduler : Scheduler) (call : Call) : Option Nat :=
  if scheduler.bound.runs ≤ (scheduler.trim call.now).recentStarts.length then none
  else scheduler.earliestDue call.now

theorem earliest_of_earliestDue {scheduler : Scheduler} {now : Duration} {position : Nat}
    (isEarliest : scheduler.earliestDue now = some position) : scheduler.Earliest now position := by
  obtain ⟨⟨slot, index⟩, isMin, rfl⟩ := Option.map_eq_some_iff.mp isEarliest
  obtain ⟨member, due⟩ := List.mem_filter.mp (List.argmin_mem isMin)
  have isSlot := List.mem_zipIdx_iff_getElem?.mp member
  refine ⟨slot, isSlot, by simpa using due, fun other slot' isOther otherDue => ?_⟩
  have isMember : (slot', other) ∈ scheduler.slots.zipIdx.filter fun (slot, _) => slot.due ≤ now :=
    List.mem_filter.mpr ⟨List.mem_zipIdx_iff_getElem?.mpr isOther, by simpa using otherDue⟩
  have least := List.le_of_mem_argmin isMember isMin
  simpa [Prod.Lex.toLex_le_toLex] using least

/-- A slot that is due makes one the earliest. -/
theorem isSome_earliestDue_iff {scheduler : Scheduler} {now : Duration} :
    (scheduler.earliestDue now).isSome ↔ ∃ slot ∈ scheduler.slots, slot.due ≤ now := by
  rw [earliestDue, Option.isSome_map, Option.isSome_iff_ne_none, ne_eq, List.argmin_eq_none,
    List.filter_eq_nil_iff]
  constructor
  · intro some
    by_contra none
    apply some
    rintro ⟨slot, index⟩ member
    have isSlot := List.mem_zipIdx_iff_getElem?.mp member
    simpa using fun due => none ⟨slot, List.mem_of_getElem? isSlot, due⟩
  · rintro ⟨slot, member, due⟩ none
    obtain ⟨index, isSlot⟩ := List.mem_iff_getElem?.mp member
    exact none (slot, index) (List.mem_zipIdx_iff_getElem?.mpr isSlot) (by simpa using due)

theorem lt_of_earliest {scheduler : Scheduler} {now : Duration} {position : Nat}
    (isEarliest : scheduler.Earliest now position) : position < scheduler.slots.length := by
  obtain ⟨slot, isSlot, -⟩ := isEarliest
  exact (List.getElem?_eq_some_iff.mp isSlot).1

/-- What a call that returns a target does. -/
theorem takeDue_of_starts {scheduler : Scheduler} {call : Call} {position : Nat}
    (isStart : scheduler.starts call = some position) :
    ∃ slot, scheduler.slots[position]? = some slot ∧
      scheduler.takeDue call.now call.jitter =
        ({ scheduler with
            slots := scheduler.slots.set position
              (scheduler.reschedule call.now (call.jitter scheduler.cadence.jitter) slot)
            recentStarts := (scheduler.trim call.now).recentStarts ++ [call.now] },
          some slot.target) := by
  unfold starts at isStart
  split at isStart
  · contradiction
  · next within =>
      obtain ⟨slot, isSlot, -⟩ := earliest_of_earliestDue isStart
      refine ⟨slot, isSlot, ?_⟩
      have found : (scheduler.trim call.now).earliestDue call.now = some position := isStart
      have kept : (scheduler.trim call.now).slots[position]? = some slot := isSlot
      unfold takeDue
      simp only [found, kept]
      exact if_neg within

/-- What a call that returns nothing does: the run is counted as refused if one was due. -/
theorem takeDue_of_not_starts {scheduler : Scheduler} {call : Call}
    (isStart : scheduler.starts call = none) :
    scheduler.takeDue call.now call.jitter =
      ({ scheduler with
          recentStarts := (scheduler.trim call.now).recentStarts
          deferred := scheduler.deferred + if (scheduler.earliestDue call.now).isSome then 1 else 0 },
        none) := by
  have same : (scheduler.trim call.now).earliestDue call.now = scheduler.earliestDue call.now := rfl
  unfold starts at isStart
  unfold takeDue
  simp only [same]
  cases isEarliest : scheduler.earliestDue call.now with
  | none => rfl
  | some index =>
      rw [isEarliest] at isStart
      split at isStart
      · next above =>
          exact if_pos above
      · contradiction

theorem earliest_of_starts {scheduler : Scheduler} {call : Call} {position : Nat}
    (isStart : scheduler.starts call = some position) : scheduler.Earliest call.now position := by
  unfold starts at isStart
  split at isStart
  · contradiction
  · exact earliest_of_earliestDue isStart

/-- The slots after a call: the one it returns is put off, and the others stand. -/
theorem slots_scheduling (scheduler : Scheduler) (call : Call) (position : Nat) :
    (scheduling scheduler call).1.slots[position]? =
      if scheduler.starts call = some position then
        (scheduler.slots[position]?).map
          (scheduler.reschedule call.now (call.jitter scheduler.cadence.jitter))
      else
        scheduler.slots[position]? := by
  cases isStart : scheduler.starts call with
  | none =>
      have left : (scheduling scheduler call).1.slots = scheduler.slots := by
        simp only [scheduling, takeDue_of_not_starts isStart]
      rw [left, if_neg (by simp)]
  | some start =>
      obtain ⟨slot, isSlot, taken⟩ := takeDue_of_starts isStart
      have moved : (scheduling scheduler call).1.slots = scheduler.slots.set start
          (scheduler.reschedule call.now (call.jitter scheduler.cadence.jitter) slot) := by
        simp only [scheduling, taken]
      rw [moved]
      by_cases same : start = position
      · subst same
        rw [if_pos rfl, isSlot, List.getElem?_set_self (List.getElem?_eq_some_iff.mp isSlot).1]
        rfl
      · rw [if_neg (by simpa using same), List.getElem?_set_ne same]

/-- A call keeps the matrix, the cadence and the bound. -/
theorem scheduling_keeps (scheduler : Scheduler) (call : Call) :
    (scheduling scheduler call).1.slots.map Slot.target = scheduler.slots.map Slot.target ∧
      (scheduling scheduler call).1.cadence = scheduler.cadence ∧
        (scheduling scheduler call).1.bound = scheduler.bound := by
  cases isStart : scheduler.starts call with
  | none => simp only [scheduling, takeDue_of_not_starts isStart, and_self]
  | some start =>
      obtain ⟨slot, isSlot, taken⟩ := takeDue_of_starts isStart
      simp only [scheduling, taken, and_self, and_true]
      apply List.ext_getElem?
      intro position
      by_cases same : start = position
      · subst same
        rw [List.getElem?_map, List.getElem?_map, isSlot,
          List.getElem?_set_self (List.getElem?_eq_some_iff.mp isSlot).1]
        rfl
      · rw [List.getElem?_map, List.getElem?_map, List.getElem?_set_ne same]

/-- The target a call returns is the one at the position it starts. -/
theorem returned_eq (scheduler : Scheduler) (call : Call) :
    (scheduler.takeDue call.now call.jitter).2 =
      (scheduler.starts call).bind fun position =>
        (scheduler.slots.map Slot.target)[position]? := by
  cases isStart : scheduler.starts call with
  | none => rw [takeDue_of_not_starts isStart]; rfl
  | some start =>
      obtain ⟨slot, isSlot, taken⟩ := takeDue_of_starts isStart
      rw [taken, Option.bind_some, List.getElem?_map, isSlot]
      rfl

theorem recentStarts_scheduling (scheduler : Scheduler) (call : Call) :
    (scheduling scheduler call).1.recentStarts =
      (scheduler.trim call.now).recentStarts ++
        ((scheduler.starts call).map fun _ => call.now).toList := by
  cases isStart : scheduler.starts call with
  | none => simp [scheduling, takeDue_of_not_starts isStart]
  | some start =>
      obtain ⟨slot, -, taken⟩ := takeDue_of_starts isStart
      simp [scheduling, taken]

/-- A call is refused when a target is due and none is returned. -/
def refuses (scheduler : Scheduler) (call : Call) : Bool :=
  (scheduler.slots.any fun slot => slot.due ≤ call.now) &&
    (scheduler.takeDue call.now call.jitter).2.isNone

theorem deferred_scheduling (scheduler : Scheduler) (call : Call) :
    (scheduling scheduler call).1.deferred =
      scheduler.deferred + if scheduler.refuses call then 1 else 0 := by
  have isDue : (scheduler.slots.any fun slot => slot.due ≤ call.now) =
      (scheduler.earliestDue call.now).isSome := by
    rw [Bool.eq_iff_iff, isSome_earliestDue_iff, List.any_eq_true]
    simp only [decide_eq_true_eq]
  cases isStart : scheduler.starts call with
  | none =>
      simp only [scheduling, refuses, takeDue_of_not_starts isStart, isDue, Option.isNone_none,
        Bool.and_true]
  | some start =>
      obtain ⟨slot, -, taken⟩ := takeDue_of_starts isStart
      simp [scheduling, refuses, taken]

/-! ## Runs -/

theorem after_keeps (scheduler : Scheduler) (calls : List Call) :
    (Machine.after scheduling scheduler calls).slots.map Slot.target =
        scheduler.slots.map Slot.target ∧
      (Machine.after scheduling scheduler calls).cadence = scheduler.cadence ∧
        (Machine.after scheduling scheduler calls).bound = scheduler.bound := by
  apply Machine.invariant_always scheduling (fun state =>
    state.slots.map Slot.target = scheduler.slots.map Slot.target ∧
      state.cadence = scheduler.cadence ∧ state.bound = scheduler.bound)
  · rintro state call ⟨matrix, cadence, bound⟩
    obtain ⟨sameMatrix, sameCadence, sameBound⟩ := scheduling_keeps state call
    exact ⟨sameMatrix.trans matrix, sameCadence.trans cadence, sameBound.trans bound⟩
  · exact ⟨rfl, rfl, rfl⟩

/-- No slot is ever due earlier than it was. -/
theorem due_le_after {scheduler : Scheduler} {position : Nat} {slot : Slot}
    (isSlot : scheduler.slots[position]? = some slot) (calls : List Call) :
    ∃ slot', (Machine.after scheduling scheduler calls).slots[position]? = some slot' ∧
      slot.due ≤ slot'.due := by
  induction calls generalizing scheduler slot with
  | nil => exact ⟨slot, isSlot, le_rfl⟩
  | cons call rest ih =>
      have moved := slots_scheduling scheduler call position
      rw [isSlot] at moved
      by_cases isStart : scheduler.starts call = some position
      · obtain ⟨same, isSame, due, -⟩ := earliest_of_starts isStart
        cases isSame.symm.trans isSlot
        rw [if_pos isStart] at moved
        obtain ⟨slot', isSlot', later⟩ := ih moved
        refine ⟨slot', isSlot', le_trans (le_trans due ?_) later⟩
        exact le_trans (Nat.le_add_right _ _) (Nat.le_add_right _ _)
      · rw [if_neg isStart] at moved
        exact ih moved

/-- A slot that no call returns stands as it was. -/
theorem slot_after {scheduler : Scheduler} {position : Nat} {calls : List Call}
    (passed : ∀ past call future, calls = past ++ call :: future →
      (Machine.after scheduling scheduler past).starts call ≠ some position) :
    (Machine.after scheduling scheduler calls).slots[position]? = scheduler.slots[position]? := by
  induction calls generalizing scheduler with
  | nil => rfl
  | cons call rest ih =>
      have stands : scheduler.starts call ≠ some position := passed [] call rest rfl
      have moved := slots_scheduling scheduler call position
      rw [if_neg stands] at moved
      rw [Machine.after_cons, ih, moved]
      rintro past next future rfl
      exact passed (call :: past) next future rfl

/-- When the calls of a run returned their targets. -/
def startTimes (scheduler : Scheduler) (calls : List Call) : List Duration :=
  (Machine.observed scheduling
    (fun state call => (state.takeDue call.now call.jitter).2.map fun _ => call.now)
    scheduler calls).filterMap id

/-- A call that starts a position returns a target. -/
theorem map_returned_eq {α : Type} (scheduler : Scheduler) (call : Call) (value : α) :
    ((scheduler.takeDue call.now call.jitter).2.map fun _ => value) =
      (scheduler.starts call).map fun _ => value := by
  cases isStart : scheduler.starts call with
  | none => rw [takeDue_of_not_starts isStart]; rfl
  | some start =>
      obtain ⟨slot, -, taken⟩ := takeDue_of_starts isStart
      rw [taken]
      rfl

theorem startTimes_concat (scheduler : Scheduler) (past : List Call) (call : Call) :
    startTimes scheduler (past ++ [call]) =
      startTimes scheduler past ++
        (((Machine.after scheduling scheduler past).starts call).map fun _ => call.now).toList := by
  rw [startTimes, Machine.observed_concat, List.filterMap_append, map_returned_eq]
  cases (Machine.after scheduling scheduler past).starts call <;> rfl

/-- What the scheduler remembers of its starts is what still counts. -/
theorem recentStarts_within {scheduler : Scheduler} (fresh : scheduler.recentStarts = [])
    {calls : List Call} (ordered : calls.Pairwise fun first second => first.now ≤ second.now)
    {now : Duration} (earlier : ∀ call ∈ calls, call.now ≤ now) :
    ((Machine.after scheduling scheduler calls).trim now).recentStarts =
      (startTimes scheduler calls).filter fun started => started + scheduler.bound.per > now := by
  induction calls using List.reverseRecOn generalizing now with
  | nil =>
      simp only [trim, Machine.after_nil, fresh]
      rfl
  | append_singleton past call ih =>
      obtain ⟨pastOrdered, -, beforeCall⟩ := List.pairwise_append.mp ordered
      have before := ih pastOrdered fun other member => beforeCall other member call (by simp)
      have isNow := earlier call (by simp)
      have bound := (after_keeps scheduler (past ++ [call])).2.2
      simp only [trim, bound]
      rw [Machine.after_concat, recentStarts_scheduling, before, startTimes_concat,
        List.filter_append, List.filter_append, List.filter_filter]
      congr 1
      apply List.filter_congr
      intro started _
      rw [Bool.eq_iff_iff, Bool.and_eq_true, decide_eq_true_eq, decide_eq_true_eq]
      exact ⟨And.left, fun counts => ⟨counts, lt_of_le_of_lt isNow counts⟩⟩

/-- No window holds more starts than the bound allows. -/
theorem starts_window {scheduler : Scheduler} (fresh : scheduler.recentStarts = [])
    {calls : List Call} (ordered : calls.Pairwise fun first second => first.now ≤ second.now)
    (instant : Duration) :
    ((startTimes scheduler calls).filter fun started =>
      instant < started ∧ started ≤ instant + scheduler.bound.per).length ≤ scheduler.bound.runs := by
  induction calls using List.reverseRecOn with
  | nil => exact Nat.zero_le _
  | append_singleton past call ih =>
      obtain ⟨pastOrdered, -, beforeCall⟩ := List.pairwise_append.mp ordered
      have before := ih pastOrdered
      rw [startTimes_concat, List.filter_append, List.length_append]
      cases isStart : (Machine.after scheduling scheduler past).starts call with
      | none => simpa using before
      | some position =>
          by_cases within : instant < call.now ∧ call.now ≤ instant + scheduler.bound.per
          · -- Every start of the window so far still counts at this call.
            have counted : ((startTimes scheduler past).filter fun started =>
                instant < started ∧ started ≤ instant + scheduler.bound.per).length ≤
                  ((startTimes scheduler past).filter fun started =>
                    started + scheduler.bound.per > call.now).length := by
              apply List.Sublist.length_le
              apply List.monotone_filter_right
              intro started counts
              rw [decide_eq_true_eq] at counts ⊢
              exact lt_of_le_of_lt within.2 (Nat.add_lt_add_right counts.1 _)
            have remembered := recentStarts_within fresh pastOrdered
              fun other member => beforeCall other member call (by simp)
            rw [← remembered] at counted
            have few : ¬ (Machine.after scheduling scheduler past).bound.runs ≤
                ((Machine.after scheduling scheduler past).trim call.now).recentStarts.length := by
              intro full
              rw [starts, if_pos full] at isStart
              contradiction
            rw [(after_keeps scheduler past).2.2] at few
            have one : (((some position).map fun _ => call.now).toList.filter fun started =>
                instant < started ∧ started ≤ instant + scheduler.bound.per).length ≤ 1 :=
              List.length_filter_le _ _
            omega
          · have none : (((some position).map fun _ => call.now).toList.filter fun started =>
                instant < started ∧ started ≤ instant + scheduler.bound.per) = [] := by
              simpa using within
            rw [none]
            exact before

/-- Between two starts of one position every other that was due at the first starts. -/
theorem starts_between {scheduler : Scheduler} (positive : 0 < scheduler.cadence.interval)
    {first : Call} {between : List Call} {again : Call} {position : Nat}
    (isFirst : scheduler.starts first = some position)
    (isAgain : (Machine.after scheduling scheduler (first :: between)).starts again = some position)
    (later : first.now ≤ again.now) {other : Nat} {slot : Slot} (different : other ≠ position)
    (isOther : scheduler.slots[other]? = some slot) (due : slot.due ≤ first.now) :
    ∃ past call future, between = past ++ call :: future ∧
      (Machine.after scheduling scheduler (first :: past)).starts call = some other := by
  by_contra waits
  push Not at waits
  have passedFirst : (scheduling scheduler first).1.slots[other]? = some slot := by
    rw [slots_scheduling, if_neg, isOther]
    rw [isFirst, Option.some.injEq]
    exact Ne.symm different
  have still : (Machine.after scheduling scheduler (first :: between)).slots[other]? = some slot := by
    rw [Machine.after_cons, slot_after, passedFirst]
    intro past call future split
    exact waits past call future split
  obtain ⟨taken, isTaken, -⟩ := earliest_of_starts isFirst
  have put := slots_scheduling scheduler first position
  rw [if_pos isFirst, isTaken] at put
  obtain ⟨now, isNow, notBefore⟩ := due_le_after put between
  have behind : slot.due < now.due := calc
    slot.due ≤ first.now := due
    _ < first.now + scheduler.cadence.interval := Nat.lt_add_of_pos_right positive
    _ ≤ first.now + scheduler.cadence.interval + first.jitter scheduler.cadence.jitter :=
      Nat.le_add_right _ _
    _ ≤ now.due := notBefore
  obtain ⟨least, isLeast, -, earliest⟩ := earliest_of_starts isAgain
  cases isLeast.symm.trans isNow
  rcases earliest other slot still (le_trans due later) with before | ⟨same, -⟩
  · exact lt_asymm behind before
  · exact absurd same (ne_of_gt behind)

theorem deferred_after (scheduler : Scheduler) (calls : List Call) :
    (Machine.after scheduling scheduler calls).deferred =
      scheduler.deferred + (Machine.observed scheduling refuses scheduler calls).count true := by
  induction calls using List.reverseRecOn with
  | nil => rfl
  | append_singleton past call ih =>
      rw [Machine.after_concat, deferred_scheduling, ih, Machine.observed_concat,
        List.count_append]
      cases (Machine.after scheduling scheduler past).refuses call <;> simp [Nat.add_assoc]

/-- The state a new scheduler reaches. -/
def reached (targets : List Target) (cadence : Cadence) (bound : RateBound) (calls : List Call) :
    Scheduler :=
  Machine.after scheduling (new targets cadence bound) calls

theorem slots_new (targets : List Target) (cadence : Cadence) (bound : RateBound) :
    (new targets cadence bound).slots.map Slot.target = targets := by
  simp only [new, List.map_map]
  exact List.zipIdx_map_fst 0 targets

/-- What a scheduler over a matrix keeps to in a run of calls. -/
structure Keeps (targets : List Target) (cadence : Cadence) (bound : RateBound)
    (calls : List Call) : Prop where
  window : ∀ instant,
    ((startTimes (new targets cadence bound) calls).filter fun started =>
      instant < started ∧ started ≤ instant + bound.per).length ≤ bound.runs
  returned : ∀ past call future, calls = past ++ call :: future →
    ((reached targets cadence bound past).takeDue call.now call.jitter).2 =
      ((reached targets cadence bound past).starts call).bind fun position => targets[position]?
  earliest : ∀ past call future position, calls = past ++ call :: future →
    (reached targets cadence bound past).starts call = some position →
      position < targets.length ∧ (reached targets cadence bound past).Earliest call.now position
  /-- What is returned is next due an interval later, smeared by no more than the jitter, stands
  so until it is returned again, and is not returned before. -/
  rescheduled : ∀ past call future position, calls = past ++ call :: future →
    (reached targets cadence bound past).starts call = some position →
      ∃ slot, (reached targets cadence bound (past ++ [call])).slots[position]? = some slot ∧
        call.now + cadence.interval ≤ slot.due ∧
          slot.due ≤ call.now + cadence.interval + cadence.jitter ∧
            (∀ between rest, future = between ++ rest →
              (∀ before next after, between = before ++ next :: after →
                (reached targets cadence bound (past ++ call :: before)).starts next ≠
                  some position) →
                (reached targets cadence bound (past ++ call :: between)).slots[position]? =
                  some slot) ∧
              ∀ between later rest, future = between ++ later :: rest →
                (reached targets cadence bound (past ++ call :: between)).starts later =
                    some position →
                  slot.due ≤ later.now
  matrix : (reached targets cadence bound calls).slots.map Slot.target = targets
  deferred : (reached targets cadence bound calls).deferred =
    (Machine.observed scheduling refuses (new targets cadence bound) calls).count true
  /-- Between two returns of one position every other that was due at the first is returned. -/
  fair : ∀ past first between again rest position,
    calls = past ++ first :: between ++ again :: rest →
      (reached targets cadence bound past).starts first = some position →
        (reached targets cadence bound (past ++ first :: between)).starts again = some position →
          ∀ other slot, other ≠ position →
            (reached targets cadence bound past).slots[other]? = some slot → slot.due ≤ first.now →
              ∃ before call after, between = before ++ call :: after ∧
                (reached targets cadence bound (past ++ first :: before)).starts call = some other

theorem reached_append (targets : List Target) (cadence : Cadence) (bound : RateBound)
    (first second : List Call) :
    reached targets cadence bound (first ++ second) =
      Machine.after scheduling (reached targets cadence bound first) second :=
  Machine.after_append scheduling _ first second

theorem reached_keeps (targets : List Target) (cadence : Cadence) (bound : RateBound)
    (calls : List Call) :
    (reached targets cadence bound calls).slots.map Slot.target = targets ∧
      (reached targets cadence bound calls).cadence = cadence ∧
        (reached targets cadence bound calls).bound = bound := by
  obtain ⟨matrix, sameCadence, sameBound⟩ := after_keeps (new targets cadence bound) calls
  exact ⟨matrix.trans (slots_new targets cadence bound), sameCadence, sameBound⟩

/-- Every run of calls whose times do not go back and whose jitter stays in its budget. -/
theorem schedules (targets : List Target) {cadence : Cadence} (bound : RateBound)
    {calls : List Call} (positive : 0 < cadence.interval)
    (ordered : calls.Pairwise fun first second => first.now ≤ second.now)
    (inBudget : ∀ call ∈ calls, call.jitter cadence.jitter ≤ cadence.jitter) :
    Keeps targets cadence bound calls where
  window instant := @starts_window (new targets cadence bound) rfl calls ordered instant
  returned past call future _ := by
    rw [returned_eq, (reached_keeps targets cadence bound past).1]
  earliest past call future position _ isStart := by
    have isEarliest := earliest_of_starts isStart
    have inRange := lt_of_earliest isEarliest
    rw [← List.length_map (f := Slot.target), (reached_keeps targets cadence bound past).1]
      at inRange
    exact ⟨inRange, isEarliest⟩
  rescheduled past call future position split isStart := by
    obtain ⟨slot, isSlot, -⟩ := earliest_of_starts isStart
    obtain ⟨-, sameCadence, -⟩ := reached_keeps targets cadence bound past
    have put := slots_scheduling (reached targets cadence bound past) call position
    rw [if_pos isStart, isSlot, Option.map_some, reschedule, sameCadence] at put
    have drawn : call.jitter cadence.jitter ≤ cadence.jitter := inBudget call (by simp [split])
    refine ⟨⟨slot.target, call.now + cadence.interval + call.jitter cadence.jitter⟩, ?_,
      Nat.le_add_right _ _, Nat.add_le_add_left drawn _, ?_, ?_⟩
    · rw [reached_append]
      exact put
    · intro between rest _ passed
      rw [reached_append, Machine.after_cons, slot_after]
      · exact put
      · intro before next after split
        have other := passed before next after split
        rw [reached_append, Machine.after_cons] at other
        exact other
    · intro between later rest _ isLater
      rw [reached_append, Machine.after_cons] at isLater
      obtain ⟨now, isNow, notBefore⟩ := due_le_after put between
      obtain ⟨least, isLeast, due, -⟩ := earliest_of_starts isLater
      cases isLeast.symm.trans isNow
      exact le_trans notBefore due
  matrix := (reached_keeps targets cadence bound calls).1
  deferred := by
    rw [reached, deferred_after]
    exact Nat.zero_add _
  fair past first between again rest position split isFirst isAgain other slot different isOther
      due := by
    obtain ⟨-, sameCadence, -⟩ := reached_keeps targets cadence bound past
    rw [reached_append] at isAgain
    rw [split] at ordered
    have later : first.now ≤ again.now :=
      (List.pairwise_append.mp ordered).2.2 first (by simp) again (by simp)
    obtain ⟨before, call, after, isBetween, isCall⟩ :=
      starts_between (by rwa [sameCadence]) isFirst isAgain later different isOther due
    refine ⟨before, call, after, isBetween, ?_⟩
    rw [reached_append]
    exact isCall

/-- Three targets, one run a minute: the second waits for the window and is not passed over. -/
def boundedCalls : List Call :=
  [⟨0, fun _ => 0⟩, ⟨fromSecs 20, fun budget => budget⟩, ⟨fromSecs 61, fun budget => budget⟩,
    ⟨fromSecs 121, fun _ => 0⟩]

def boundedTargets : List Target :=
  [⟨text "vip.example", text "UDP", text "zone-a"⟩,
    ⟨text "edge-1.example", text "UDP", text "zone-a"⟩,
    ⟨text "edge-1.example", text "TLS", text "zone-a"⟩]

theorem schedules_bounded :
    Keeps boundedTargets (.every (fromSecs 60)) ⟨1, fromSecs 60⟩ boundedCalls ∧
      Machine.observed scheduling starts
          (new boundedTargets (.every (fromSecs 60)) ⟨1, fromSecs 60⟩) boundedCalls =
        [some 0, none, some 1, some 2] :=
  ⟨schedules boundedTargets ⟨1, fromSecs 60⟩ (by decide) (by decide) (by decide), by decide +kernel⟩

end Scheduler

end SipxClstr.Probe
