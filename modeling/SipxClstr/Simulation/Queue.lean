import SipxClstr.Simulation.Time
import Mathlib.Data.List.Pairwise

/-!
# The discrete-event queue

Equal deadlines are broken by the order of insertion.  The heap is held in the order in which
it is popped.  Timers wait in a queue of the kernel's.
-/

namespace SipxClstr.Simulation

universe u

/-! ## Events -/

/-- One scheduled item: when, in what order among equals, and what. -/
structure Scheduled (T : Type u) where
  due : SimTime
  seq : Nat
  payload : T

/-- What is popped first: the earlier deadline, and among equals the earlier insertion. -/
def Scheduled.Before {T : Type u} (first second : Scheduled T) : Prop :=
  first.due < second.due ∨ first.due = second.due ∧ first.seq < second.seq

theorem Scheduled.Before.due_le {T : Type u} {first second : Scheduled T}
    (before : first.Before second) : first.due ≤ second.due := by
  rcases before with earlier | ⟨same, -⟩
  · exact earlier.le
  · exact same.le

/-- A queue of things that have not happened yet. -/
structure EventQueue (T : Type u) where
  heap : List (Scheduled T)
  nextSeq : Nat
  ordered : heap.Pairwise Scheduled.Before
  issued : ∀ item ∈ heap, item.seq < nextSeq

namespace EventQueue

variable {T : Type u}

def new : EventQueue T where
  heap := []
  nextSeq := 0
  ordered := .nil
  issued := by simp

/-- Where an item of this deadline goes: behind those that are due no later. -/
def placed (heap : List (Scheduled T)) (item : Scheduled T) : List (Scheduled T) :=
  heap.filter (fun other => other.due ≤ item.due) ++
    item :: heap.filter fun other => item.due < other.due

theorem mem_placed {heap : List (Scheduled T)} {item other : Scheduled T} :
    other ∈ placed heap item ↔ other ∈ heap ∨ other = item := by
  simp only [placed, List.mem_append, List.mem_filter, List.mem_cons, decide_eq_true_eq]
  constructor
  · rintro (⟨member, -⟩ | same | ⟨member, -⟩)
    · exact .inl member
    · exact .inr same
    · exact .inl member
  · rintro (member | same)
    · rcases le_or_gt other.due item.due with early | late
      · exact .inl ⟨member, early⟩
      · exact .inr (.inr ⟨member, late⟩)
    · exact .inr (.inl same)

theorem ordered_placed {heap : List (Scheduled T)} (ordered : heap.Pairwise Scheduled.Before)
    {item : Scheduled T} (newest : ∀ other ∈ heap, other.seq < item.seq) :
    (placed heap item).Pairwise Scheduled.Before := by
  apply List.pairwise_append.mpr
  refine ⟨ordered.filter _, List.pairwise_cons.mpr ⟨?_, ordered.filter _⟩, ?_⟩
  · intro later member
    exact .inl (of_decide_eq_true (List.mem_filter.mp member).2)
  · intro earlier isEarlier later isLater
    rcases List.mem_filter.mp isEarlier with ⟨member, early⟩
    have early : earlier.due ≤ item.due := of_decide_eq_true early
    rcases List.mem_cons.mp isLater with rfl | behind
    · rcases lt_or_eq_of_le early with before | same
      · exact .inl before
      · exact .inr ⟨same, newest earlier member⟩
    · have late : item.due < later.due := of_decide_eq_true (List.mem_filter.mp behind).2
      exact .inl (lt_of_le_of_lt early late)

/-- Schedule something at an absolute time. -/
def scheduleAt (queue : EventQueue T) (due : SimTime) (payload : T) : EventQueue T where
  heap := placed queue.heap ⟨due, queue.nextSeq, payload⟩
  nextSeq := queue.nextSeq + 1
  ordered := ordered_placed queue.ordered queue.issued
  issued := by
    intro item member
    rcases mem_placed.mp member with stood | rfl
    · exact Nat.lt_succ_of_lt (queue.issued item stood)
    · exact Nat.lt_succ_self _

/-- Schedule something after a delay from `now`. -/
def scheduleAfter (queue : EventQueue T) (now : SimTime) (after : Nat) (payload : T) :
    EventQueue T :=
  queue.scheduleAt (now.saturatingAdd after) payload

/-- When the next event is due, if there is one. -/
def nextDeadline (queue : EventQueue T) : Option SimTime :=
  queue.heap.head?.map Scheduled.due

/-- The earliest event without removing it. -/
def peek (queue : EventQueue T) : Option T :=
  queue.heap.head?.map Scheduled.payload

/-- The queue without its earliest event. -/
def rest (queue : EventQueue T) : EventQueue T where
  heap := queue.heap.tail
  nextSeq := queue.nextSeq
  ordered := queue.ordered.tail
  issued item member := queue.issued item (List.mem_of_mem_tail member)

/-- Take the earliest event, with the time it is due at. -/
def pop (queue : EventQueue T) : Option (Scheduled T × EventQueue T) :=
  queue.heap.head?.map fun item => (item, queue.rest)

/-- Schedule things at one instant, one behind the other. -/
def scheduleAll (queue : EventQueue T) (due : SimTime) (payloads : List T) : EventQueue T :=
  payloads.foldl (fun queue payload => queue.scheduleAt due payload) queue

/-! ## What an operation leaves -/

@[simp]
theorem mem_scheduleAt {queue : EventQueue T} {due : SimTime} {payload : T} {item : Scheduled T} :
    item ∈ (queue.scheduleAt due payload).heap ↔
      item ∈ queue.heap ∨ item = ⟨due, queue.nextSeq, payload⟩ :=
  mem_placed

theorem mem_of_mem_scheduleAll {queue : EventQueue T} {due : SimTime} {payloads : List T}
    {item : Scheduled T} (member : item ∈ (queue.scheduleAll due payloads).heap) :
    item ∈ queue.heap ∨ item.due = due ∧ queue.nextSeq ≤ item.seq ∧ item.payload ∈ payloads := by
  induction payloads generalizing queue with
  | nil => exact .inl member
  | cons payload rest ih =>
      rcases ih member with stood | ⟨isDue, newer, isIn⟩
      · rcases mem_scheduleAt.mp stood with earlier | rfl
        · exact .inl earlier
        · exact .inr ⟨rfl, le_rfl, List.mem_cons_self⟩
      · exact .inr ⟨isDue, (Nat.le_succ _).trans newer, List.mem_cons_of_mem _ isIn⟩

theorem mem_scheduleAll_of_mem {queue : EventQueue T} {due : SimTime} {payloads : List T}
    {item : Scheduled T} (member : item ∈ queue.heap) :
    item ∈ (queue.scheduleAll due payloads).heap := by
  induction payloads generalizing queue with
  | nil => exact member
  | cons payload rest ih => exact ih (mem_scheduleAt.mpr (.inl member))

theorem nextSeq_le_scheduleAll (queue : EventQueue T) (due : SimTime) (payloads : List T) :
    queue.nextSeq ≤ (queue.scheduleAll due payloads).nextSeq := by
  induction payloads generalizing queue with
  | nil => exact le_rfl
  | cons payload rest ih => exact (Nat.le_succ _).trans (ih (queue.scheduleAt due payload))

/-- What is popped stands before everything that stays. -/
theorem pop_eq_some {queue behind : EventQueue T} {item : Scheduled T}
    (popped : queue.pop = some (item, behind)) :
    queue.heap = item :: behind.heap ∧ behind.nextSeq = queue.nextSeq ∧
      ∀ other ∈ behind.heap, item.Before other := by
  have ordered := queue.ordered
  unfold pop rest at popped
  cases held : queue.heap with
  | nil => simp [held] at popped
  | cons first others =>
      simp only [held, List.head?_cons, Option.map_some, Option.some.injEq, Prod.mk.injEq,
        List.tail_cons] at popped
      rcases popped with ⟨rfl, rfl⟩
      rw [held] at ordered
      exact ⟨rfl, rfl, (List.pairwise_cons.mp ordered).1⟩

/-- Nothing is due before the next deadline. -/
theorem nextDeadline_le {item : Scheduled T} (queue : EventQueue T) (member : item ∈ queue.heap) :
    ∃ due, queue.nextDeadline = some due ∧ due ≤ item.due := by
  have ordered := queue.ordered
  unfold nextDeadline
  cases held : queue.heap with
  | nil => simp [held] at member
  | cons first others =>
      rw [held] at member ordered
      refine ⟨first.due, rfl, ?_⟩
      rcases List.mem_cons.mp member with rfl | later
      · exact le_rfl
      · exact ((List.pairwise_cons.mp ordered).1 item later).due_le

end EventQueue

/-! ## Timers -/

/-- A timer goes behind those that are due no later, in place of one of its key. -/
def armed {K : Type u} [DecidableEq K] (live : List (K × SimTime)) (key : K) (due : SimTime) :
    List (K × SimTime) :=
  let others := live.filter fun timer => timer.1 ≠ key
  others.filter (fun timer => timer.2 ≤ due) ++
    (key, due) :: others.filter fun timer => due < timer.2

/-- The kernel's queue of timers: one live generation a key. -/
structure TimerQueue (K : Type u) [DecidableEq K] where
  Queue : Type u
  new : Queue
  set : Queue → K → SimTime → Nat → Queue
  clear : Queue → K → Queue
  forgetMatching : Queue → (K → Bool) → Queue
  nextDeadline : Queue → Option SimTime
  takeDue : Queue → SimTime → List K × Queue
  /-- The live timers, by deadline and then by insertion. -/
  live : Queue → List (K × SimTime)
  nodup : ∀ queue, ((live queue).map Prod.fst).Nodup
  live_new : live new = []
  live_set : ∀ queue key now after,
    live (set queue key now after) = armed (live queue) key (now.saturatingAdd after)
  live_clear : ∀ queue key, live (clear queue key) = (live queue).filter fun timer => timer.1 ≠ key
  live_forgetMatching : ∀ queue matching,
    live (forgetMatching queue matching) = (live queue).filter fun timer => !matching timer.1
  nextDeadline_eq : ∀ queue, nextDeadline queue = ((live queue).map Prod.snd).min?
  takeDue_fst : ∀ queue now,
    (takeDue queue now).1 = ((live queue).filter fun timer => timer.2 ≤ now).map Prod.fst
  live_takeDue : ∀ queue now,
    live (takeDue queue now).2 = (live queue).filter fun timer => now < timer.2

section Armed

variable {K : Type u} [DecidableEq K] {live : List (K × SimTime)} {key : K} {due : SimTime}
  {timer : K × SimTime}

theorem mem_armed : timer ∈ armed live key due ↔
    timer = (key, due) ∨ timer ∈ live ∧ timer.1 ≠ key := by
  simp only [armed, List.mem_append, List.mem_cons, List.mem_filter, decide_eq_true_eq]
  constructor
  · rintro (⟨member, -⟩ | same | ⟨member, -⟩)
    · exact .inr member
    · exact .inl same
    · exact .inr member
  · rintro (same | member)
    · exact .inr (.inl same)
    · rcases le_or_gt timer.2 due with early | late
      · exact .inl ⟨member, early⟩
      · exact .inr (.inr ⟨member, late⟩)

end Armed

namespace TimerQueue

variable {K : Type u} [DecidableEq K] (timers : TimerQueue K) {queue : timers.Queue} {now : SimTime}

/-- Nothing is due before the next deadline. -/
theorem nextDeadline_le {timer : K × SimTime} (member : timer ∈ timers.live queue) :
    ∃ due, timers.nextDeadline queue = some due ∧ due ≤ timer.2 := by
  rw [timers.nextDeadline_eq]
  have inside : timer.2 ∈ (timers.live queue).map Prod.snd := List.mem_map_of_mem member
  cases least : ((timers.live queue).map Prod.snd).min? with
  | none =>
      rw [List.min?_eq_none_iff] at least
      rw [least] at inside
      contradiction
  | some due => exact ⟨due, rfl, (List.min?_eq_some_iff.mp least).2 _ inside⟩

theorem exists_of_nextDeadline {due : SimTime} (next : timers.nextDeadline queue = some due) :
    ∃ timer ∈ timers.live queue, timer.2 = due := by
  rw [timers.nextDeadline_eq] at next
  exact List.mem_map.mp (List.min?_eq_some_iff.mp next).1

theorem mem_takeDue {key : K} :
    key ∈ (timers.takeDue queue now).1 ↔ ∃ due ≤ now, (key, due) ∈ timers.live queue := by
  rw [timers.takeDue_fst, List.mem_map]
  constructor
  · rintro ⟨⟨_, due⟩, member, rfl⟩
    rcases List.mem_filter.mp member with ⟨isLive, early⟩
    exact ⟨due, of_decide_eq_true early, isLive⟩
  · rintro ⟨due, early, isLive⟩
    exact ⟨(key, due), List.mem_filter.mpr ⟨isLive, decide_eq_true early⟩, rfl⟩

/-- The live timers of a queue, each of its own key. -/
abbrev Live (K : Type u) :=
  { live : List (K × SimTime) // (live.map Prod.fst).Nodup }

omit [DecidableEq K] in
theorem nodup_filter {live : List (K × SimTime)} (nodup : (live.map Prod.fst).Nodup)
    (keep : K × SimTime → Bool) : ((live.filter keep).map Prod.fst).Nodup :=
  nodup.sublist (List.filter_sublist.map Prod.fst)

theorem nodup_armed {live : List (K × SimTime)} (nodup : (live.map Prod.fst).Nodup) (key : K)
    (due : SimTime) : ((armed live key due).map Prod.fst).Nodup := by
  have others := nodup_filter nodup fun timer => timer.1 ≠ key
  have apart : ∀ keep : K × SimTime → Bool,
      ∀ timer ∈ (live.filter fun timer => timer.1 ≠ key).filter keep, timer.1 ≠ key := by
    intro keep timer member
    exact of_decide_eq_true (List.mem_filter.mp (List.mem_filter.mp member).1).2
  have split : ((live.filter fun timer => timer.1 ≠ key).filter (fun timer => timer.2 ≤ due) ++
      (live.filter fun timer => timer.1 ≠ key).filter fun timer => due < timer.2).Perm
        (live.filter fun timer => timer.1 ≠ key) := by
    have parts := List.filter_append_perm (fun timer : K × SimTime => decide (timer.2 ≤ due))
      (live.filter fun timer => timer.1 ≠ key)
    simpa only [← not_le, decide_not] using parts
  rw [armed, List.map_append, List.map_cons, List.perm_middle.nodup_iff, List.nodup_cons,
    ← List.map_append]
  constructor
  · intro inside
    rcases List.mem_map.mp inside with ⟨timer, member, same⟩
    rcases List.mem_append.mp member with early | late
    · exact apart _ timer early same
    · exact apart _ timer late same
  · exact ((split.map Prod.fst).nodup_iff).mpr others

/-- A queue that is the list of its live timers. -/
def listed (K : Type u) [DecidableEq K] : TimerQueue K where
  Queue := Live K
  new := ⟨[], List.nodup_nil⟩
  set queue key now after :=
    ⟨armed queue.1 key (now.saturatingAdd after), nodup_armed queue.2 key _⟩
  clear queue key := ⟨queue.1.filter fun timer => timer.1 ≠ key, nodup_filter queue.2 _⟩
  forgetMatching queue matching :=
    ⟨queue.1.filter fun timer => !matching timer.1, nodup_filter queue.2 _⟩
  nextDeadline queue := (queue.1.map Prod.snd).min?
  takeDue queue now :=
    ((queue.1.filter fun timer => timer.2 ≤ now).map Prod.fst,
      ⟨queue.1.filter fun timer => now < timer.2, nodup_filter queue.2 _⟩)
  live queue := queue.1
  nodup queue := queue.2
  live_new := rfl
  live_set _ _ _ _ := rfl
  live_clear _ _ := rfl
  live_forgetMatching _ _ := rfl
  nextDeadline_eq _ := rfl
  takeDue_fst _ _ := rfl
  live_takeDue _ _ := rfl

end TimerQueue

end SipxClstr.Simulation
