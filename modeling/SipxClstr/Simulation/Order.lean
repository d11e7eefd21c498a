import SipxClstr.Simulation.Run
import SipxClstr.Reactive.Journal

/-!
# The order of events

Virtual time does not go back, what is queued is taken in the order of its instants and then of
its insertion, and the faults of an instant come before its timers and its deliveries.  All of it
holds as long as no fault is queued into the past, or behind something that is no fault and is
due at the same instant.
-/

namespace SipxClstr.Simulation

open SipxClstr.Sip Reactive Machine

/-! ## What a log says of the order -/

/-- The instant of a line of the trace, of an input or of an effect. -/
def Record.time? {M : Type} : Record M → Option SimTime
  | .traced due _ _ _ _ => some due
  | .called now _ _ _ => some now
  | .performed now _ _ => some now
  | _ => none

/-- The event that was taken. -/
def Record.taken? {M : Type} : Record M → Option (Scheduled Event)
  | .took item => some item
  | _ => none

/-- Every fault that was queued ahead of its instant, and is due by this one, was taken. -/
def CaughtUp {M : Type} (past : List (Record M)) (instant : SimTime) : Prop :=
  ∀ queuedAt fault, .queued queuedAt fault ∈ past → queuedAt < fault.due → fault.due ≤ instant →
    .took fault ∈ past

/-- The faults of an instant are applied before anything else of it happens, each as it is
taken. -/
structure FaultsAhead {M : Type} (past : List (Record M)) (entry : Record M) : Prop where
  event : ∀ item, entry = .took item → item.payload.isFault = false → CaughtUp past item.due
  timer : ∀ due node name timer write, entry = .traced due node name (.timerFired timer) write →
    CaughtUp past due
  applied : ∀ due seq fault, past.getLast? = some (.took ⟨due, seq, .fault fault⟩) →
    entry = .applied fault

/-- What happens at an instant, and is neither an event that is taken nor a timer. -/
def Record.Ordinary {M : Type} (now : SimTime) : Record M → Prop
  | .traced _ _ _ (.timerFired _) _ => False
  | .traced due _ _ _ _ => due = now
  | .called due _ _ _ => due = now
  | .performed due _ _ => due = now
  | .took _ => False
  | .queued _ _ => False
  | _ => True

namespace Record.Ordinary

variable {M : Type} {now : SimTime} {record : Record M}

theorem time (ordinary : record.Ordinary now) {due : SimTime} (isTime : record.time? = some due) :
    due = now := by
  cases record with
  | traced at' node name event write =>
      cases isTime
      cases event with
      | timerFired timer => exact ordinary.elim
      | _ => exact ordinary
  | called at' node input write =>
      cases isTime
      exact ordinary
  | performed at' node effect =>
      cases isTime
      exact ordinary
  | _ => contradiction

theorem taken (ordinary : record.Ordinary now) : record.taken? = none := by
  cases record with
  | took item => exact ordinary.elim
  | _ => rfl

theorem not_queued (ordinary : record.Ordinary now) (queuedAt : SimTime)
    (fault : Scheduled Event) : record ≠ .queued queuedAt fault := by
  rintro rfl
  exact ordinary

theorem not_took (ordinary : record.Ordinary now) (item : Scheduled Event) :
    record ≠ .took item := by
  rintro rfl
  exact ordinary

theorem faultsAhead (ordinary : record.Ordinary now) {past : List (Record M)}
    (applied : ∀ due seq fault, past.getLast? ≠ some (.took ⟨due, seq, .fault fault⟩)) :
    FaultsAhead past record where
  event item same := absurd same (ordinary.not_took item)
  timer := by
    rintro due node name timer write rfl
    exact ordinary.elim
  applied due seq fault isLast := absurd isLast (applied due seq fault)

end Record.Ordinary

theorem Sim.Written.ordinary {M : Type} {now : SimTime} {record : Record M}
    (written : Sim.Written now record) : record.Ordinary now := by
  cases written <;> trivial

namespace Sim

variable {W : World} {sim next : Sim W}

/-! ## What happens within an instant -/

/-- What happens within an instant: lines are written, and things are queued and timers set, none
of them for the past. -/
structure Grows (sim next : Sim W) : Prop where
  now : next.now = sim.now
  budget : next.budget = sim.budget
  log : ∃ extra, next.log = sim.log ++ extra ∧ ∀ record ∈ extra, record.Ordinary sim.now
  queue : Gains sim.now sim.queue next.queue
  timers : ∀ timer ∈ W.timers.live next.timers,
    timer ∈ W.timers.live sim.timers ∨ sim.now ≤ timer.2

namespace Grows

theorem refl (sim : Sim W) : Grows sim sim :=
  ⟨rfl, rfl, ⟨[], (List.append_nil _).symm, by simp⟩, .refl, fun _ member => .inl member⟩

theorem trans {last : Sim W} (first : Grows sim next) (second : Grows next last) :
    Grows sim last where
  now := second.now.trans first.now
  budget := second.budget.trans first.budget
  log := by
    rcases first.log with ⟨before, isBefore, ordinary⟩
    rcases second.log with ⟨behind, isBehind, goesOn⟩
    refine ⟨before ++ behind, by rw [isBehind, isBefore, List.append_assoc], ?_⟩
    intro record member
    rcases List.mem_append.mp member with early | late
    · exact ordinary record early
    · rw [← first.now]
      exact goesOn record late
  queue := by
    have second := second.queue
    rw [first.now] at second
    exact first.queue.trans second
  timers := by
    intro timer member
    rcases second.timers timer member with earlier | later
    · exact first.timers timer earlier
    · rw [first.now] at later
      exact .inr later

/-- One more thing is written down. -/
theorem written (sim : Sim W) (nodes : List (SimNode W)) (timers : W.timers.Queue)
    (record : Record W.Message) (ordinary : record.Ordinary sim.now)
    (kept : ∀ timer ∈ W.timers.live timers,
      timer ∈ W.timers.live sim.timers ∨ sim.now ≤ timer.2) :
    Grows sim { sim with nodes, timers, log := sim.log ++ [record] } where
  now := rfl
  budget := rfl
  log := ⟨[record], rfl, by simpa using ordinary⟩
  queue := .refl
  timers := kept

/-- A line of the trace is written. -/
theorem traced (sim : Sim W) (node : NodeId) {event : TraceEvent} (write : Option Nat)
    (notFired : ∀ timer, event ≠ .timerFired timer) : Grows sim (sim.record node event write) := by
  apply written sim sim.nodes sim.timers
  · cases event with
    | timerFired timer => exact absurd rfl (notFired timer)
    | _ => rfl
  · exact fun _ member => .inl member

end Grows

theorem Posts.grows (posts : Posts sim next) : Grows sim next where
  now := posts.now
  budget := posts.budget
  log := by
    rcases posts.log with ⟨extra, isLog, written⟩
    exact ⟨extra, isLog, fun record member => (written record member).ordinary⟩
  queue := posts.queue
  timers := by
    rw [posts.timers]
    exact fun _ member => .inl member

theorem grows_performOne (node : NodeId) (sim : Sim W) (effect : Effect W.Message) :
    Grows sim (performOne node sim effect) := by
  have wanted := Grows.written sim sim.nodes sim.timers (.performed sim.now node effect) rfl
    fun _ member => .inl member
  apply wanted.trans
  cases effect with
  | send receiver message => exact (posts_send _ node receiver message).grows
  | setTimer timer after =>
      apply Grows.written
      · rfl
      · intro armed member
        rw [W.timers.live_set, mem_armed] at member
        rcases member with rfl | ⟨isLive, -⟩
        · exact .inr (sim.now.le_saturatingAdd _)
        · exact .inl isLive
  | clearTimer timer =>
      apply Grows.written
      · rfl
      · intro armed member
        rw [W.timers.live_clear, List.mem_filter] at member
        exact .inl member.1
  | note what => exact Grows.traced _ node none (by simp)

theorem grows_hand (sim : Sim W) (node : NodeId) (input : Input W.Message) (write : Option Nat) :
    Grows sim (sim.hand node input write) := by
  apply hand_induction (Grows sim)
  · exact fun _ => .refl sim
  · intro nodes _ _
    exact .written sim nodes sim.timers _ rfl fun _ member => .inl member
  · intro reached effect _ _ grows
    exact grows.trans (grows_performOne node reached effect)

theorem grows_takeEffect (sim : Sim W) (fault : Fault) : Grows sim (sim.takeEffect fault) := by
  have forgotten : ∀ (node : NodeId) (timer : (NodeId × TimerId) × SimTime),
      timer ∈ W.timers.live (W.timers.forgetMatching sim.timers fun key => key.1 = node) →
        timer ∈ W.timers.live sim.timers := by
    intro node timer member
    rw [W.timers.live_forgetMatching] at member
    exact (List.mem_filter.mp member).1
  cases fault with
  | killNode node =>
      exact ⟨rfl, rfl, ⟨[], (List.append_nil _).symm, by simp⟩, .refl,
        fun timer member => .inl (forgotten node timer member)⟩
  | cut a b => exact (posts_cutBetween sim a b true).grows
  | heal a b => exact (posts_cutBetween sim a b false).grows
  | setLinkPolicy sender receiver policy => exact (Posts.unqueued sim _ _ _ _ _).grows
  | timerSkew node perMille =>
      exact ⟨rfl, rfl, ⟨[], (List.append_nil _).symm, by simp⟩, .refl, fun _ member => .inl member⟩
  | reconnect a b => exact (posts_applyReconnect sim a b).grows
  | restartNode node =>
      apply Grows.trans _ (posts_restart sim node).grows
      exact ⟨rfl, rfl, ⟨[], (List.append_nil _).symm, by simp⟩, .refl,
        fun timer member => .inl (forgotten node timer member)⟩
  | stopReading node =>
      simp only [takeEffect]
      split
      · exact .refl sim
      · exact (Posts.unqueued sim _ _ _ _ _).grows
  | resumeReading node => exact (posts_applyResume sim node).grows

/-- What an event that is no fault comes to. -/
theorem grows_handle (sim : Sim W) {event : Event} (noFault : event.isFault = false) :
    Grows sim (sim.handle event) := by
  cases event with
  | deliver sender receiver bytes connection write =>
      simp only [handle, handleDelivery]
      split
      · split
        · exact .traced sim _ _ (by simp)
        · exact (Grows.traced sim _ _ (by simp)).trans (grows_hand _ _ _ _)
      · exact .traced sim _ _ (by simp)
  | fault fault => contradiction
  | breaks node peer write =>
      exact (Grows.traced sim _ _ (by simp)).trans (grows_hand _ _ _ _)
  | notify node notice =>
      cases notice with
      | restarted incarnation =>
          exact (Grows.traced sim _ _ (by simp)).trans (grows_hand _ _ _ _)
      | connected peer => exact grows_hand _ _ _ _
      | writeStalled peer write => exact grows_hand _ _ _ _
      | writeFlushed peer write => exact grows_hand _ _ _ _

theorem grows_start (sim : Sim W) : Grows sim sim.start := by
  unfold start
  split
  · exact .refl sim
  · have steps : ∀ (ids : List NodeId) (reached : Sim W), Grows sim reached → Grows sim (ids.foldl
        (fun sim id => (sim.record id .started none).hand id .started none) reached) := by
      intro ids
      induction ids with
      | nil => exact fun _ grows => grows
      | cons id rest ih =>
          intro reached grows
          exact ih _ (grows.trans ((Grows.traced reached _ _ (by simp)).trans (grows_hand _ _ _ _)))
    exact steps _ _
      ⟨rfl, rfl, ⟨[], (List.append_nil _).symm, by simp⟩, .refl, fun _ member => .inl member⟩

/-! ## The invariant -/

/-- The log is in order so far, and what is queued can only go on in order. -/
structure Ordered (sim : Sim W) : Prop where
  times : (sim.log.filterMap Record.time?).Pairwise (· ≤ ·)
  past : ∀ due ∈ sim.log.filterMap Record.time?, due ≤ sim.now
  items : ∀ item ∈ sim.queue.heap, sim.now ≤ item.due
  timers : ∀ timer ∈ W.timers.live sim.timers, sim.now ≤ timer.2
  taken : (sim.log.filterMap Record.taken?).Pairwise Scheduled.Before
  behind : ∀ item ∈ sim.log.filterMap Record.taken?, item.due ≤ sim.now ∧
    item.seq < sim.queue.nextSeq ∧ ∀ other ∈ sim.queue.heap, item.Before other
  queued : ∀ queuedAt fault, .queued queuedAt fault ∈ sim.log →
    fault.payload.isFault = true ∧ (.took fault ∈ sim.log ∨ fault ∈ sim.queue.heap)
  first : ∀ queuedAt fault, .queued queuedAt fault ∈ sim.log → queuedAt < fault.due →
    fault ∈ sim.queue.heap → ∀ item ∈ sim.queue.heap, item.due = fault.due →
      item.seq < fault.seq → item.payload.isFault = true
  ahead : Justified FaultsAhead sim.log
  applied : ∀ due seq fault, sim.log.getLast? ≠ some (.took ⟨due, seq, .fault fault⟩)

/-- Ordinary records leave the log in order. -/
theorem ordered_records {extra : List (Record W.Message)} (ordered : Ordered sim)
    (ordinary : ∀ record ∈ extra, record.Ordinary sim.now) :
    Ordered { sim with log := sim.log ++ extra } := by
  induction extra generalizing sim with
  | nil =>
      rw [List.append_nil]
      exact ordered
  | cons record rest ih =>
      have one := ordinary record List.mem_cons_self
      have timeless : ∀ due ∈ [record].filterMap Record.time?, due = sim.now := by
        intro due member
        rcases List.mem_filterMap.mp member with ⟨other, isIn, isTime⟩
        rw [List.mem_singleton] at isIn
        rw [isIn] at isTime
        exact one.time isTime
      have noItem : [record].filterMap Record.taken? = [] := by
        simp [one.taken]
      have stays : ∀ other, other ∈ sim.log ++ [record] ↔ other ∈ sim.log ∨ other = record := by
        simp
      have written : Ordered { sim with log := sim.log ++ [record] } := by
        constructor
        · rw [List.filterMap_append]
          refine List.pairwise_append.mpr ⟨ordered.times, ?_, ?_⟩
          · refine List.pairwise_of_forall_mem_list ?_
            intro due isDue other isOther
            rw [timeless due isDue, timeless other isOther]
          · intro due isDue other isOther
            rw [timeless other isOther]
            exact ordered.past due isDue
        · intro due member
          rw [List.filterMap_append, List.mem_append] at member
          rcases member with early | now
          · exact ordered.past due early
          · exact (timeless due now).le
        · exact ordered.items
        · exact ordered.timers
        · rw [List.filterMap_append, noItem, List.append_nil]
          exact ordered.taken
        · rw [List.filterMap_append, noItem, List.append_nil]
          exact ordered.behind
        · intro queuedAt fault member
          rcases (stays _).mp member with earlier | same
          · rcases ordered.queued queuedAt fault earlier with ⟨isFault, took | waits⟩
            · exact ⟨isFault, .inl ((stays _).mpr (.inl took))⟩
            · exact ⟨isFault, .inr waits⟩
          · exact absurd same.symm (one.not_queued queuedAt fault)
        · intro queuedAt fault member
          rcases (stays _).mp member with earlier | same
          · exact ordered.first queuedAt fault earlier
          · exact absurd same.symm (one.not_queued queuedAt fault)
        · exact ordered.ahead.concat (one.faultsAhead ordered.applied)
        · intro due seq fault isLast
          rw [List.getLast?_concat, Option.some.injEq] at isLast
          exact one.not_took _ isLast
      have more := ih written fun other member => ordinary other (List.mem_cons_of_mem _ member)
      simpa only [List.append_assoc, List.cons_append, List.nil_append] using more

theorem Ordered.grows (ordered : Ordered sim) (grows : Grows sim next) : Ordered next := by
  rcases grows.log with ⟨extra, isLog, ordinary⟩
  have logged := ordered_records ordered ordinary
  rw [← isLog] at logged
  have isFault : ∀ queuedAt fault, .queued queuedAt fault ∈ next.log →
      fault ∈ next.queue.heap → fault ∈ sim.queue.heap := by
    intro queuedAt fault queued member
    rcases grows.queue.gained fault member with stood | ⟨-, -, noFault⟩
    · exact stood
    · rw [(logged.queued queuedAt fault queued).1] at noFault
      contradiction
  constructor
  · exact logged.times
  · rw [grows.now]
    exact logged.past
  · intro item member
    rw [grows.now]
    rcases grows.queue.gained item member with stood | ⟨later, -⟩
    · exact ordered.items item stood
    · exact later
  · intro timer member
    rw [grows.now]
    rcases grows.timers timer member with stood | later
    · exact ordered.timers timer stood
    · exact later
  · exact logged.taken
  · intro item member
    rcases logged.behind item member with ⟨due, issued, before⟩
    rw [grows.now]
    refine ⟨due, lt_of_lt_of_le issued grows.queue.seq, ?_⟩
    intro other isOther
    rcases grows.queue.gained other isOther with stood | ⟨later, newer, -⟩
    · exact before other stood
    · rcases (due.trans later).lt_or_eq with earlier | same
      · exact .inl earlier
      · exact .inr ⟨same, lt_of_lt_of_le issued newer⟩
  · intro queuedAt fault member
    rcases logged.queued queuedAt fault member with ⟨isFault, took | waits⟩
    · exact ⟨isFault, .inl took⟩
    · exact ⟨isFault, .inr (grows.queue.kept fault waits)⟩
  · intro queuedAt fault queued ahead waits item member sameDue newer
    have stood := isFault queuedAt fault queued waits
    rcases grows.queue.gained item member with wasThere | ⟨-, behind, -⟩
    · exact logged.first queuedAt fault queued ahead stood item wasThere sameDue newer
    · exact absurd (lt_trans newer (sim.queue.issued fault stood)) (not_lt.mpr behind)
  · exact logged.ahead
  · exact logged.applied

/-- No fault that was queued ahead of its instant, and is due by now, still waits. -/
def Weathered (sim : Sim W) : Prop :=
  ∀ queuedAt fault, .queued queuedAt fault ∈ sim.log → queuedAt < fault.due →
    fault.due ≤ sim.now → fault ∉ sim.queue.heap

theorem Ordered.caughtUp (ordered : Ordered sim) (weathered : Weathered sim) :
    CaughtUp sim.log sim.now := by
  intro queuedAt fault queued ahead due
  rcases (ordered.queued queuedAt fault queued).2 with took | waits
  · exact took
  · exact absurd waits (weathered queuedAt fault queued ahead due)

theorem Weathered.grows (weathered : Weathered sim) (ordered : Ordered sim)
    (grows : Grows sim next) : Weathered next := by
  rcases grows.log with ⟨extra, isLog, ordinary⟩
  intro queuedAt fault queued ahead due waits
  rw [isLog, List.mem_append] at queued
  rw [grows.now] at due
  rcases queued with earlier | later
  · rcases grows.queue.gained fault waits with stood | ⟨-, -, noFault⟩
    · exact weathered queuedAt fault earlier ahead due stood
    · rw [(ordered.queued queuedAt fault earlier).1] at noFault
      contradiction
  · exact absurd rfl ((ordinary _ later).not_queued queuedAt fault)

/-! ## Rounds -/

/-- A timer fires. -/
theorem ordered_fire {key : NodeId × TimerId} (ordered : Ordered sim) (weathered : Weathered sim) :
    Ordered (sim.fire key) ∧ Weathered (sim.fire key) := by
  have fired : Ordered (sim.record key.1 (.timerFired key.2) none) := by
    constructor
    · simp only [record, List.filterMap_append]
      refine List.pairwise_append.mpr ⟨ordered.times, List.pairwise_singleton _ _, ?_⟩
      intro due isDue other isOther
      rw [List.mem_singleton.mp isOther]
      exact ordered.past due isDue
    · intro due member
      simp only [record, List.filterMap_append, List.mem_append] at member
      rcases member with early | now
      · exact ordered.past due early
      · exact (List.mem_singleton.mp now).le
    · exact ordered.items
    · exact ordered.timers
    · simp only [record, List.filterMap_append]
      exact (List.append_nil _).symm ▸ ordered.taken
    · simp only [record, List.filterMap_append]
      exact (List.append_nil (sim.log.filterMap Record.taken?)).symm ▸ ordered.behind
    · intro queuedAt fault member
      simp only [record, List.mem_append, List.mem_singleton, reduceCtorEq, or_false] at member ⊢
      exact ordered.queued queuedAt fault member
    · intro queuedAt fault member
      simp only [record, List.mem_append, List.mem_singleton, reduceCtorEq, or_false] at member
      exact ordered.first queuedAt fault member
    · apply ordered.ahead.concat
      refine ⟨by simp, ?_, fun due seq fault isLast => absurd isLast (ordered.applied due seq fault)⟩
      rintro due node name timer write same
      cases same
      exact ordered.caughtUp weathered
    · intro due seq fault isLast
      simp [record] at isLast
  have same : Weathered (sim.record key.1 (.timerFired key.2) none) := by
    intro queuedAt fault member
    simp only [record, List.mem_append, List.mem_singleton, reduceCtorEq, or_false] at member
    exact weathered queuedAt fault member
  have grows := grows_hand (sim.record key.1 (.timerFired key.2) none) key.1 (.timer key.2) none
  exact ⟨fired.grows grows, same.grows fired grows⟩

theorem ordered_batch {keys : List (NodeId × TimerId)} (ordered : Ordered sim)
    (weathered : Weathered sim) : Ordered (keys.foldl fire sim) := by
  induction keys generalizing sim with
  | nil => exact ordered
  | cons key rest ih =>
      have both : Ordered (sim.fire key) ∧ Weathered (sim.fire key) :=
        ordered_fire ordered weathered
      exact ih both.1 both.2

/-- The clock goes on to the next instant. -/
theorem Ordered.goOn {instant : SimTime} {timers : W.timers.Queue} (ordered : Ordered sim)
    (isNext : sim.nextInstant = some instant)
    (stays : ∀ timer ∈ W.timers.live timers, timer ∈ W.timers.live sim.timers) :
    Ordered { sim with timers, now := instant } := by
  rcases nextInstant_le isNext with ⟨early, soon⟩
  have later : sim.now ≤ instant := by
    rcases sim.exists_due_of_nextInstant isNext with ⟨timer, member, same⟩ | ⟨item, rest, held, same⟩
    · rw [← same]
      exact ordered.timers timer member
    · rw [← same]
      exact ordered.items item (by rw [held]; exact List.mem_cons_self)
  refine ⟨ordered.times, ?_, soon, ?_, ordered.taken, ?_, ordered.queued, ordered.first,
    ordered.ahead, ordered.applied⟩
  · exact fun due member => (ordered.past due member).trans later
  · exact fun timer member => early timer (stays timer member)
  · intro item member
    rcases ordered.behind item member with ⟨due, issued, before⟩
    exact ⟨due.trans later, issued, before⟩

/-- The first event is taken, and applied there and then if it is a fault. -/
theorem ordered_took {item : Scheduled Event} {queue : EventQueue Event}
    (extra : List (Record W.Message)) (ordered : Ordered sim)
    (popped : sim.queue.pop = some (item, queue)) (isNow : sim.now = item.due)
    (isExtra : item.payload.isFault = false ∧ extra = [] ∨
      ∃ fault, item.payload = .fault fault ∧ extra = [.applied fault])
    (clear : item.payload.isFault = false → CaughtUp sim.log item.due) :
    Ordered { sim with queue, log := sim.log ++ .took item :: extra } := by
  rcases EventQueue.pop_eq_some popped with ⟨isHeap, nextSeq, before⟩
  have timeless : (.took item :: extra).filterMap Record.time? = [] := by
    rcases isExtra with ⟨-, rfl⟩ | ⟨fault, -, rfl⟩ <;> rfl
  have one : (.took item :: extra).filterMap Record.taken? = [item] := by
    rcases isExtra with ⟨-, rfl⟩ | ⟨fault, -, rfl⟩ <;> rfl
  have isQueued : ∀ queuedAt fault, .queued queuedAt fault ∈ sim.log ++ .took item :: extra →
      .queued queuedAt fault ∈ sim.log := by
    intro queuedAt fault member
    rcases isExtra with ⟨-, rfl⟩ | ⟨fault, -, rfl⟩ <;> simpa using member
  have inHeap : ∀ other, other ∈ sim.queue.heap ↔ other = item ∨ other ∈ queue.heap := by
    intro other
    rw [isHeap, List.mem_cons]
  constructor
  · rw [List.filterMap_append, timeless, List.append_nil]
    exact ordered.times
  · rw [List.filterMap_append, timeless, List.append_nil]
    exact ordered.past
  · exact fun other member => ordered.items other ((inHeap other).mpr (.inr member))
  · exact ordered.timers
  · rw [List.filterMap_append, one]
    refine List.pairwise_append.mpr ⟨ordered.taken, List.pairwise_singleton _ _, ?_⟩
    intro earlier member other isItem
    rw [List.mem_singleton.mp isItem]
    exact (ordered.behind earlier member).2.2 item ((inHeap item).mpr (.inl rfl))
  · intro earlier member
    rw [List.filterMap_append, one, List.mem_append, List.mem_singleton] at member
    rw [nextSeq]
    rcases member with wasTaken | rfl
    · rcases ordered.behind earlier wasTaken with ⟨due, issued, first⟩
      exact ⟨due, issued, fun other isOther => first other ((inHeap other).mpr (.inr isOther))⟩
    · exact ⟨isNow.ge, sim.queue.issued earlier ((inHeap earlier).mpr (.inl rfl)), before⟩
  · intro queuedAt fault member
    rcases ordered.queued queuedAt fault (isQueued queuedAt fault member) with ⟨isFault, took | waits⟩
    · exact ⟨isFault, .inl (List.mem_append_left _ took)⟩
    · rcases (inHeap fault).mp waits with rfl | stays
      · exact ⟨isFault, .inl (by simp)⟩
      · exact ⟨isFault, .inr stays⟩
  · intro queuedAt fault queued ahead waits other member
    exact ordered.first queuedAt fault (isQueued queuedAt fault queued) ahead
      ((inHeap fault).mpr (.inr waits)) other ((inHeap other).mpr (.inr member))
  · rw [List.append_cons]
    have took : Justified FaultsAhead (sim.log ++ [.took item]) := by
      apply ordered.ahead.concat
      refine ⟨?_, by simp, fun due seq fault isLast =>
        absurd isLast (ordered.applied due seq fault)⟩
      rintro other same noFault
      cases same
      exact clear noFault
    rcases isExtra with ⟨-, rfl⟩ | ⟨fault, isFault, rfl⟩
    · rw [List.append_nil]
      exact took
    · apply took.concat
      refine ⟨by simp, by simp, ?_⟩
      intro due seq other isLast
      rw [List.getLast?_concat, Option.some.injEq, Record.took.injEq] at isLast
      rw [isLast] at isFault
      cases isFault
      rfl
  · intro due seq fault isLast
    rw [List.append_cons] at isLast
    rcases isExtra with ⟨noFault, rfl⟩ | ⟨other, -, rfl⟩
    · rw [List.append_nil, List.getLast?_concat, Option.some.injEq, Record.took.injEq] at isLast
      rw [isLast] at noFault
      contradiction
    · rw [List.getLast?_concat] at isLast
      simp at isLast

/-- A fault that waits for the instant of an event that is none comes behind it. -/
theorem Ordered.clear {item : Scheduled Event} (ordered : Ordered sim)
    (member : item ∈ sim.queue.heap)
    (isFirst : ∀ other ∈ sim.queue.heap, other = item ∨ item.Before other)
    (noFault : item.payload.isFault = false) {queuedAt : SimTime} {fault : Scheduled Event}
    (queued : .queued queuedAt fault ∈ sim.log) (ahead : queuedAt < fault.due)
    (due : fault.due ≤ item.due) : fault ∉ sim.queue.heap := by
  intro waits
  have isFault := (ordered.queued queuedAt fault queued).1
  rcases isFirst fault waits with rfl | earlier | ⟨sameDue, newer⟩
  · rw [isFault] at noFault
    contradiction
  · exact absurd earlier (not_lt.mpr due)
  · rw [ordered.first queuedAt fault queued ahead waits item member sameDue newer] at noFault
    contradiction

theorem ordered_turned {instant : SimTime} (ordered : Ordered sim)
    (isNext : sim.nextInstant = some instant) (turned : Turned sim instant next) :
    Ordered next := by
  cases turned with
  | took item queue timers popped due kept =>
      have goes : Ordered { sim with timers, now := instant } :=
        ordered.goOn isNext fun timer member => kept ▸ member
      rcases EventQueue.pop_eq_some popped with ⟨isHeap, -, before⟩
      cases payload : item.payload with
      | fault fault =>
          have took := ordered_took [.applied fault] goes popped due.symm
            (.inr ⟨fault, payload, rfl⟩) (by simp [payload, Event.isFault])
          apply took.grows
          rw [List.append_cons]
          exact (Grows.traced _ _ _ (by simp)).trans (grows_takeEffect _ fault)
      | _ =>
          have noFault : item.payload.isFault = false := by
            rw [payload]
            rfl
          have took := ordered_took [] goes popped due.symm (.inl ⟨noFault, rfl⟩) (by
            intro _
            rw [due]
            apply goes.caughtUp
            intro queuedAt fault queued ahead isDue
            rw [← due] at isDue
            apply goes.clear _ _ noFault queued ahead isDue
            · rw [isHeap]
              exact List.mem_cons_self
            · intro other member
              rw [isHeap, List.mem_cons] at member
              exact member.imp_right (before other))
          rw [payload] at noFault
          exact took.grows (grows_handle _ noFault)
  | fired keys timers _ _ noFault _ others =>
      have goes : Ordered { sim with timers, now := instant } := by
        apply ordered.goOn isNext
        intro timer member
        rw [others] at member
        exact (List.mem_filter.mp member).1
      apply ordered_batch goes
      intro queuedAt fault queued ahead isDue waits
      rcases nextInstant_le isNext with ⟨-, soon⟩
      cases held : sim.queue.heap with
      | nil =>
          rw [held] at waits
          contradiction
      | cons item rest =>
          have isFirst : ∀ other ∈ sim.queue.heap, other = item ∨ item.Before other := by
            intro other member
            have inOrder := sim.queue.ordered
            rw [held] at member inOrder
            exact (List.mem_cons.mp member).imp_right ((List.pairwise_cons.mp inOrder).1 other)
          have atHead : item ∈ sim.queue.heap := by
            rw [held]
            exact List.mem_cons_self
          have itemDue : item.due = instant := by
            apply le_antisymm _ (soon item atHead)
            rcases isFirst fault waits with rfl | earlier
            · exact isDue
            · exact earlier.due_le.trans isDue
          have itemNoFault : item.payload.isFault = false := by
            simpa [faultFirst, EventQueue.peek, EventQueue.nextDeadline, held, itemDue] using noFault
          rw [← itemDue] at isDue
          exact ordered.clear atHead isFirst itemNoFault queued ahead isDue waits

/-! ## Moves -/

/-- No fault is queued into the past, and none behind something that is no fault and is due at
the same instant. -/
def QueuedAhead (sim : Sim W) : Move W → Prop
  | .enqueue due _ => sim.now ≤ due ∧
      (sim.now < due → ∀ item ∈ sim.queue.heap, item.due = due → item.payload.isFault = true)
  | _ => True

theorem ordered_enqueue {due : SimTime} (ordered : Ordered sim) (fault : Fault)
    (queuedAhead : sim.QueuedAhead (.enqueue due fault)) : Ordered (sim.enqueue due fault) := by
  rcases queuedAhead with ⟨later, behindFaults⟩
  have noTime : (sim.log ++ [Record.queued sim.now ⟨due, sim.queue.nextSeq, .fault fault⟩]).filterMap
      Record.time? = sim.log.filterMap Record.time? := by
    rw [List.filterMap_append]
    exact List.append_nil _
  have noItem : (sim.log ++ [Record.queued sim.now ⟨due, sim.queue.nextSeq, .fault fault⟩]).filterMap
      Record.taken? = sim.log.filterMap Record.taken? := by
    rw [List.filterMap_append]
    exact List.append_nil _
  unfold enqueue
  constructor
  · rw [noTime]
    exact ordered.times
  · rw [noTime]
    exact ordered.past
  · intro item member
    rcases EventQueue.mem_scheduleAt.mp member with stood | rfl
    · exact ordered.items item stood
    · exact later
  · exact ordered.timers
  · rw [noItem]
    exact ordered.taken
  · rw [noItem]
    intro item member
    rcases ordered.behind item member with ⟨isDue, issued, before⟩
    refine ⟨isDue, Nat.lt_succ_of_lt issued, ?_⟩
    intro other isOther
    rcases EventQueue.mem_scheduleAt.mp isOther with stood | rfl
    · exact before other stood
    · rcases (isDue.trans later).lt_or_eq with earlier | same
      · exact .inl earlier
      · exact .inr ⟨same, issued⟩
  · intro queuedAt other member
    simp only [List.mem_append, List.mem_singleton, Record.queued.injEq, reduceCtorEq,
      or_false] at member ⊢
    rcases member with earlier | ⟨-, rfl⟩
    · rcases ordered.queued queuedAt other earlier with ⟨isFault, took | waits⟩
      · exact ⟨isFault, .inl took⟩
      · exact ⟨isFault, .inr (EventQueue.mem_scheduleAt.mpr (.inl waits))⟩
    · exact ⟨rfl, .inr (EventQueue.mem_scheduleAt.mpr (.inr rfl))⟩
  · intro queuedAt other queued ahead waits item member sameDue newer
    simp only [List.mem_append, List.mem_singleton, Record.queued.injEq] at queued
    rcases EventQueue.mem_scheduleAt.mp member with stood | rfl
    · rcases queued with earlier | ⟨rfl, rfl⟩
      · rcases EventQueue.mem_scheduleAt.mp waits with wasThere | rfl
        · exact ordered.first queuedAt other earlier ahead wasThere item stood sameDue newer
        · rcases (ordered.queued _ _ earlier).2 with took | wasThere
          · have issued := (ordered.behind _ (List.mem_filterMap.mpr ⟨_, took, rfl⟩)).2.1
            exact absurd issued (lt_irrefl _)
          · exact absurd (sim.queue.issued _ wasThere) (lt_irrefl _)
      · exact behindFaults ahead item stood sameDue
    · rfl
  · apply ordered.ahead.concat
    exact ⟨by simp, by simp, fun due seq fault isLast =>
      absurd isLast (ordered.applied due seq fault)⟩
  · intro due seq fault isLast
    simp at isLast

theorem ordered_move (ordered : Ordered sim) (move : Move W) (proper : sim.Proper move)
    (queuedAhead : sim.QueuedAhead move) : Ordered (sim.move move) := by
  cases move with
  | enqueue due fault => exact ordered_enqueue ordered fault queuedAhead
  | setPartitioned sender receiver partitioned =>
      apply ordered.grows
      exact ⟨rfl, rfl, ⟨[.parted sender receiver partitioned], rfl, by simp [Record.Ordinary]⟩, .refl,
        fun _ member => .inl member⟩
  | start => exact ordered.grows sim.grows_start
  | inject sender receiver message =>
      exact ordered.grows ((Grows.traced sim _ _ (by simp)).trans (grows_hand _ _ _ _))
  | turn =>
      simp only [Sim.move]
      cases isNext : sim.nextInstant with
      | none => exact ordered
      | some instant => exact ordered_turned ordered isNext (turn_turned isNext).1
  | settle deadline =>
      simp only [Sim.move, Sim.settle]
      split
      · next later =>
          refine ⟨ordered.times, ?_, fun item member => (proper.2 item member).le,
            fun timer member => (proper.1 timer member).le, ordered.taken, ?_, ordered.queued,
            ordered.first, ordered.ahead, ordered.applied⟩
          · exact fun due member => (ordered.past due member).trans later.1.le
          · intro item member
            rcases ordered.behind item member with ⟨due, issued, before⟩
            exact ⟨due.trans later.1.le, issued, before⟩
      · exact ordered

theorem ordered_fresh (fresh : sim.Fresh) : Ordered sim := by
  have noLog := fresh.log
  have noQueue : sim.queue.heap = [] := by
    rw [fresh.queue]
    rfl
  have noTimers : W.timers.live sim.timers = [] := by
    rw [fresh.timers, W.timers.live_new]
  constructor
  all_goals simp [noLog, noQueue, noTimers, Justified.nil]

/-! ## Timers before deliveries -/

/-- An event that is no fault is taken only where no timer is due. -/
def TimersFirst (sim : Sim W) : Move W → Prop
  | .turn => ∀ item future, (sim.move .turn).log = sim.log ++ .took item :: future →
      item.payload.isFault = false → ∀ timer ∈ W.timers.live sim.timers, item.due < timer.2
  | _ => True

theorem timersFirst (sim : Sim W) (move : Move W) : sim.TimersFirst move := by
  cases move with
  | turn =>
      intro item future isLog noFault
      simp only [Sim.move] at isLog
      cases isNext : sim.nextInstant with
      | none => simp [isNext] at isLog
      | some instant =>
          simp only [isNext] at isLog
          rcases turn_turned isNext with ⟨turned, -⟩
          generalize (sim.turn instant).1 = next at isLog turned
          cases turned with
          | took taken queue timers _ due _ first =>
              rcases extends_handle ({ sim with
                timers, queue, now := instant, log := sim.log ++ [.took taken] } : Sim W)
                taken.payload with ⟨-, -, -, extra, isExtra⟩
              rw [isExtra] at isLog
              simp only [List.append_assoc, List.cons_append, List.nil_append,
                List.append_cancel_left_eq, List.cons.injEq, Record.took.injEq] at isLog
              rcases isLog with ⟨rfl, -⟩
              rcases first with isFault | late
              · rw [isFault] at noFault
                contradiction
              · rw [due]
                exact late
          | fired keys timers nonempty =>
              cases keys with
              | nil => exact absurd rfl nonempty
              | cons key rest =>
                  have one := extends_hand (({ sim with now := instant, timers } : Sim W).record key.1
                    (.timerFired key.2) none) key.1 (.timer key.2) none
                  rcases one.trans (extends_batch rest _) with ⟨-, -, -, extra, isExtra⟩
                  rw [List.foldl_cons, fire, isExtra] at isLog
                  simp [record] at isLog
  | _ => trivial

/-! ## How a loop ends -/

/-- A loop ends well, or has made as many rounds as the budget allows. -/
theorem rounds_ends (deadline : SimTime) (left : Nat) (sim : Sim W) :
    (rounds deadline left sim).1 = .ok () ∨
      ∃ instant ≤ deadline,
        (rounds deadline left sim).1 = .error (.stepBudgetExhausted sim.budget instant) ∧
          (turns deadline left sim).length = left := by
  induction left generalizing sim with
  | zero =>
      unfold rounds turns
      cases isNext : sim.nextInstant with
      | none => exact .inl rfl
      | some instant =>
          by_cases past : deadline < instant
          · simp [past]
          · simp only [past, if_false]
            exact .inr ⟨instant, not_lt.mp past, rfl, rfl⟩
  | succ left ih =>
      unfold rounds turns
      cases isNext : sim.nextInstant with
      | none => exact .inl rfl
      | some instant =>
          by_cases past : deadline < instant
          · simp [past]
          · simp only [past, if_false]
            rcases turn_turned isNext with ⟨turned, goesOn⟩
            have budget := (extends_turned turned).budget
            generalize sim.turn instant = both at goesOn budget
            rcases both with ⟨reached, flag⟩
            cases goesOn
            rcases ih reached with ended | ⟨late, early, exhausted, length⟩
            · exact .inl ended
            · refine .inr ⟨late, early, ?_, by rw [List.length_cons, length]⟩
              rw [← budget]
              exact exhausted

theorem runUntil_ends (deadline : SimTime) (sim : Sim W) :
    (sim.runUntil deadline).1 = .ok () ∨
      ∃ instant ≤ deadline,
        (sim.runUntil deadline).1 = .error (.stepBudgetExhausted sim.budget instant) ∧
          (turns deadline sim.budget sim.start).length = sim.budget := by
  have ends := rounds_ends deadline sim.budget sim.start
  unfold runUntil
  generalize rounds deadline sim.budget sim.start = looped at ends
  rcases looped with ⟨_ | _, reached⟩
  · rcases ends with ended | ⟨instant, early, exhausted, length⟩
    · contradiction
    · refine .inr ⟨instant, early, ?_, length⟩
      rw [← sim.grows_start.budget]
      exact exhausted
  · exact .inl rfl

theorem call_ends {each : Call W} {deadline : SimTime}
    (isDeadline : sim.deadlineOf each = some deadline) :
    (sim.call each).1 = .ok () ∨
      ∃ instant ≤ deadline,
        (sim.call each).1 = .error (.stepBudgetExhausted sim.budget instant) ∧
          (turns deadline sim.budget sim.start).length = sim.budget := by
  cases each with
  | runUntil _ =>
      cases isDeadline
      exact runUntil_ends _ sim
  | advance _ =>
      cases isDeadline
      exact runUntil_ends _ sim
  | _ => contradiction

/-- In every run in which no fault is queued into the past, or behind something else of its
instant, time does not go back, the faults of an instant come first and its due timers before its
deliveries, events are taken by instant and then in the order they were queued, and a loop ends
with nothing left to do by its deadline, or with its budget exhausted. -/
theorem events_in_order (seed : UInt64) (topology : List (Build W)) (sequence : List (Call W))
    (queuedAhead : Along (machine W) QueuedAhead (built W seed topology)
      ((built W seed topology).moves sequence)) :
    let sim := (built W seed topology).calls sequence
    ((sim.log.filterMap Record.time?).Pairwise (· ≤ ·) ∧
        ∀ due ∈ sim.log.filterMap Record.time?, due ≤ sim.now) ∧
      Justified FaultsAhead sim.log ∧
      Along (machine W) TimersFirst (built W seed topology)
        ((built W seed topology).moves sequence) ∧
      (sim.log.filterMap Record.taken?).Pairwise Scheduled.Before ∧
      ∀ earlier each deadline, sequence = earlier ++ [each] →
        ((built W seed topology).calls earlier).deadlineOf each = some deadline →
          let before := (built W seed topology).calls earlier
          (before.call each).1 = .ok () ∧ (∀ item ∈ sim.queue.heap, deadline < item.due) ∨
            ∃ instant ≤ deadline,
              (before.call each).1 = .error (.stepBudgetExhausted before.budget instant) ∧
                (turns deadline before.budget before.start).length = before.budget := by
  intro sim
  have ordered : Ordered sim := calls_induction Ordered (ordered_fresh (fresh_built seed topology))
    (fun _ move ordered proper queuedAhead => ordered_move ordered move proper queuedAhead)
    queuedAhead
  refine ⟨⟨ordered.times, ordered.past⟩, ordered.ahead, ?_, ordered.taken, ?_⟩
  · exact along_of_forall _ timersFirst _ _
  · intro earlier each deadline split isDeadline before
    have same : (before.call each).2 = sim := by
      simp only [before, sim, split, calls_append]
      rfl
    rcases call_ends isDeadline with ended | exhausted
    · left
      rw [← same]
      exact ⟨ended, (idle_of_call isDeadline ended).2⟩
    · exact .inr exhausted

end Sim

/-! ## A fault that is queued while the world runs -/

/-- One node, that sends itself a message over a stream link. -/
def looping : List (Sim.Build scripted) :=
  [.addNode ⟨text "a", fun
    | .started => [.send 0 (bytes "m")]
    | _ => []⟩,
    .linkOneWay 0 0 .stream { LinkPolicy.clean with latency := .constant 5 }]

/-- The world runs for a nanosecond, and then a fault is queued. -/
def killingCalls (due : Nat) : List (Sim.Call scripted) :=
  [.runUntil (SimTime.start.saturatingAdd 1),
    .schedule [(SimTime.start.saturatingAdd due, .killNode 0)],
    .runUntil (SimTime.start.saturatingAdd 10)]

theorem queuedAhead_looping :
    Along (Sim.machine scripted) Sim.QueuedAhead (Sim.built scripted 0 looping)
      ((Sim.built scripted 0 looping).moves (killingCalls 4)) := by
  change Along _ _ _ ([.start, .settle (SimTime.start.saturatingAdd 1),
    .enqueue (SimTime.start.saturatingAdd 4) (.killNode 0), .start, .turn, .turn,
    .settle (SimTime.start.saturatingAdd 10)] : List (Sim.Move scripted))
  refine ⟨trivial, trivial, ⟨by decide +kernel, fun _ => ?_⟩, trivial, trivial, trivial, trivial, trivial⟩
  have notDue : ∀ due ∈ ((Sim.built scripted 0 looping).calls
      [.runUntil (SimTime.start.saturatingAdd 1)]).queue.heap.map Scheduled.due,
        due ≠ SimTime.start.saturatingAdd 4 := by
    decide +kernel
  intro item member same
  exact absurd same (notDue _ (List.mem_map_of_mem member))

theorem faultsAhead_looping :
    Justified FaultsAhead ((Sim.built scripted 0 looping).calls (killingCalls 4)).log :=
  (Sim.events_in_order 0 looping (killingCalls 4) queuedAhead_looping).2.1

/-- A message that was sent earlier arrives before a fault that was queued for its instant. -/
theorem not_faultsAhead :
    ¬ Justified FaultsAhead ((Sim.built scripted 0 looping).calls (killingCalls 5)).log := by
  intro ahead
  have arrives := ahead
    (((Sim.built scripted 0 looping).calls (killingCalls 5)).log.take 6)
    (.took ⟨SimTime.start.saturatingAdd 5, 0, .deliver 0 0 (bytes "m") 0 0⟩)
    (((Sim.built scripted 0 looping).calls (killingCalls 5)).log.drop 7) rfl
  have took := arrives.event _ rfl rfl (SimTime.start.saturatingAdd 1)
    ⟨SimTime.start.saturatingAdd 5, 1, .fault (.killNode 0)⟩
    (List.mem_of_getElem? (i := 5) rfl) (by decide +kernel) (by decide +kernel)
  have none : (((Sim.built scripted 0 looping).calls (killingCalls 5)).log.take 6).filterMap
      Record.taken? = [] := rfl
  have taken := List.mem_filterMap (f := Record.taken?).mpr ⟨_, took, rfl⟩
  rw [none] at taken
  contradiction

end SipxClstr.Simulation
