import SipxClstr.Simulation.Run
import SipxClstr.Reactive.Journal
import Mathlib.Data.List.Nodup

/-!
# Timers

A timer is due at the instant its latest setting armed it for, and is due no more once it is
cleared, has fired, or its process is gone.  The log says all of it, and the queue of the kernel
agrees with the log as long as no node touches a timer that was taken from the queue together
with the one it is handling.
-/

namespace SipxClstr.Simulation

open SipxClstr.Sip Reactive Machine

/-! ## What a log says of the timers -/

/-- How fast each node's clock runs, and when each timer is due. -/
structure Pending where
  skew : NodeId → Option Nat
  due : NodeId × TimerId → Option SimTime

namespace Pending

def none : Pending where
  skew _ := .none
  due _ := .none

/-- Every timer of a node is forgotten. -/
def forget (pending : Pending) (node : NodeId) : Pending :=
  { pending with due := fun key => if key.1 = node then .none else pending.due key }

/-- What is pending when one more thing has happened. -/
def after {M : Type} (pending : Pending) : Record M → Pending
  | .performed now node (.setTimer timer after) =>
      { pending with
        due := Function.update pending.due (node, timer)
          (some (now.saturatingAdd (skewedBy (pending.skew node) after))) }
  | .performed _ node (.clearTimer timer) =>
      { pending with due := Function.update pending.due (node, timer) .none }
  | .traced _ node _ (.timerFired timer) _ =>
      { pending with due := Function.update pending.due (node, timer) .none }
  | .applied (.killNode node) => pending.forget node
  | .applied (.restartNode node) => pending.forget node
  | .applied (.timerSkew node perMille) =>
      { pending with skew := Function.update pending.skew node (some perMille) }
  | _ => pending

end Pending

/-- What a log leaves pending. -/
def pendingOf {M : Type} (log : List (Record M)) : Pending :=
  log.foldl Pending.after .none

@[simp]
theorem pendingOf_concat {M : Type} (log : List (Record M)) (record : Record M) :
    pendingOf (log ++ [record]) = (pendingOf log).after record := by
  rw [pendingOf, List.foldl_append]
  rfl

/-- A timer fires at the instant it is due, and its node is handed it there and then; and
nowhere else is a node handed a timer. -/
structure FiresDue {M : Type} (past : List (Record M)) (entry : Record M) : Prop where
  fired : ∀ due node name timer write, entry = .traced due node name (.timerFired timer) write →
    (pendingOf past).due (node, timer) = some due
  called : ∀ now node timer write, entry = .called now node (.timer timer) write →
    ∃ name, past.getLast? = some (.traced now node name (.timerFired timer) none)
  answered : ∀ due node name timer write,
    past.getLast? = some (.traced due node name (.timerFired timer) write) →
      entry = .called due node (.timer timer) none

/-- What has nothing to do with timers. -/
def Record.Untimed {M : Type} : Record M → Prop
  | .performed _ _ (.setTimer _ _) => False
  | .performed _ _ (.clearTimer _) => False
  | .traced _ _ _ (.timerFired _) _ => False
  | .called _ _ (.timer _) _ => False
  | .applied (.killNode _) => False
  | .applied (.restartNode _) => False
  | .applied (.timerSkew _ _) => False
  | _ => True

theorem Record.Untimed.after {M : Type} {record : Record M} (untimed : record.Untimed)
    (pending : Pending) : pending.after record = pending := by
  cases record with
  | performed now node effect =>
      cases effect with
      | setTimer timer after => exact untimed.elim
      | clearTimer timer => exact untimed.elim
      | _ => rfl
  | traced due node name event write =>
      cases event with
      | timerFired timer => exact untimed.elim
      | _ => rfl
  | applied fault =>
      cases fault with
      | killNode node => exact untimed.elim
      | restartNode node => exact untimed.elim
      | timerSkew node perMille => exact untimed.elim
      | _ => rfl
  | _ => rfl

theorem Sim.Written.untimed {M : Type} {now : SimTime} {record : Record M}
    (written : Sim.Written now record) : record.Untimed := by
  cases written <;> trivial

/-- The log does not end with a timer that fired and was not handed over. -/
def Answered {M : Type} (log : List (Record M)) : Prop :=
  ∀ due node name timer write,
    log.getLast? ≠ some (.traced due node name (.timerFired timer) write)

theorem Record.Untimed.answered {M : Type} {log : List (Record M)} {record : Record M}
    (untimed : record.Untimed) : Answered (log ++ [record]) := by
  intro due node name timer write isLast
  rw [List.getLast?_concat, Option.some.injEq] at isLast
  rw [isLast] at untimed
  exact untimed

theorem Record.Untimed.firesDue {M : Type} {past : List (Record M)} {record : Record M}
    (untimed : record.Untimed) (answered : Answered past) : FiresDue past record where
  fired := by
    rintro due node name timer write rfl
    exact untimed.elim
  called := by
    rintro now node timer write rfl
    exact untimed.elim
  answered due node name timer write isLast := absurd isLast (answered due node name timer write)

namespace Effect

/-- The effect sets this timer of the node, or clears it. -/
def Touches {M : Type} (node : NodeId) : Effect M → NodeId × TimerId → Prop
  | .setTimer timer _, key => key = (node, timer)
  | .clearTimer timer, key => key = (node, timer)
  | _, _ => False

end Effect

namespace Sim

variable {W : World} {sim next : Sim W} {batch : List (NodeId × TimerId)}

/-! ## The invariant -/

/-- The queue of the kernel holds what the log leaves pending, but for the timers of a batch
that was taken at this instant and are still to fire. -/
structure Timed (sim : Sim W) (batch : List (NodeId × TimerId)) : Prop where
  skew : (pendingOf sim.log).skew = sim.skew
  due : ∀ key due, (pendingOf sim.log).due key = some due ↔
    (key, due) ∈ W.timers.live sim.timers ∨ key ∈ batch ∧ due = sim.now
  apart : ∀ key ∈ batch, ∀ due, (key, due) ∉ W.timers.live sim.timers
  owners : ∀ key due, (pendingOf sim.log).due key = some due → sim.Runs key.1
  ahead : ∀ timer ∈ W.timers.live sim.timers, sim.now ≤ timer.2
  fires : Justified FiresDue sim.log
  answered : Answered sim.log

/-- Something happens that has nothing to do with timers. -/
theorem Timed.untimed (timed : Timed sim batch) {record : Record W.Message}
    (untimed : record.Untimed) (timers : next.timers = sim.timers) (skew : next.skew = sim.skew)
    (now : next.now = sim.now) (runs : ∀ node, sim.Runs node → next.Runs node)
    (log : next.log = sim.log ++ [record]) : Timed next batch where
  skew := by
    rw [log, pendingOf_concat, untimed.after, skew]
    exact timed.skew
  due key due := by
    rw [log, pendingOf_concat, untimed.after, timers, now]
    exact timed.due key due
  apart := by
    rw [timers]
    exact timed.apart
  owners key due isDue := by
    rw [log, pendingOf_concat, untimed.after] at isDue
    exact runs _ (timed.owners key due isDue)
  ahead := by
    rw [timers, now]
    exact timed.ahead
  fires := by
    rw [log]
    exact timed.fires.concat (untimed.firesDue timed.answered)
  answered := by
    rw [log]
    exact untimed.answered

/-- Nothing happens that a timer notices. -/
theorem Timed.same (timed : Timed sim batch) (timers : next.timers = sim.timers)
    (skew : next.skew = sim.skew) (now : next.now = sim.now)
    (runs : ∀ node, sim.Runs node → next.Runs node) (log : next.log = sim.log) :
    Timed next batch where
  skew := by
    rw [log, skew]
    exact timed.skew
  due key due := by
    rw [log, timers, now]
    exact timed.due key due
  apart := by
    rw [timers]
    exact timed.apart
  owners key due isDue := by
    rw [log] at isDue
    exact runs _ (timed.owners key due isDue)
  ahead := by
    rw [timers, now]
    exact timed.ahead
  fires := by
    rw [log]
    exact timed.fires
  answered := by
    rw [log]
    exact timed.answered

theorem Timed.record (timed : Timed sim batch) {record : Record W.Message}
    (untimed : record.Untimed) : Timed { sim with log := sim.log ++ [record] } batch :=
  timed.untimed untimed rfl rfl rfl (fun _ runs => runs) rfl

/-- A line of the trace, but not one of a timer that fires. -/
theorem Timed.traced (timed : Timed sim batch) (node : NodeId) {event : TraceEvent}
    (write : Option Nat) (notFired : ∀ timer, event ≠ .timerFired timer) :
    Timed (sim.record node event write) batch := by
  apply timed.record
  cases event with
  | timerFired timer => exact absurd rfl (notFired timer)
  | _ => trivial

theorem Timed.posts (timed : Timed sim batch) (posts : Posts sim next) : Timed next batch := by
  rcases posts.log with ⟨extra, isLog, written⟩
  have all : ∀ (extra : List (Record W.Message)) (reached : Sim W), Timed reached batch →
      (∀ record ∈ extra, record.Untimed) →
        Timed { reached with log := reached.log ++ extra } batch := by
    intro extra
    induction extra with
    | nil =>
        intro reached timed _
        exact timed.same rfl rfl rfl (fun _ runs => runs) (List.append_nil _)
    | cons first rest ih =>
        intro reached timed untimed
        have one := timed.record (untimed first List.mem_cons_self)
        have more := ih _ one fun record member => untimed record (List.mem_cons_of_mem _ member)
        simpa only [List.append_assoc, List.cons_append, List.nil_append] using more
  have logged := all extra sim timed fun record member => (written record member).untimed
  exact logged.same posts.timers posts.skew posts.now (fun _ runs => posts.runs_iff.mpr runs) isLog

/-! ## Effects -/

theorem timed_setTimer (timed : Timed sim batch) {node : NodeId} (alive : sim.Runs node)
    (timer : TimerId) (after : Nat) (untouched : (node, timer) ∉ batch) :
    Timed (performOne node sim (.setTimer timer after)) batch := by
  have traced : Timed { sim with
      timers := W.timers.set sim.timers (node, timer) sim.now (sim.skewed node after)
      log := sim.log ++ [.performed sim.now node (.setTimer timer after)] } batch := by
    constructor
    · rw [pendingOf_concat]
      exact timed.skew
    · intro key due
      simp only [pendingOf_concat, Pending.after, timed.skew, W.timers.live_set, mem_armed]
      by_cases same : key = (node, timer)
      · subst same
        rw [Function.update_self]
        simp only [untouched, false_and, or_false, ne_eq, not_true_eq_false, and_false,
          Prod.mk.injEq, true_and, Option.some.injEq]
        exact eq_comm
      · rw [Function.update_of_ne same, timed.due key due]
        simp [same]
    · intro key member due
      rw [W.timers.live_set, mem_armed]
      rintro (same | ⟨isLive, -⟩)
      · cases same
        exact untouched member
      · exact timed.apart key member due isLive
    · intro key due isDue
      simp only [pendingOf_concat, Pending.after] at isDue
      by_cases same : key = (node, timer)
      · subst same
        exact alive
      · rw [Function.update_of_ne same] at isDue
        exact timed.owners key due isDue
    · intro armed member
      rw [W.timers.live_set, mem_armed] at member
      rcases member with rfl | ⟨isLive, -⟩
      · exact sim.now.le_saturatingAdd _
      · exact timed.ahead armed isLive
    · apply timed.fires.concat
      exact ⟨by simp, by simp, fun due node name timer write isLast =>
        absurd isLast (timed.answered due node name timer write)⟩
    · intro due node name timer write isLast
      rw [List.getLast?_concat] at isLast
      simp at isLast
  exact traced.record trivial

theorem timed_clearTimer (timed : Timed sim batch) {node : NodeId} (timer : TimerId)
    (untouched : (node, timer) ∉ batch) :
    Timed (performOne node sim (.clearTimer timer)) batch := by
  have traced : Timed { sim with
      timers := W.timers.clear sim.timers (node, timer)
      log := sim.log ++ [.performed sim.now node (.clearTimer timer)] } batch := by
    constructor
    · rw [pendingOf_concat]
      exact timed.skew
    · intro key due
      simp only [pendingOf_concat, Pending.after, W.timers.live_clear, List.mem_filter,
        decide_eq_true_eq]
      by_cases same : key = (node, timer)
      · subst same
        simp [untouched]
      · rw [Function.update_of_ne same, timed.due key due]
        simp [same]
    · intro key member due
      rw [W.timers.live_clear, List.mem_filter]
      exact fun inside => timed.apart key member due inside.1
    · intro key due isDue
      simp only [pendingOf_concat, Pending.after] at isDue
      by_cases same : key = (node, timer)
      · subst same
        simp at isDue
      · rw [Function.update_of_ne same] at isDue
        exact timed.owners key due isDue
    · intro armed member
      rw [W.timers.live_clear, List.mem_filter] at member
      exact timed.ahead armed member.1
    · apply timed.fires.concat
      exact ⟨by simp, by simp, fun due node name timer write isLast =>
        absurd isLast (timed.answered due node name timer write)⟩
    · intro due node name timer write isLast
      rw [List.getLast?_concat] at isLast
      simp at isLast
  exact traced.record trivial

theorem timed_performOne (timed : Timed sim batch) {node : NodeId} (alive : sim.Runs node)
    {effect : Effect W.Message} (untouched : ∀ key ∈ batch, ¬ effect.Touches node key) :
    Timed (performOne node sim effect) batch := by
  cases effect with
  | send receiver message =>
      have wanted : (Record.performed sim.now node (.send receiver message)).Untimed := trivial
      exact (timed.record wanted).posts (posts_send _ node receiver message)
  | setTimer timer after =>
      exact timed_setTimer timed alive timer after fun member => untouched _ member rfl
  | clearTimer timer =>
      exact timed_clearTimer timed timer fun member => untouched _ member rfl
  | note what =>
      have wanted : (Record.performed sim.now node (Effect.note (M := W.Message) what)).Untimed := trivial
      exact (timed.record wanted).record trivial

/-- An input that is no timer is handed over. -/
theorem timed_hand (timed : Timed sim []) (node : NodeId) {input : Input W.Message}
    (noTimer : ∀ timer, input ≠ .timer timer) (write : Option Nat) :
    Timed (sim.hand node input write) [] := by
  apply hand_induction fun reached => Timed reached []
  · exact fun _ => timed
  · intro nodes _ steady
    have untimed : (Record.called sim.now node input write).Untimed := by
      cases input with
      | timer timer => exact absurd rfl (noTimer timer)
      | _ => trivial
    exact timed.untimed untimed rfl rfl rfl (fun _ runs => steady.runs_iff.mpr runs) rfl
  · intro reached effect _ alive timed
    exact timed_performOne timed alive (by simp)

/-! ## A batch of timers -/

/-- No node sets or clears a timer of a batch that is still to fire. -/
def Untouched : Sim W → List (NodeId × TimerId) → Prop
  | _, [] => True
  | sim, key :: rest =>
      (∀ effect ∈ (sim.deliver key.1 (.timer key.2) none).2, ∀ other ∈ rest,
        ¬ effect.Touches key.1 other) ∧
      Untouched (sim.fire key) rest

theorem timed_fire {key : NodeId × TimerId} (timed : Timed sim (key :: batch))
    (apart : key ∉ batch) (untouched : ∀ effect ∈ (sim.deliver key.1 (.timer key.2) none).2,
      ∀ other ∈ batch, ¬ effect.Touches key.1 other) : Timed (sim.fire key) batch := by
  rcases key with ⟨node, timer⟩
  have isDue : (pendingOf sim.log).due (node, timer) = some sim.now :=
    (timed.due _ _).mpr (.inr ⟨List.mem_cons_self, rfl⟩)
  have alive := timed.owners _ _ isDue
  have notLive := timed.apart _ List.mem_cons_self
  apply hand_induction fun reached => Timed reached batch
  · exact fun stands => absurd alive stands
  · intro nodes _ steady
    simp only [Sim.record, List.append_assoc, List.cons_append, List.nil_append]
    have twoMore : ∀ first second : Record W.Message,
        pendingOf (sim.log ++ [first, second]) = ((pendingOf sim.log).after first).after second := by
      intro first second
      rw [List.append_cons, pendingOf_concat, pendingOf_concat]
    constructor
    · rw [twoMore]
      exact timed.skew
    · intro other due
      simp only [twoMore, Pending.after]
      by_cases same : other = (node, timer)
      · subst same
        rw [Function.update_self]
        simp [notLive, apart]
      · rw [Function.update_of_ne same, timed.due other due]
        simp [same]
    · intro other member
      exact timed.apart other (List.mem_cons_of_mem _ member)
    · intro other due otherDue
      simp only [twoMore, Pending.after] at otherDue
      apply steady.runs_iff.mpr
      by_cases same : other = (node, timer)
      · subst same
        exact alive
      · rw [Function.update_of_ne same] at otherDue
        exact timed.owners other due otherDue
    · exact timed.ahead
    · rw [List.append_cons]
      apply (timed.fires.concat _).concat
      · constructor
        · simp
        · rintro _ _ _ _ same
          cases same
          exact ⟨_, List.getLast?_concat⟩
        · intro due other name fired write isLast
          rw [List.getLast?_concat] at isLast
          cases isLast
          rfl
      · constructor
        · rintro _ _ _ _ _ same
          cases same
          exact isDue
        · simp
        · exact fun due node name timer write isLast =>
            absurd isLast (timed.answered due node name timer write)
    · intro due other name fired write isLast
      rw [List.append_cons, List.getLast?_concat] at isLast
      simp at isLast
  · intro reached effect member alive timed
    rw [effects_record] at member
    exact timed_performOne timed alive (untouched effect member)

theorem timed_batch (timed : Timed sim batch) (nodup : batch.Nodup)
    (untouched : Untouched sim batch) : Timed (batch.foldl fire sim) [] := by
  induction batch generalizing sim with
  | nil => exact timed
  | cons key rest ih =>
      rw [List.nodup_cons] at nodup
      exact ih (timed_fire timed nodup.1 untouched.1) nodup.2 untouched.2

/-! ## Faults -/

/-- A node goes, and its timers with it. -/
theorem timed_forget (timed : Timed sim []) {node : NodeId} {fault : Fault}
    (forgets : ∀ pending : Pending,
      pending.after (Record.applied (M := W.Message) fault) = pending.forget node)
    (timers : next.timers = W.timers.forgetMatching sim.timers fun key => key.1 = node)
    (skew : next.skew = sim.skew) (now : next.now = sim.now)
    (runs : ∀ other, other ≠ node → sim.Runs other → next.Runs other)
    (log : next.log = sim.log ++ [.applied fault]) : Timed next [] := by
  have isLive : ∀ key due, (key, due) ∈ W.timers.live next.timers ↔
      (key, due) ∈ W.timers.live sim.timers ∧ key.1 ≠ node := by
    intro key due
    rw [timers, W.timers.live_forgetMatching, List.mem_filter, Bool.not_eq_true',
      decide_eq_false_iff_not]
  constructor
  · rw [log, pendingOf_concat, forgets, skew]
    exact timed.skew
  · intro key due
    rw [log, pendingOf_concat, forgets, isLive]
    by_cases same : key.1 = node
    · simp [Pending.forget, same]
    · simp only [Pending.forget, same, if_false]
      rw [timed.due key due]
      simp [same]
  · simp
  · intro key due isDue
    rw [log, pendingOf_concat, forgets] at isDue
    by_cases same : key.1 = node
    · simp [Pending.forget, same] at isDue
    · simp only [Pending.forget, same, if_false] at isDue
      exact runs key.1 same (timed.owners key due isDue)
  · intro timer member
    rw [now]
    exact timed.ahead timer ((isLive timer.1 timer.2).mp member).1
  · rw [log]
    apply timed.fires.concat
    exact ⟨by simp, by simp, fun due node name timer write isLast =>
      absurd isLast (timed.answered due node name timer write)⟩
  · rw [log]
    intro due other name timer write isLast
    rw [List.getLast?_concat] at isLast
    simp at isLast

theorem timed_apply (timed : Timed sim []) (fault : Fault) : Timed (sim.apply fault) [] := by
  have logged : (Record.applied (M := W.Message) fault).Untimed →
      Timed (({ sim with log := sim.log ++ [Record.applied fault] } : Sim W).record fault.anchor
        (.fault (fault.summary W)) none) [] :=
    fun untimed => (timed.record untimed).traced _ _ (by simp)
  have line : (Record.traced (M := W.Message) sim.now fault.anchor (sim.nameOf fault.anchor)
      (.fault (fault.summary W)) none).Untimed := trivial
  unfold apply
  dsimp only
  cases fault with
  | killNode node =>
      have forgets : ∀ pending : Pending,
          pending.after (Record.applied (M := W.Message) (.killNode node)) = pending.forget node :=
        fun _ => rfl
      have gone : Timed { sim with
          killed := Function.update sim.killed node true
          timers := W.timers.forgetMatching sim.timers fun key => key.1 = node
          log := sim.log ++ [.applied (.killNode node)] } [] := by
        refine timed_forget timed forgets rfl rfl rfl ?_ rfl
        intro other differs runs
        exact ⟨by simpa [differs] using runs.1, runs.2⟩
      exact gone.untimed line rfl rfl rfl (fun _ runs => runs) rfl
  | cut a b => exact (logged trivial).posts (posts_cutBetween _ a b true)
  | heal a b => exact (logged trivial).posts (posts_cutBetween _ a b false)
  | setLinkPolicy sender receiver policy =>
      exact (logged trivial).posts (Posts.unqueued _ _ _ _ _ _)
  | timerSkew node perMille =>
      have skewed : Timed { sim with
          skew := Function.update sim.skew node (some perMille)
          log := sim.log ++ [.applied (.timerSkew node perMille)] } [] := by
        constructor
        · rw [pendingOf_concat, Pending.after, timed.skew]
        · intro key due
          rw [pendingOf_concat]
          exact timed.due key due
        · simp
        · intro key due isDue
          rw [pendingOf_concat] at isDue
          exact timed.owners key due isDue
        · exact timed.ahead
        · apply timed.fires.concat
          exact ⟨by simp, by simp, fun due node name timer write isLast =>
            absurd isLast (timed.answered due node name timer write)⟩
        · intro due other name timer write isLast
          rw [List.getLast?_concat] at isLast
          simp at isLast
      exact skewed.untimed line rfl rfl rfl (fun _ runs => runs) rfl
  | reconnect a b => exact (logged trivial).posts (posts_applyReconnect _ a b)
  | restartNode node =>
      have forgets : ∀ pending : Pending,
          pending.after (Record.applied (M := W.Message) (.restartNode node)) = pending.forget node :=
        fun _ => rfl
      have returned : Timed { sim with
          killed := Function.update sim.killed node false
          timers := W.timers.forgetMatching sim.timers fun key => key.1 = node
          log := sim.log ++ [.applied (.restartNode node)] } [] := by
        refine timed_forget timed forgets rfl rfl rfl ?_ rfl
        intro other differs runs
        exact ⟨by simpa [differs] using runs.1, runs.2⟩
      refine Timed.posts ?_ (posts_restart _ node)
      exact returned.untimed line rfl rfl rfl (fun _ runs => runs) rfl
  | stopReading node =>
      simp only [takeEffect]
      split
      · exact logged trivial
      · exact (logged trivial).posts (Posts.unqueued _ _ _ _ _ _)
  | resumeReading node => exact (logged trivial).posts (posts_applyResume _ node)

/-! ## Moves -/

theorem timed_handle (timed : Timed sim []) (event : Event) : Timed (sim.handle event) [] := by
  cases event with
  | deliver sender receiver bytes connection write =>
      simp only [handle, handleDelivery]
      split
      · split
        · exact timed.traced _ _ (by simp)
        · exact timed_hand (timed.traced _ _ (by simp)) receiver (by simp) _
      · exact timed.traced _ _ (by simp)
  | fault fault => exact timed_apply timed fault
  | breaks node peer write => exact timed_hand (timed.traced _ _ (by simp)) node (by simp) _
  | notify node notice =>
      cases notice with
      | restarted incarnation => exact timed_hand (timed.traced _ _ (by simp)) node (by simp) _
      | connected peer => exact timed_hand timed node (by simp) _
      | writeStalled peer write => exact timed_hand timed node (by simp) _
      | writeFlushed peer write => exact timed_hand timed node (by simp) _

/-- In the batch this round takes, no node touches a timer that is still to fire. -/
def CalmBatch (sim : Sim W) : Move W → Prop
  | .turn => ∀ instant, sim.nextInstant = some instant →
      Untouched { sim with now := instant, timers := (sim.dueTimers instant).2 }
        (sim.dueTimers instant).1
  | _ => True

theorem timed_turned {instant : SimTime} (timed : Timed sim [])
    (isNext : sim.nextInstant = some instant) (calm : sim.CalmBatch .turn)
    (turned : Turned sim instant next) : Timed next [] := by
  rcases nextInstant_le isNext with ⟨early, -⟩
  have isLive : ∀ key due, (pendingOf sim.log).due key = some due ↔
      (key, due) ∈ W.timers.live sim.timers := by
    intro key due
    rw [timed.due key due]
    simp
  cases turned with
  | took item queue timers _ _ kept =>
      have waits : Timed { sim with timers, queue, now := instant } [] := by
        refine ⟨timed.skew, ?_, by simp, timed.owners, ?_, timed.fires, timed.answered⟩
        · intro key due
          simp only [kept, isLive key due, List.not_mem_nil, false_and, or_false]
        · intro timer member
          simp only [kept] at member
          exact early timer member
      have taken : (Record.took (M := W.Message) item).Untimed := trivial
      exact timed_handle (waits.record taken) item.payload
  | fired keys timers _ isDue _ areDue others =>
      have untouched := calm instant isNext
      simp only [isDue] at untouched
      have inBatch : ∀ key, key ∈ keys ↔ (key, instant) ∈ W.timers.live sim.timers := by
        intro key
        rw [areDue, List.mem_map]
        constructor
        · rintro ⟨⟨_, due⟩, member, rfl⟩
          rcases List.mem_filter.mp member with ⟨isLive, soon⟩
          have same : due = instant := le_antisymm (of_decide_eq_true soon) (early _ isLive)
          rw [← same]
          exact isLive
        · intro isLive
          exact ⟨(key, instant), List.mem_filter.mpr ⟨isLive, decide_eq_true le_rfl⟩, rfl⟩
      have once := W.timers.nodup sim.timers
      apply timed_batch _ _ untouched
      · refine ⟨timed.skew, ?_, ?_, timed.owners, ?_, timed.fires, timed.answered⟩
        · intro key due
          simp only [others, isLive key due, List.mem_filter, decide_eq_true_eq, inBatch]
          constructor
          · intro member
            rcases (early _ member).lt_or_eq with late | now
            · exact .inl ⟨member, late⟩
            · cases now
              exact .inr ⟨member, rfl⟩
          · rintro (⟨member, -⟩ | ⟨member, rfl⟩)
            · exact member
            · exact member
        · intro key member due
          simp only [others, List.mem_filter, decide_eq_true_eq]
          rintro ⟨isLive, late⟩
          have same := List.inj_on_of_nodup_map once isLive ((inBatch key).mp member) rfl
          cases same
          exact lt_irrefl _ late
        · intro timer member
          simp only [others, List.mem_filter, decide_eq_true_eq] at member
          exact member.2.le
      · rw [areDue]
        exact once.sublist (List.filter_sublist.map Prod.fst)

theorem timed_start (timed : Timed sim []) : Timed sim.start [] := by
  unfold start
  split
  · exact timed
  · have steps : ∀ (ids : List NodeId) (reached : Sim W), Timed reached [] → Timed (ids.foldl
        (fun sim id => (sim.record id .started none).hand id .started none) reached) [] := by
      intro ids
      induction ids with
      | nil => exact fun _ timed => timed
      | cons id rest ih =>
          intro reached timed
          exact ih _ (timed_hand (timed.traced _ _ (by simp)) id (by simp) _)
    exact steps _ _ (timed.same rfl rfl rfl (fun _ runs => runs) rfl)

theorem timed_move (timed : Timed sim []) (move : Move W) (proper : sim.Proper move)
    (calm : sim.CalmBatch move) : Timed (sim.move move) [] := by
  cases move with
  | enqueue due fault =>
      have queued : (Record.queued (M := W.Message) sim.now
          ⟨due, sim.queue.nextSeq, .fault fault⟩).Untimed := trivial
      exact timed.untimed queued rfl rfl rfl (fun _ runs => runs) rfl
  | setPartitioned sender receiver partitioned =>
      have parted : (Record.parted (M := W.Message) sender receiver partitioned).Untimed := trivial
      exact timed.untimed parted rfl rfl rfl (fun _ runs => runs) rfl
  | start => exact timed_start timed
  | inject sender receiver message => exact timed_hand (timed.traced _ _ (by simp)) receiver (by simp) _
  | turn =>
      simp only [Sim.move]
      cases isNext : sim.nextInstant with
      | none => exact timed
      | some instant => exact timed_turned timed isNext calm (turn_turned isNext).1
  | settle deadline =>
      simp only [Sim.move, Sim.settle]
      split
      · refine ⟨timed.skew, ?_, by simp, timed.owners, ?_, timed.fires, timed.answered⟩
        · intro key due
          rw [timed.due key due]
          simp
        · exact fun timer member => (proper.1 timer member).le
      · exact timed

theorem timed_fresh (fresh : sim.Fresh) : Timed sim [] := by
  constructor
  · rw [fresh.log, fresh.skew]
    rfl
  · intro key due
    rw [fresh.log, fresh.timers, W.timers.live_new]
    simp [pendingOf, Pending.none]
  · simp
  · intro key due isDue
    simp [fresh.log, pendingOf, Pending.none] at isDue
  · rw [fresh.timers, W.timers.live_new]
    simp
  · rw [fresh.log]
    exact .nil
  · rw [fresh.log]
    intro due node name timer write isLast
    simp at isLast

theorem timed_calls (seed : UInt64) (topology : List (Build W)) (sequence : List (Call W))
    (calm : Along (machine W) CalmBatch (built W seed topology)
      ((built W seed topology).moves sequence)) :
    Timed ((built W seed topology).calls sequence) [] :=
  calls_induction (fun sim => Timed sim []) (timed_fresh (fresh_built seed topology))
    (fun _ move timed proper calm => timed_move timed move proper calm) calm

/-- In every run in whose batches no node touches a timer that is still to fire, a timer fires
exactly at the instant its latest setting armed it for, unless it was set again or cleared, or
its process has gone: none fires at another instant, none is overdue, and a loop that ended well
leaves none behind. -/
theorem timers_punctual (seed : UInt64) (topology : List (Build W)) (sequence : List (Call W))
    (calm : Along (machine W) CalmBatch (built W seed topology)
      ((built W seed topology).moves sequence)) :
    let sim := (built W seed topology).calls sequence
    (Justified FiresDue sim.log ∧ Answered sim.log) ∧
      (∀ key due, (pendingOf sim.log).due key = some due → sim.now ≤ due) ∧
        ∀ earlier each deadline, sequence = earlier ++ [each] →
          ((built W seed topology).calls earlier).deadlineOf each = some deadline →
            (((built W seed topology).calls earlier).call each).1 = .ok () →
              ∀ key due, (pendingOf sim.log).due key = some due → deadline < due := by
  intro sim
  have timed : Timed sim [] := timed_calls seed topology sequence calm
  have isLive : ∀ key due, (pendingOf sim.log).due key = some due →
      (key, due) ∈ W.timers.live sim.timers := by
    intro key due isDue
    rcases (timed.due key due).mp isDue with member | ⟨member, -⟩
    · exact member
    · contradiction
  refine ⟨⟨timed.fires, timed.answered⟩, ?_, ?_⟩
  · intro key due isDue
    exact timed.ahead _ (isLive key due isDue)
  · intro earlier each deadline split isDeadline ended key due isDue
    have idle := idle_of_call isDeadline ended
    have same : (((built W seed topology).calls earlier).call each).2 = sim := by
      simp only [sim, split, calls_append]
      rfl
    rw [same] at idle
    exact idle.1 _ (isLive key due isDue)

/-- A timer that is alone in its batch has no other to touch. -/
theorem untouched_singleton (sim : Sim W) (key : NodeId × TimerId) : Untouched sim [key] :=
  ⟨by simp, trivial⟩

end Sim

/-! ## A timer that is cleared when another fires -/

/-- One node, that sets two timers, and clears the second when the first fires. -/
def clearing (second : Nat) : List (Sim.Build scripted) :=
  [.addNode ⟨text "a", fun
    | .started => [.setTimer ⟨1⟩ 5, .setTimer ⟨2⟩ second]
    | .timer ⟨1⟩ => [.clearTimer ⟨2⟩]
    | _ => []⟩]

def clearingCalls : List (Sim.Call scripted) :=
  [.runUntil (SimTime.start.saturatingAdd 10)]

theorem calm_clearing :
    Along (Sim.machine scripted) Sim.CalmBatch (Sim.built scripted 0 (clearing 7))
      ((Sim.built scripted 0 (clearing 7)).moves clearingCalls) := by
  change Along _ _ _ ([.start, .turn, .settle (SimTime.start.saturatingAdd 10)] :
    List (Sim.Move scripted))
  refine ⟨trivial, ?_, trivial, trivial⟩
  intro instant isNext
  have first : (Sim.built scripted 0 (clearing 7)).start.nextInstant =
      some (SimTime.start.saturatingAdd 5) := rfl
  cases isNext.symm.trans first
  exact Sim.untouched_singleton _ (0, ⟨1⟩)

theorem firesDue_clearing :
    Justified FiresDue ((Sim.built scripted 0 (clearing 7)).calls clearingCalls).log :=
  (Sim.timers_punctual 0 (clearing 7) clearingCalls calm_clearing).1.1

/-- Where both are due at one instant, the second fires although it was cleared. -/
theorem not_firesDue :
    ¬ Justified FiresDue ((Sim.built scripted 0 (clearing 5)).calls clearingCalls).log := by
  intro fires
  have second := fires (((Sim.built scripted 0 (clearing 5)).calls clearingCalls).log.take 10)
    (.traced (SimTime.start.saturatingAdd 5) 0 (text "a") (.timerFired ⟨2⟩) none)
    (((Sim.built scripted 0 (clearing 5)).calls clearingCalls).log.drop 11) rfl
  have due := second.fired _ _ _ _ _ rfl
  have cleared : (pendingOf (((Sim.built scripted 0 (clearing 5)).calls clearingCalls).log.take
      10)).due (0, ⟨2⟩) = none := rfl
  rw [cleared] at due
  contradiction

end SipxClstr.Simulation
