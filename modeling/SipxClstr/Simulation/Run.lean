import SipxClstr.Simulation.Engine
import SipxClstr.Reactive.Run
import Mathlib.Tactic.Tauto

/-!
# Runs of a simulation

What the operations of the scheduler do, said once for all that is proved of them, and runs as
sequences of moves: a fault that is queued, a message that is injected, one round of the loop.
Every sequence of calls of the harness is one.
-/

namespace SipxClstr.Simulation

open SipxClstr.Sip Reactive Machine

namespace Sim

variable {W : World} {sim next : Sim W}

/-! ## Building -/

/-- What builds a simulation. -/
inductive Build (W : World) where
  | linkDefault (kind : LinkKind) (policy : LinkPolicy)
  | stepBudget (budget : Nat)
  | addNode (node : SimNode W)
  | linkOneWay (sender receiver : NodeId) (kind : LinkKind) (policy : LinkPolicy)

def build (sim : Sim W) : Build W → Sim W
  | .linkDefault kind policy => sim.linkDefault kind policy
  | .stepBudget budget => sim.stepBudget budget
  | .addNode node => sim.addNode node
  | .linkOneWay sender receiver kind policy => sim.linkOneWay sender receiver kind policy

/-- A simulation that was built, and has not run. -/
def built (W : World) (seed : UInt64) (topology : List (Build W)) : Sim W :=
  topology.foldl build (new W seed)

/-- Nothing has happened yet. -/
structure Fresh (sim : Sim W) : Prop where
  now : sim.now = .start
  queue : sim.queue = .new
  timers : sim.timers = W.timers.new
  log : sim.log = []
  started : sim.started = false
  killed : sim.killed = fun _ => false
  skew : sim.skew = fun _ => none
  restarts : sim.restarts = fun _ => 0
  connections : sim.connections = fun _ _ => 0
  notReading : sim.notReading = fun _ => false
  held : sim.held = []
  writes : sim.writes = 0
  arrivals : ∀ sender receiver link, sim.links sender receiver = some link →
    link.lastArrival = none

theorem fresh_new (seed : UInt64) : (new W seed).Fresh :=
  ⟨rfl, rfl, rfl, rfl, rfl, rfl, rfl, rfl, rfl, rfl, rfl, rfl, by simp [new]⟩

theorem Fresh.build (fresh : sim.Fresh) (each : Build W) : (sim.build each).Fresh := by
  cases each with
  | linkOneWay sender receiver kind policy =>
      refine ⟨fresh.now, fresh.queue, fresh.timers, fresh.log, fresh.started, fresh.killed,
        fresh.skew, fresh.restarts, fresh.connections, fresh.notReading, fresh.held, fresh.writes, ?_⟩
      intro a b link isLink
      simp only [Sim.build, linkOneWay, setPair] at isLink
      split at isLink
      · cases isLink
        rfl
      · exact fresh.arrivals a b link isLink
  | _ =>
      exact ⟨fresh.now, fresh.queue, fresh.timers, fresh.log, fresh.started, fresh.killed,
        fresh.skew, fresh.restarts, fresh.connections, fresh.notReading, fresh.held, fresh.writes,
        fresh.arrivals⟩

theorem fresh_built (seed : UInt64) (topology : List (Build W)) : (built W seed topology).Fresh := by
  have steps : ∀ sim : Sim W, sim.Fresh → (topology.foldl Sim.build sim).Fresh := by
    induction topology with
    | nil => exact fun _ fresh => fresh
    | cons each rest ih => exact fun sim fresh => ih _ (fresh.build each)
  exact steps _ (fresh_new seed)

/-! ## Crossing a link -/

/-- What a link makes of a write that crosses it. -/
inductive Crossed (sim : Sim W) (sender receiver : NodeId) (bytes : Bytes) (summary : Text)
    (write : Nat) : Sim W → Prop where
  | dropped (link : Link) (kind : link.kind = (sim.linkBetween sender receiver).kind)
      (policy : link.policy = (sim.linkBetween sender receiver).policy)
      (kept : link.lastArrival = (sim.linkBetween sender receiver).lastArrival) :
      Crossed sim sender receiver bytes summary write
        ({ sim with links := setPair sim.links sender receiver (some link) }.record sender
          (.dropped receiver summary) (some write))
  | broken (link : Link) (kind : link.kind = (sim.linkBetween sender receiver).kind)
      (policy : link.policy = (sim.linkBetween sender receiver).policy)
      (kept : link.lastArrival = (sim.linkBetween sender receiver).lastArrival) :
      Crossed sim sender receiver bytes summary write
        ({ sim with links := setPair sim.links sender receiver (some link) }.queueNow
          (.breaks sender receiver (some write)))
  | once (link : Link) (due : SimTime) (kind : link.kind = (sim.linkBetween sender receiver).kind)
      (policy : link.policy = (sim.linkBetween sender receiver).policy)
      (later : sim.now ≤ due) (runs : sim.killed sender = false ∧ sim.killed receiver = false)
      (inOrder : (sim.linkBetween sender receiver).kind = .stream → link.lastArrival = some due ∧
        ∀ previous, (sim.linkBetween sender receiver).lastArrival = some previous →
          previous ≤ due) :
      Crossed sim sender receiver bytes summary write
        { sim with
          links := setPair sim.links sender receiver (some link)
          queue := sim.queue.scheduleAt due
            (.deliver sender receiver bytes (sim.connections sender receiver) write)
          log := sim.log ++ [.crossed sender receiver write] }
  | twice (link : Link) (first second : SimTime)
      (kind : link.kind = (sim.linkBetween sender receiver).kind)
      (policy : link.policy = (sim.linkBetween sender receiver).policy)
      (later : sim.now ≤ first ∧ sim.now ≤ second)
      (runs : sim.killed sender = false ∧ sim.killed receiver = false)
      (datagram : (sim.linkBetween sender receiver).kind = .datagram) :
      Crossed sim sender receiver bytes summary write
        { sim with
          links := setPair sim.links sender receiver (some link)
          queue := (sim.queue.scheduleAt first
            (.deliver sender receiver bytes (sim.connections sender receiver) write)).scheduleAt
              second (.deliver sender receiver bytes (sim.connections sender receiver) write)
          log := sim.log ++ [.traced sim.now sender (sim.nameOf sender)
            (.duplicated receiver summary) (some write), .crossed sender receiver write] }

end Sim

/-- How a link decides. -/
theorem Link.decide_cases (link : Link) (now : SimTime) :
    ((link.decide now).1 = .dropped ∨ (link.decide now).1 = .broken) ∧
        (link.decide now).2.lastArrival = link.lastArrival ∨
      (∃ after, (link.decide now).1 = .once after ∧ (link.kind = .stream →
        ∃ due, now.saturatingAdd after = due ∧ (link.decide now).2.lastArrival = some due ∧
          ∀ previous, link.lastArrival = some previous → previous ≤ due)) ∨
      ∃ first second, (link.decide now).1 = .twice first second ∧ link.kind = .datagram := by
  cases isKind : link.kind with
  | stream =>
      have decided : link.decide now = (.broken, link) ∨ _ := Link.decide_stream isKind
      rcases decided with broken | ⟨due, rng, later, inOrder, once⟩
      · rw [broken]
        exact .inl ⟨.inr rfl, rfl⟩
      · rw [once]
        refine .inr (.inl ⟨_, rfl, ?_⟩)
        intro _
        exact ⟨due, SimTime.saturatingAdd_since later, rfl, inOrder⟩
  | datagram =>
      unfold decide
      split
      · left
        simp [cutOutcome, isKind]
      dsimp only
      split
      · exact .inl ⟨.inl rfl, rfl⟩
      simp only [isKind, reduceCtorEq, if_false, false_implies, and_true]
      split
      · right
        right
        split
        · exact ⟨_, _, rfl⟩
        · exact ⟨_, _, rfl⟩
      · exact .inr (.inl ⟨_, rfl⟩)

namespace Sim

variable {W : World} {sim next : Sim W}

theorem dispatch_crossed (sim : Sim W) (sender receiver : NodeId) (bytes : Bytes)
    (summary : Text) (write : Nat) :
    Crossed sim sender receiver bytes summary write
      (sim.dispatch sender receiver bytes summary write) := by
  unfold dispatch
  by_cases killed : (sim.killed sender || sim.killed receiver) = true
  · simp only [killed, if_true]
    cases isKind : (sim.linkBetween sender receiver).kind with
    | datagram =>
        simp only [Link.cutOutcome, isKind]
        exact .dropped _ rfl rfl rfl
    | stream =>
        simp only [Link.cutOutcome, isKind]
        exact .broken _ rfl rfl rfl
  · simp only [killed, if_false, Bool.false_eq_true]
    rw [Bool.not_eq_true, Bool.or_eq_false_iff] at killed
    rcases (sim.linkBetween sender receiver).decide_cases sim.now with
      ⟨lost | lost, kept⟩ | ⟨after, once, inOrder⟩ | ⟨first, second, twice, datagram⟩
    · simp only [lost]
      exact .dropped _ Link.kind_decide Link.policy_decide kept
    · simp only [lost]
      exact .broken _ Link.kind_decide Link.policy_decide kept
    · simp only [once]
      refine .once _ _ Link.kind_decide Link.policy_decide (sim.now.le_saturatingAdd after) killed ?_
      intro isStream
      rcases inOrder isStream with ⟨due, rfl, last, behind⟩
      exact ⟨last, behind⟩
    · simp only [twice]
      have crossed : Crossed sim sender receiver bytes summary write _ := Crossed.twice
        ((sim.linkBetween sender receiver).decide sim.now).2 (sim.now.saturatingAdd first)
        (sim.now.saturatingAdd second) Link.kind_decide Link.policy_decide
        ⟨sim.now.le_saturatingAdd first, sim.now.le_saturatingAdd second⟩ killed datagram
      simp only [record, List.append_assoc, List.cons_append, List.nil_append]
      exact crossed

/-! ## Being handed an input -/

/-- The node is one, and no fault has stopped it. -/
def Runs (sim : Sim W) (node : NodeId) : Prop :=
  sim.killed node = false ∧ node < sim.nodes.length

/-- Being handed an input: nothing, or the node's reaction and what it wants done. -/
theorem deliver_cases (sim : Sim W) (node : NodeId) (input : Input W.Message)
    (write : Option Nat) :
    ¬ sim.Runs node ∧ sim.deliver node input write = (sim, []) ∨
      ∃ nodes effects, sim.Runs node ∧ nodes.length = sim.nodes.length ∧
        (∀ id, ({ sim with nodes } : Sim W).nameOf id = sim.nameOf id) ∧
        sim.deliver node input write =
          ({ sim with nodes, log := sim.log ++ [.called sim.now node input write] }, effects) := by
  unfold deliver Runs
  by_cases killed : sim.killed node = true
  · rw [if_pos killed]
    exact .inl ⟨by simp [killed], rfl⟩
  rw [if_neg killed]
  cases found : sim.nodes[node]? with
  | none =>
      refine .inl ⟨?_, rfl⟩
      rw [List.getElem?_eq_none_iff] at found
      exact fun runs => absurd runs.2 (not_lt.mpr found)
  | some process =>
      right
      rcases List.getElem?_eq_some_iff.mp found with ⟨bound, -⟩
      refine ⟨_, _, ⟨Bool.eq_false_of_not_eq_true killed, bound⟩, List.length_set, ?_, rfl⟩
      intro id
      unfold nameOf
      simp only
      rw [List.getElem?_set]
      by_cases same : node = id
      · rw [if_pos same, if_pos bound, ← same, found]
      · rw [if_neg same]

/-- What a node wants done does not depend on the log. -/
theorem effects_record (sim : Sim W) (id node : NodeId) (event : TraceEvent)
    (number write : Option Nat) (input : Input W.Message) :
    ((sim.record id event number).deliver node input write).2 =
      (sim.deliver node input write).2 := by
  unfold deliver record
  by_cases killed : sim.killed node = true
  · simp only [killed, if_true]
  · simp only [killed, if_false, Bool.false_eq_true]
    cases sim.nodes[node]? <;> rfl

/-- What no node can change. -/
structure Steady (sim next : Sim W) : Prop where
  now : next.now = sim.now
  length : next.nodes.length = sim.nodes.length
  names : ∀ id, next.nameOf id = sim.nameOf id
  killed : next.killed = sim.killed
  connections : next.connections = sim.connections
  notReading : next.notReading = sim.notReading
  restarts : next.restarts = sim.restarts
  defaults : next.defaultKind = sim.defaultKind ∧ next.defaultPolicy = sim.defaultPolicy
  seed : next.seed = sim.seed

namespace Steady

theorem refl (sim : Sim W) : Steady sim sim :=
  ⟨rfl, rfl, fun _ => rfl, rfl, rfl, rfl, rfl, ⟨rfl, rfl⟩, rfl⟩

/-- What a node's effects come to. -/
theorem performed (sim : Sim W) (links : NodeId → NodeId → Option Link) (queue : EventQueue Event)
    (timers : W.timers.Queue) (log : List (Record W.Message)) (held : List HeldWrite)
    (writes : Nat) : Steady sim { sim with links, queue, timers, log, held, writes } :=
  ⟨rfl, rfl, fun _ => rfl, rfl, rfl, rfl, rfl, ⟨rfl, rfl⟩, rfl⟩

theorem trans {last : Sim W} (first : Steady sim next) (second : Steady next last) :
    Steady sim last where
  now := second.now.trans first.now
  length := second.length.trans first.length
  names id := (second.names id).trans (first.names id)
  killed := second.killed.trans first.killed
  connections := second.connections.trans first.connections
  notReading := second.notReading.trans first.notReading
  restarts := second.restarts.trans first.restarts
  defaults := ⟨second.defaults.1.trans first.defaults.1, second.defaults.2.trans first.defaults.2⟩
  seed := second.seed.trans first.seed

theorem runs_iff (steady : Steady sim next) {node : NodeId} : next.Runs node ↔ sim.Runs node := by
  rw [Runs, Runs, steady.killed, steady.length]

end Steady

theorem Crossed.steady {sender receiver write : Nat} {bytes : Bytes} {summary : Text}
    (crossed : Crossed sim sender receiver bytes summary write next) : Steady sim next := by
  cases crossed <;> exact .performed sim _ _ _ _ _ _

/-- A message that is sent waits with its sender, or crosses the link. -/
theorem send_cases (sim : Sim W) (sender receiver : NodeId) (message : W.Message) :
    let sent : Sim W := { sim with
      log := sim.log ++ [.traced sim.now sender (sim.nameOf sender)
        (.sent receiver (W.summarize message)) (some sim.writes)]
      writes := sim.writes + 1 }
    sim.killed sender = false ∧ sim.killed receiver = false ∧ sim.notReading receiver = true ∧
        sim.send sender receiver message = { sent with
          held := sim.held ++ [⟨receiver, sender, W.toBytes message, W.summarize message, sim.writes⟩]
          queue := sim.queue.scheduleAt sim.now
            (.notify sender (.writeStalled receiver sim.writes)) } ∨
      (sim.killed sender = false → sim.killed receiver = false → sim.notReading receiver = false) ∧
        Crossed sent sender receiver (W.toBytes message) (W.summarize message) sim.writes
          (sim.send sender receiver message) := by
  intro sent
  unfold send
  dsimp only
  split
  · next stalls =>
      left
      simp only [record, Bool.and_eq_true, Bool.not_eq_true', Bool.or_eq_false_iff] at stalls
      exact ⟨stalls.1.1, stalls.1.2, stalls.2, rfl⟩
  · next crosses =>
      right
      constructor
      · intro alive other
        simpa [record, alive, other] using crosses
      · exact dispatch_crossed sent sender receiver (W.toBytes message) (W.summarize message) _

theorem send_steady (sim : Sim W) (sender receiver : NodeId) (message : W.Message) :
    Steady sim (sim.send sender receiver message) := by
  rcases sim.send_cases sender receiver message with ⟨-, -, -, same⟩ | ⟨-, crossed⟩
  · rw [same]
    exact .performed sim _ _ _ _ _ _
  · exact Steady.trans (.performed sim _ _ _ _ _ _) crossed.steady

theorem performOne_steady (node : NodeId) (sim : Sim W) (effect : Effect W.Message) :
    Steady sim (performOne node sim effect) := by
  cases effect with
  | send receiver message =>
      exact Steady.trans (.performed sim _ _ _ _ _ _) (send_steady _ node receiver message)
  | setTimer timer after => exact .performed sim _ _ _ _ _ _
  | clearTimer timer => exact .performed sim _ _ _ _ _ _
  | note what => exact .performed sim _ _ _ _ _ _

/-- What holds of a state in which a node is handed an input, and is kept by each of the effects
it wants done, holds when they are. -/
theorem hand_induction (P : Sim W → Prop) {node : NodeId} {input : Input W.Message}
    {write : Option Nat} (idle : ¬ sim.Runs node → P sim)
    (called : ∀ nodes, sim.Runs node → Steady sim { sim with nodes } →
      P { sim with nodes, log := sim.log ++ [.called sim.now node input write] })
    (performed : ∀ reached : Sim W, ∀ effect ∈ (sim.deliver node input write).2,
      reached.Runs node → P reached → P (performOne node reached effect)) :
    P (sim.hand node input write) := by
  unfold hand
  rcases sim.deliver_cases node input write with
    ⟨stands, same⟩ | ⟨nodes, effects, alive, length, names, same⟩
  · rw [same]
    exact idle stands
  rw [same] at performed ⊢
  have steady : Steady sim { sim with nodes } :=
    ⟨rfl, length, names, rfl, rfl, rfl, rfl, ⟨rfl, rfl⟩, rfl⟩
  have holds := called nodes alive steady
  have runs : ({ sim with nodes, log := sim.log ++ [.called sim.now node input write] } :
      Sim W).Runs node := steady.runs_iff.mpr alive
  simp only [perform]
  generalize ({ sim with nodes, log := sim.log ++ [.called sim.now node input write] } : Sim W) =
    reached at holds runs ⊢
  clear same
  induction effects generalizing reached with
  | nil => exact holds
  | cons effect rest ih =>
      have goesOn := (performOne_steady node reached effect).runs_iff.mpr runs
      apply ih _ (performOne node reached effect) _ goesOn
      · intro later other member
        exact performed later other (List.mem_cons_of_mem _ member)
      · exact performed reached effect List.mem_cons_self runs holds

theorem hand_steady (sim : Sim W) (node : NodeId) (input : Input W.Message)
    (write : Option Nat) : Steady sim (sim.hand node input write) := by
  apply hand_induction (Steady sim)
  · intro _
    exact Steady.refl sim
  · intro nodes _ steady
    exact ⟨rfl, steady.length, steady.names, rfl, rfl, rfl, rfl, ⟨rfl, rfl⟩, rfl⟩
  · intro reached effect _ _ steady
    exact steady.trans (performOne_steady node reached effect)

/-! ## What is queued and written down -/

/-- What the log says of writes that are sent and cross a link. -/
inductive Written {M : Type} (now : SimTime) : Record M → Prop where
  | sent (node : NodeId) (nodeName : Text) (receiver : NodeId) (summary : Text)
      (write : Option Nat) : Written now (.traced now node nodeName (.sent receiver summary) write)
  | dropped (node : NodeId) (nodeName : Text) (receiver : NodeId) (summary : Text)
      (write : Option Nat) :
      Written now (.traced now node nodeName (.dropped receiver summary) write)
  | duplicated (node : NodeId) (nodeName : Text) (receiver : NodeId) (summary : Text)
      (write : Option Nat) :
      Written now (.traced now node nodeName (.duplicated receiver summary) write)
  | crossed (sender receiver : NodeId) (write : Nat) : Written now (.crossed sender receiver write)

/-- What a queue gains: things that are no faults, no earlier than now and behind what is queued
for the same instant. -/
structure Gains (now : SimTime) (queue behind : EventQueue Event) : Prop where
  kept : ∀ item ∈ queue.heap, item ∈ behind.heap
  gained : ∀ item ∈ behind.heap, item ∈ queue.heap ∨
    now ≤ item.due ∧ queue.nextSeq ≤ item.seq ∧ item.payload.isFault = false
  seq : queue.nextSeq ≤ behind.nextSeq

namespace Gains

variable {now : SimTime} {queue behind last : EventQueue Event}

theorem refl : Gains now queue queue :=
  ⟨fun _ member => member, fun _ member => .inl member, le_rfl⟩

theorem trans (first : Gains now queue behind) (second : Gains now behind last) :
    Gains now queue last where
  kept item member := second.kept item (first.kept item member)
  gained := by
    intro item member
    rcases second.gained item member with earlier | ⟨later, newer, noFault⟩
    · exact first.gained item earlier
    · exact .inr ⟨later, first.seq.trans newer, noFault⟩
  seq := first.seq.trans second.seq

theorem scheduleAt {due : SimTime} {event : Event} (later : now ≤ due)
    (noFault : event.isFault = false) : Gains now queue (queue.scheduleAt due event) where
  kept _ member := EventQueue.mem_scheduleAt.mpr (.inl member)
  gained := by
    intro item member
    rcases EventQueue.mem_scheduleAt.mp member with stood | rfl
    · exact .inl stood
    · exact .inr ⟨later, le_rfl, noFault⟩
  seq := Nat.le_succ _

theorem scheduleAll {due : SimTime} {events : List Event} (later : now ≤ due)
    (noFault : ∀ event ∈ events, event.isFault = false) :
    Gains now queue (queue.scheduleAll due events) where
  kept _ member := EventQueue.mem_scheduleAll_of_mem member
  gained := by
    intro item member
    rcases EventQueue.mem_of_mem_scheduleAll member with stood | ⟨isDue, newer, isIn⟩
    · exact .inl stood
    · exact .inr ⟨isDue ▸ later, newer, noFault item.payload isIn⟩
  seq := EventQueue.nextSeq_le_scheduleAll queue due events

end Gains

/-- What comes of writes and of notices: they are queued, and what becomes of them is written
down. -/
structure Posts (sim next : Sim W) : Prop where
  now : next.now = sim.now
  length : next.nodes.length = sim.nodes.length
  killed : next.killed = sim.killed
  budget : next.budget = sim.budget
  started : next.started = sim.started
  timers : next.timers = sim.timers
  skew : next.skew = sim.skew
  log : ∃ extra, next.log = sim.log ++ extra ∧ ∀ record ∈ extra, Written sim.now record
  queue : Gains sim.now sim.queue next.queue

namespace Posts

theorem intro (sim : Sim W) {links : NodeId → NodeId → Option Link}
    {restarts : NodeId → Nat} {connections : NodeId → NodeId → Nat} {notReading : NodeId → Bool}
    {held : List HeldWrite} {writes : Nat} {log extra : List (Record W.Message)}
    {queue : EventQueue Event} (isLog : log = sim.log ++ extra)
    (written : ∀ record ∈ extra, Written sim.now record) (gains : Gains sim.now sim.queue queue) :
    Posts sim { sim with links, restarts, connections, notReading, held, writes, log, queue } :=
  ⟨rfl, rfl, rfl, rfl, rfl, rfl, rfl, ⟨extra, isLog, written⟩, gains⟩

/-- Nothing but the links, the connections, the incarnations and the buffers of the senders. -/
theorem unqueued (sim : Sim W) (links : NodeId → NodeId → Option Link) (restarts : NodeId → Nat)
    (connections : NodeId → NodeId → Nat) (notReading : NodeId → Bool) (held : List HeldWrite) :
    Posts sim { sim with links, restarts, connections, notReading, held } :=
  intro sim (List.append_nil _).symm (by simp) .refl

theorem refl (sim : Sim W) : Posts sim sim :=
  unqueued sim _ _ _ _ _

theorem trans {last : Sim W} (first : Posts sim next) (second : Posts next last) :
    Posts sim last where
  now := second.now.trans first.now
  length := second.length.trans first.length
  killed := second.killed.trans first.killed
  budget := second.budget.trans first.budget
  started := second.started.trans first.started
  timers := second.timers.trans first.timers
  skew := second.skew.trans first.skew
  log := by
    rcases first.log with ⟨before, isBefore, written⟩
    rcases second.log with ⟨behind, isBehind, goesOn⟩
    refine ⟨before ++ behind, by rw [isBehind, isBefore, List.append_assoc], ?_⟩
    intro record member
    rcases List.mem_append.mp member with early | late
    · exact written record early
    · rw [← first.now]
      exact goesOn record late
  queue := by
    have second := second.queue
    rw [first.now] at second
    exact first.queue.trans second

theorem runs_iff (posts : Posts sim next) {node : NodeId} : next.Runs node ↔ sim.Runs node := by
  rw [Runs, Runs, posts.killed, posts.length]

end Posts

theorem posts_queueNow (sim : Sim W) {event : Event} (noFault : event.isFault = false) :
    Posts sim (sim.queueNow event) :=
  Posts.intro sim (List.append_nil _).symm (by simp) (.scheduleAt le_rfl noFault)

theorem Crossed.posts {sender receiver write : Nat} {bytes : Bytes} {summary : Text}
    (crossed : Crossed sim sender receiver bytes summary write next) : Posts sim next := by
  cases crossed with
  | dropped link =>
      apply Posts.intro sim rfl _ .refl
      simpa using Written.dropped sender _ receiver summary _
  | broken link =>
      exact Posts.intro sim (List.append_nil _).symm (by simp) (.scheduleAt le_rfl rfl)
  | once link due _ _ later =>
      apply Posts.intro sim rfl _ (.scheduleAt later rfl)
      simpa using Written.crossed sender receiver write
  | twice link first second _ _ later =>
      apply Posts.intro sim rfl _ ((Gains.scheduleAt later.1 rfl).trans (.scheduleAt later.2 rfl))
      intro record member
      rw [List.mem_cons, List.mem_singleton] at member
      rcases member with rfl | rfl
      · exact .duplicated sender _ receiver summary _
      · exact .crossed sender receiver write

theorem posts_dispatch (sim : Sim W) (sender receiver : NodeId) (bytes : Bytes) (summary : Text)
    (write : Nat) : Posts sim (sim.dispatch sender receiver bytes summary write) :=
  (dispatch_crossed sim sender receiver bytes summary write).posts

theorem posts_send (sim : Sim W) (sender receiver : NodeId) (message : W.Message) :
    Posts sim (sim.send sender receiver message) := by
  have written : ∀ record ∈ ([.traced sim.now sender (sim.nameOf sender)
      (.sent receiver (W.summarize message)) (some sim.writes)] : List (Record W.Message)),
      Written sim.now record := by
    simpa using Written.sent sender _ receiver _ _
  rcases sim.send_cases sender receiver message with ⟨-, -, -, same⟩ | ⟨-, crossed⟩
  · rw [same]
    exact Posts.intro sim rfl written (.scheduleAt le_rfl rfl)
  · exact (Posts.intro sim rfl written .refl).trans crossed.posts

theorem posts_release (sim : Sim W) (write : HeldWrite) : Posts sim (sim.release write) :=
  (posts_queueNow sim rfl).trans (posts_dispatch _ _ _ _ _ _)

theorem posts_applyResume (sim : Sim W) (node : NodeId) : Posts sim (sim.applyResume node) := by
  unfold applyResume
  have emptied := Posts.unqueued sim sim.links sim.restarts sim.connections
    (Function.update sim.notReading node false)
    (sim.held.filter fun write => write.receiver ≠ node)
  generalize ({ sim with
    notReading := Function.update sim.notReading node false
    held := sim.held.filter fun write => write.receiver ≠ node } : Sim W) = reached at emptied ⊢
  generalize sim.held.filter (fun write => write.receiver = node) = released
  induction released generalizing reached with
  | nil => exact emptied
  | cons write rest ih => exact ih (reached.release write) (emptied.trans (posts_release _ write))

/-- Links of these pairs are cut or restored, and nothing else changes. -/
def Cut (sim next : Sim W) (pairs : NodeId → NodeId → Prop) (partitioned : Bool) : Prop :=
  ∃ links, next = { sim with links } ∧ ∀ a b,
    (next.linkBetween a b).kind = (sim.linkBetween a b).kind ∧
    (next.linkBetween a b).lastArrival = (sim.linkBetween a b).lastArrival ∧
    (pairs a b → (next.linkBetween a b).policy =
      { (sim.linkBetween a b).policy with partitioned }) ∧
    (¬ pairs a b → (next.linkBetween a b).policy = (sim.linkBetween a b).policy)

namespace Cut

theorem none (sim : Sim W) (partitioned : Bool) :
    Cut sim sim (fun _ _ => False) partitioned :=
  ⟨sim.links, rfl, fun _ _ => ⟨rfl, rfl, False.elim, fun _ => rfl⟩⟩

theorem trans {last : Sim W} {pairs others : NodeId → NodeId → Prop} {partitioned : Bool}
    (first : Cut sim next pairs partitioned) (second : Cut next last others partitioned) :
    Cut sim last (fun a b => pairs a b ∨ others a b) partitioned := by
  rcases first with ⟨before, isNext, first⟩
  rcases second with ⟨links, isLast, second⟩
  refine ⟨links, by rw [isLast, isNext], ?_⟩
  intro a b
  rcases first a b with ⟨kind, arrival, cut, uncut⟩
  rcases second a b with ⟨nextKind, nextArrival, nextCut, nextUncut⟩
  refine ⟨nextKind.trans kind, nextArrival.trans arrival, ?_, ?_⟩
  · rintro both
    by_cases later : others a b
    · rw [nextCut later]
      by_cases earlier : pairs a b
      · rw [cut earlier]
      · rw [uncut earlier]
    · rw [nextUncut later, cut (both.resolve_right later)]
  · intro neither
    rw [not_or] at neither
    rw [nextUncut neither.2, uncut neither.1]

theorem congr {pairs others : NodeId → NodeId → Prop} {partitioned : Bool}
    (cut : Cut sim next pairs partitioned) (same : ∀ a b, others a b ↔ pairs a b) :
    Cut sim next others partitioned := by
  have equal : others = pairs := by
    funext a b
    exact propext (same a b)
  rw [equal]
  exact cut

theorem posts {pairs : NodeId → NodeId → Prop} {partitioned : Bool}
    (cut : Cut sim next pairs partitioned) : Posts sim next := by
  rcases cut with ⟨links, rfl, -⟩
  exact .unqueued sim links _ _ _ _

end Cut

theorem cut_setPartitioned (sim : Sim W) (sender receiver : NodeId) (partitioned : Bool) :
    Cut sim (sim.setPartitioned sender receiver partitioned)
      (fun a b => a = sender ∧ b = receiver) partitioned := by
  refine ⟨_, rfl, ?_⟩
  intro a b
  by_cases same : a = sender ∧ b = receiver
  · rcases same with ⟨rfl, rfl⟩
    cases isLink : sim.links a b <;> simp [setPartitioned, linkBetween, isLink, Link.new]
  · simp only [setPartitioned, linkBetween, setPair_of_ne same]
    exact ⟨rfl, rfl, fun isPair => absurd isPair same, fun _ => rfl⟩

theorem cut_cutBetween (sim : Sim W) (a b : List NodeId) (partitioned : Bool) :
    Cut sim (sim.cutBetween a b partitioned)
      (fun x y => x ∈ a ∧ y ∈ b ∨ x ∈ b ∧ y ∈ a) partitioned := by
  have row : ∀ (first : NodeId) (b : List NodeId) (reached : Sim W), Cut reached
      (b.foldl (fun sim second =>
        (sim.setPartitioned first second partitioned).setPartitioned second first partitioned)
          reached) (fun x y => x = first ∧ y ∈ b ∨ x ∈ b ∧ y = first) partitioned := by
    intro first b
    induction b with
    | nil => exact fun reached => (Cut.none reached _).congr (by simp)
    | cons second rest ih =>
        intro reached
        apply (((cut_setPartitioned _ _ _ _).trans (cut_setPartitioned _ _ _ _)).trans (ih _)).congr
        intro x y
        simp only [List.mem_cons]
        tauto
  have rows : ∀ (a : List NodeId) (reached : Sim W), Cut reached (a.foldl (fun sim first =>
      b.foldl (fun sim second =>
        (sim.setPartitioned first second partitioned).setPartitioned second first partitioned)
          sim) reached) (fun x y => x ∈ a ∧ y ∈ b ∨ x ∈ b ∧ y ∈ a) partitioned := by
    intro a
    induction a with
    | nil => exact fun reached => (Cut.none reached _).congr (by simp)
    | cons first rest ih =>
        intro reached
        apply ((row first b _).trans (ih _)).congr
        intro x y
        simp only [List.mem_cons]
        tauto
  exact rows a sim

theorem posts_cutBetween (sim : Sim W) (a b : List NodeId) (partitioned : Bool) :
    Posts sim (sim.cutBetween a b partitioned) :=
  (cut_cutBetween sim a b partitioned).posts

theorem queueAll_eq (sim : Sim W) (events : List Event) :
    sim.queueAll events = { sim with queue := sim.queue.scheduleAll sim.now events } := by
  induction events generalizing sim with
  | nil => rfl
  | cons event rest ih => exact ih (sim.queueNow event)

/-- Both directions of a connection are replaced. -/
def bumpBoth (sim : Sim W) (a b : NodeId) : Sim W :=
  (sim.bumpConnection a b).bumpConnection b a

theorem le_bumpConnection (sim : Sim W) (a b x y : NodeId) :
    sim.connections x y ≤ (sim.bumpConnection a b).connections x y := by
  unfold bumpConnection setPair
  dsimp only
  split
  · next same =>
      rcases same with ⟨rfl, rfl⟩
      exact Nat.le_succ _
  · exact le_rfl

theorem lt_bumpConnection (sim : Sim W) (a b : NodeId) :
    sim.connections a b < (sim.bumpConnection a b).connections a b := by
  simp only [bumpConnection, setPair_self]
  exact Nat.lt_succ_self _

theorem le_bumpBoth (sim : Sim W) (a b x y : NodeId) :
    sim.connections x y ≤ (sim.bumpBoth a b).connections x y :=
  (le_bumpConnection sim a b x y).trans (le_bumpConnection _ b a x y)

theorem lt_bumpBoth (sim : Sim W) (a b : NodeId) :
    sim.connections a b < (sim.bumpBoth a b).connections a b ∧
      sim.connections b a < (sim.bumpBoth a b).connections b a :=
  ⟨lt_of_lt_of_le (lt_bumpConnection sim a b) (le_bumpConnection _ b a a b),
    lt_of_le_of_lt (le_bumpConnection sim a b b a) (lt_bumpConnection _ b a)⟩

/-- What a restart comes to: the node is back without its timers and what was held for it or by
it, every connection it had is replaced, its peers lose theirs, and it is told of its
incarnation behind them. -/
theorem restart_cases (sim : Sim W) (node : NodeId) :
    ∃ connections events, (∀ a b, sim.connections a b ≤ connections a b) ∧
      (∀ peer < sim.nodes.length, peer ≠ node →
        sim.connections node peer < connections node peer ∧
          sim.connections peer node < connections peer node) ∧
      (∀ event ∈ events, ∃ peer, peer ≠ node ∧ event = .breaks peer node none) ∧
      sim.restart node = { sim with
        killed := Function.update sim.killed node false
        timers := W.timers.forgetMatching sim.timers fun key => key.1 = node
        connections
        notReading := Function.update sim.notReading node false
        held := sim.held.filter fun write => write.receiver ≠ node ∧ write.sender ≠ node
        restarts := Function.update sim.restarts node (sim.restarts node + 1)
        queue := (sim.queue.scheduleAll sim.now events).scheduleAt sim.now
          (.notify node (.restarted (sim.restarts node + 1 + 1))) } := by
  have bumped : ∀ (peers : List NodeId) (reached : Sim W), ∃ connections,
      (∀ a b, reached.connections a b ≤ connections a b) ∧
      (∀ peer ∈ peers, reached.connections node peer < connections node peer ∧
        reached.connections peer node < connections peer node) ∧
      peers.foldl (fun sim peer => (sim.bumpConnection node peer).bumpConnection peer node) reached =
        { reached with connections } := by
    intro peers
    induction peers with
    | nil => exact fun reached => ⟨reached.connections, by simp, by simp, rfl⟩
    | cons first rest ih =>
        intro reached
        rcases ih ((reached.bumpConnection node first).bumpConnection first node) with
          ⟨connections, grown, strictly, same⟩
        have once : ∀ a b, reached.connections a b ≤ (reached.bumpBoth node first).connections a b :=
          le_bumpBoth reached node first
        have both := lt_bumpBoth reached node first
        refine ⟨connections, fun a b => (once a b).trans (grown a b), ?_, same⟩
        intro peer member
        rcases List.mem_cons.mp member with rfl | later
        · exact ⟨lt_of_lt_of_le both.1 (grown _ _), lt_of_lt_of_le both.2 (grown _ _)⟩
        · exact ⟨lt_of_le_of_lt (once _ _) (strictly peer later).1,
            lt_of_le_of_lt (once _ _) (strictly peer later).2⟩
  rcases bumped (sim.peersOf node) { sim with
    killed := Function.update sim.killed node false
    timers := W.timers.forgetMatching sim.timers fun key => key.1 = node } with
    ⟨connections, grown, strictly, same⟩
  unfold restart
  simp only [queueAll_eq, discardHeldInvolving]
  change ∀ peer ∈ sim.peersOf node, _ at strictly
  have peers : ({ sim with
      killed := Function.update sim.killed node false
      timers := W.timers.forgetMatching sim.timers fun key => key.1 = node } : Sim W).peersOf node =
        sim.peersOf node := rfl
  rw [peers, same]
  refine ⟨connections, _, grown, ?_, ?_, rfl⟩
  · intro peer isNode differs
    exact strictly peer (List.mem_filter.mpr ⟨List.mem_range.mpr isNode, decide_eq_true differs⟩)
  · intro event member
    rcases List.mem_map.mp member with ⟨peer, isPeer, rfl⟩
    have isPeer := (List.mem_filter.mp (List.mem_filter.mp isPeer).1).2
    exact ⟨peer, of_decide_eq_true isPeer, rfl⟩

/-- What a restart does beyond bringing the node back without its timers. -/
theorem posts_restart (sim : Sim W) (node : NodeId) :
    Posts { sim with
      killed := Function.update sim.killed node false
      timers := W.timers.forgetMatching sim.timers fun key => key.1 = node } (sim.restart node) := by
  rcases sim.restart_cases node with ⟨connections, events, -, -, isBreak, same⟩
  have noFaults : ∀ event ∈ events, event.isFault = false := by
    intro event member
    rcases isBreak event member with ⟨peer, -, rfl⟩
    rfl
  rw [same]
  exact Posts.intro _ (List.append_nil _).symm (by simp)
    ((Gains.scheduleAll le_rfl noFaults).trans (.scheduleAt le_rfl rfl))

/-- What a reconnect comes to: both connections are replaced and what was held for either end by
the other is gone, and both ends lose their connection before they are told of the new one. -/
theorem applyReconnect_cases (sim : Sim W) (a b : NodeId) :
    ∃ connections, (∀ x y, sim.connections x y ≤ connections x y) ∧
      sim.connections a b < connections a b ∧ sim.connections b a < connections b a ∧
      sim.applyReconnect a b = { sim with
        connections
        held := sim.held.filter fun write =>
          ¬ (write.receiver = a ∧ write.sender = b) ∧ ¬ (write.receiver = b ∧ write.sender = a)
        queue := sim.queue.scheduleAll sim.now
          [.breaks a b none, .breaks b a none, .notify a (.connected b),
            .notify b (.connected a)] } := by
  refine ⟨(sim.bumpBoth a b).connections, le_bumpBoth sim a b, (lt_bumpBoth sim a b).1,
    (lt_bumpBoth sim a b).2, ?_⟩
  unfold applyReconnect
  rw [queueAll_eq]
  rfl

theorem posts_applyReconnect (sim : Sim W) (a b : NodeId) : Posts sim (sim.applyReconnect a b) := by
  rcases sim.applyReconnect_cases a b with ⟨connections, -, -, -, same⟩
  rw [same]
  exact Posts.intro sim (List.append_nil _).symm (by simp)
    (.scheduleAll le_rfl (by simp [Event.isFault]))

/-! ## What never changes -/

/-- The nodes stay and have started or not, the budget stays, and the log is never rewritten. -/
structure Extends (sim next : Sim W) : Prop where
  length : next.nodes.length = sim.nodes.length
  budget : next.budget = sim.budget
  started : next.started = sim.started
  log : ∃ extra, next.log = sim.log ++ extra

namespace Extends

theorem refl (sim : Sim W) : Extends sim sim :=
  ⟨rfl, rfl, rfl, [], (List.append_nil _).symm⟩

theorem trans {last : Sim W} (first : Extends sim next) (second : Extends next last) :
    Extends sim last where
  length := second.length.trans first.length
  budget := second.budget.trans first.budget
  started := second.started.trans first.started
  log := by
    rcases first.log with ⟨before, isBefore⟩
    rcases second.log with ⟨behind, isBehind⟩
    exact ⟨before ++ behind, by rw [isBehind, isBefore, List.append_assoc]⟩

end Extends

theorem Posts.extends (posts : Posts sim next) : Extends sim next :=
  ⟨posts.length, posts.budget, posts.started, posts.log.imp fun _ holds => holds.1⟩

theorem extends_record (sim : Sim W) (node : NodeId) (event : TraceEvent) (write : Option Nat) :
    Extends sim (sim.record node event write) :=
  ⟨rfl, rfl, rfl, _, rfl⟩

theorem extends_performOne (node : NodeId) (sim : Sim W) (effect : Effect W.Message) :
    Extends sim (performOne node sim effect) := by
  have wanted : Extends sim { sim with log := sim.log ++ [.performed sim.now node effect] } :=
    ⟨rfl, rfl, rfl, _, rfl⟩
  apply wanted.trans
  cases effect with
  | send receiver message => exact (posts_send _ node receiver message).extends
  | setTimer timer after => exact ⟨rfl, rfl, rfl, _, rfl⟩
  | clearTimer timer => exact ⟨rfl, rfl, rfl, _, rfl⟩
  | note what => exact ⟨rfl, rfl, rfl, _, rfl⟩

theorem extends_hand (sim : Sim W) (node : NodeId) (input : Input W.Message)
    (write : Option Nat) : Extends sim (sim.hand node input write) := by
  apply hand_induction (Extends sim)
  · exact fun _ => .refl sim
  · intro nodes _ steady
    exact ⟨steady.length, rfl, rfl, _, rfl⟩
  · intro reached effect _ _ extends_
    exact extends_.trans (extends_performOne node reached effect)

theorem extends_takeEffect (sim : Sim W) (fault : Fault) : Extends sim (sim.takeEffect fault) := by
  cases fault with
  | killNode node => exact ⟨rfl, rfl, rfl, [], (List.append_nil _).symm⟩
  | cut a b => exact (posts_cutBetween sim a b true).extends
  | heal a b => exact (posts_cutBetween sim a b false).extends
  | setLinkPolicy sender receiver policy => exact (Posts.unqueued sim _ _ _ _ _).extends
  | timerSkew node perMille => exact ⟨rfl, rfl, rfl, [], (List.append_nil _).symm⟩
  | reconnect a b => exact (posts_applyReconnect sim a b).extends
  | restartNode node =>
      apply Extends.trans _ (posts_restart sim node).extends
      exact ⟨rfl, rfl, rfl, [], (List.append_nil _).symm⟩
  | stopReading node =>
      simp only [takeEffect]
      split
      · exact .refl sim
      · exact (Posts.unqueued sim _ _ _ _ _).extends
  | resumeReading node => exact (posts_applyResume sim node).extends

theorem extends_handle (sim : Sim W) (event : Event) : Extends sim (sim.handle event) := by
  cases event with
  | deliver sender receiver bytes connection write =>
      simp only [handle, handleDelivery]
      split
      · split
        · exact extends_record sim _ _ _
        · exact (extends_record sim _ _ _).trans (extends_hand _ _ _ _)
      · exact extends_record sim _ _ _
  | fault fault =>
      have logged : Extends sim { sim with log := sim.log ++ [.applied fault] } :=
        ⟨rfl, rfl, rfl, _, rfl⟩
      exact logged.trans ((extends_record _ _ _ _).trans (extends_takeEffect _ fault))
  | breaks node peer write => exact (extends_record sim _ _ _).trans (extends_hand _ _ _ _)
  | notify node notice =>
      cases notice with
      | restarted incarnation => exact (extends_record sim _ _ _).trans (extends_hand _ _ _ _)
      | connected peer => exact extends_hand _ _ _ _
      | writeStalled peer write => exact extends_hand _ _ _ _
      | writeFlushed peer write => exact extends_hand _ _ _ _

theorem extends_fire (sim : Sim W) (key : NodeId × TimerId) : Extends sim (sim.fire key) :=
  (extends_record sim key.1 (.timerFired key.2) none).trans (extends_hand _ _ _ _)

theorem extends_batch (keys : List (NodeId × TimerId)) (sim : Sim W) :
    Extends sim (keys.foldl fire sim) := by
  induction keys generalizing sim with
  | nil => exact .refl sim
  | cons key rest ih => exact (extends_fire sim key).trans (ih (sim.fire key))

/-! ## A round of the loop -/

/-- Something is due at the next instant. -/
theorem exists_due_of_nextInstant {instant : SimTime} (sim : Sim W)
    (isNext : sim.nextInstant = some instant) :
    (∃ timer ∈ W.timers.live sim.timers, timer.2 = instant) ∨
      ∃ item rest, sim.queue.heap = item :: rest ∧ item.due = instant := by
  have items : ∀ due, sim.queue.nextDeadline = some due →
      ∃ item rest, sim.queue.heap = item :: rest ∧ item.due = due := by
    intro due isDue
    unfold EventQueue.nextDeadline at isDue
    cases held : sim.queue.heap with
    | nil => simp [held] at isDue
    | cons item rest =>
        rw [held, List.head?_cons, Option.map_some, Option.some.injEq] at isDue
        exact ⟨item, rest, rfl, isDue⟩
  unfold nextInstant at isNext
  split at isNext
  · contradiction
  · next isTimer _ =>
      obtain rfl := Option.some.inj isNext
      exact .inl (W.timers.exists_of_nextDeadline isTimer)
  · next isEvent =>
      obtain rfl := Option.some.inj isNext
      exact .inr (items _ isEvent)
  · next timerAt eventAt isTimer isEvent =>
      obtain rfl := Option.some.inj isNext
      rcases le_total timerAt eventAt with least | least
      · rw [min_eq_left least]
        exact .inl (W.timers.exists_of_nextDeadline isTimer)
      · rw [min_eq_right least]
        exact .inr (items _ isEvent)

/-- Nothing is due before the next instant. -/
theorem nextInstant_le {instant : SimTime} (isNext : sim.nextInstant = some instant) :
    (∀ timer ∈ W.timers.live sim.timers, instant ≤ timer.2) ∧
      ∀ item ∈ sim.queue.heap, instant ≤ item.due := by
  have timers : ∀ timer ∈ W.timers.live sim.timers,
      ∃ due, W.timers.nextDeadline sim.timers = some due ∧ due ≤ timer.2 :=
    fun timer => W.timers.nextDeadline_le
  have items : ∀ item ∈ sim.queue.heap,
      ∃ due, sim.queue.nextDeadline = some due ∧ due ≤ item.due :=
    fun item => sim.queue.nextDeadline_le
  unfold nextInstant at isNext
  constructor
  · intro timer member
    rcases timers timer member with ⟨due, isDue, early⟩
    rw [isDue] at isNext
    split at isNext
    · contradiction
    · next same _ =>
        rw [Option.some.injEq] at same isNext
        rw [← isNext, ← same]
        exact early
    · contradiction
    · next same _ =>
        rw [Option.some.injEq] at same isNext
        rw [← isNext, ← same]
        exact (min_le_left _ _).trans early
  · intro item member
    rcases items item member with ⟨due, isDue, early⟩
    rw [isDue] at isNext
    split at isNext
    · contradiction
    · contradiction
    · next same =>
        rw [Option.some.injEq] at same isNext
        rw [← isNext, ← same]
        exact early
    · next same =>
        rw [Option.some.injEq] at same isNext
        rw [← isNext, ← same]
        exact (min_le_right _ _).trans early

/-- What a round does at the next instant: it takes an event, or every timer that is due. -/
inductive Turned (sim : Sim W) (instant : SimTime) : Sim W → Prop where
  | took (item : Scheduled Event) (queue : EventQueue Event) (timers : W.timers.Queue)
      (popped : sim.queue.pop = some (item, queue)) (due : item.due = instant)
      (kept : W.timers.live timers = W.timers.live sim.timers)
      (first : item.payload.isFault = true ∨
        ∀ timer ∈ W.timers.live sim.timers, instant < timer.2) :
      Turned sim instant
        (Sim.handle { sim with timers, queue, now := instant, log := sim.log ++ [.took item] }
          item.payload)
  | fired (keys : List (NodeId × TimerId)) (timers : W.timers.Queue) (nonempty : keys ≠ [])
      (isDue : sim.dueTimers instant = (keys, timers)) (noFault : sim.faultFirst instant = false)
      (areDue : keys =
        ((W.timers.live sim.timers).filter fun timer => timer.2 ≤ instant).map Prod.fst)
      (others : W.timers.live timers =
        (W.timers.live sim.timers).filter fun timer => instant < timer.2) :
      Turned sim instant (keys.foldl fire { sim with now := instant, timers })

theorem turn_turned {instant : SimTime} (isNext : sim.nextInstant = some instant) :
    Turned sim instant (sim.turn instant).1 ∧ (sim.turn instant).2 = true := by
  unfold turn dueTimers
  cases fault : sim.faultFirst instant with
  | true =>
      simp only [if_true, List.isEmpty_nil]
      rw [faultFirst, Bool.and_eq_true, decide_eq_true_eq] at fault
      cases held : sim.queue.heap with
      | nil => simp [EventQueue.peek, held] at fault
      | cons item rest =>
          have popped : sim.queue.pop = some (item, sim.queue.rest) := by
            rw [EventQueue.pop, held]
            rfl
          simp only [EventQueue.peek, EventQueue.nextDeadline, held, List.head?_cons,
            Option.map_some, Option.any_some, Option.some.injEq] at fault
          simp only [popped, fault.2]
          exact ⟨.took item _ _ popped fault.2 rfl (.inl fault.1), trivial⟩
  | false =>
      simp only [Bool.false_eq_true, if_false]
      by_cases idle : (W.timers.takeDue sim.timers instant).1 = []
      · simp only [idle, List.isEmpty_nil, if_true]
        have late : ∀ timer ∈ W.timers.live sim.timers, instant < timer.2 := by
          intro timer member
          by_contra early
          have taken : timer.1 ∈ (W.timers.takeDue sim.timers instant).1 :=
            W.timers.mem_takeDue.mpr ⟨timer.2, not_lt.mp early, member⟩
          rw [idle] at taken
          contradiction
        have kept : W.timers.live (W.timers.takeDue sim.timers instant).2 =
            W.timers.live sim.timers := by
          rw [W.timers.live_takeDue, List.filter_eq_self]
          exact fun timer member => decide_eq_true (late timer member)
        rcases sim.exists_due_of_nextInstant isNext with ⟨timer, member, same⟩ | ⟨item, rest, held, due⟩
        · exact absurd (late timer member) (by rw [same]; exact lt_irrefl _)
        · have popped : sim.queue.pop = some (item, sim.queue.rest) := by
            rw [EventQueue.pop, held]
            rfl
          simp only [popped, due]
          exact ⟨.took item _ _ popped due kept (.inr late), trivial⟩
      · rw [if_neg (by rwa [List.isEmpty_iff])]
        have isDue : sim.dueTimers instant = W.timers.takeDue sim.timers instant := by
          rw [dueTimers, fault, if_neg Bool.false_ne_true]
        exact ⟨.fired _ _ idle isDue fault (W.timers.takeDue_fst _ _) (W.timers.live_takeDue _ _), rfl⟩

theorem extends_turned {instant : SimTime} (turned : Turned sim instant next) :
    Extends sim next := by
  cases turned with
  | took item queue timers =>
      have taken : Extends sim { sim with
          timers, queue, now := instant, log := sim.log ++ [.took item] } := ⟨rfl, rfl, rfl, _, rfl⟩
      exact taken.trans (extends_handle _ item.payload)
  | fired keys timers =>
      have goes : Extends sim { sim with now := instant, timers } :=
        ⟨rfl, rfl, rfl, [], (List.append_nil _).symm⟩
      exact goes.trans (extends_batch keys _)

/-- Nothing is left to do by this instant. -/
def Idle (sim : Sim W) (deadline : SimTime) : Prop :=
  (∀ timer ∈ W.timers.live sim.timers, deadline < timer.2) ∧
    ∀ item ∈ sim.queue.heap, deadline < item.due

theorem idle_of_lt {deadline instant : SimTime} (isNext : sim.nextInstant = some instant)
    (past : deadline < instant) : sim.Idle deadline := by
  rcases nextInstant_le isNext with ⟨timers, items⟩
  constructor
  · intro timer member
    exact lt_of_lt_of_le past (timers timer member)
  · intro item member
    exact lt_of_lt_of_le past (items item member)

theorem idle_of_none {deadline : SimTime} (isNext : sim.nextInstant = none) :
    sim.Idle deadline := by
  unfold nextInstant at isNext
  split at isNext
  · next noTimer noItem =>
      constructor
      · intro timer member
        rcases W.timers.nextDeadline_le member with ⟨due, isDue, -⟩
        rw [noTimer] at isDue
        contradiction
      · intro item member
        rcases sim.queue.nextDeadline_le member with ⟨due, isDue, -⟩
        rw [noItem] at isDue
        contradiction
  all_goals contradiction

/-- A loop that ends well leaves nothing to do by its deadline. -/
theorem idle_of_rounds {deadline : SimTime} {left : Nat}
    (ended : (rounds deadline left sim).1 = .ok ()) :
    (rounds deadline left sim).2.Idle deadline := by
  induction left generalizing sim with
  | zero =>
      unfold rounds at ended ⊢
      cases isNext : sim.nextInstant with
      | none => exact idle_of_none isNext
      | some instant =>
          simp only [isNext] at ended ⊢
          split at ended
          · next past =>
              rw [if_pos past]
              exact idle_of_lt isNext past
          · contradiction
  | succ left ih =>
      unfold rounds at ended ⊢
      cases isNext : sim.nextInstant with
      | none => exact idle_of_none isNext
      | some instant =>
          simp only [isNext] at ended ⊢
          by_cases past : deadline < instant
          · rw [if_pos past]
            exact idle_of_lt isNext past
          · rw [if_neg past] at ended ⊢
            rcases sim.turn_turned isNext with ⟨-, goesOn⟩
            generalize sim.turn instant = turned at goesOn ended ⊢
            rcases turned with ⟨reached, flag⟩
            cases goesOn
            exact ih ended

theorem Idle.settle {deadline : SimTime} (idle : sim.Idle deadline) :
    (sim.settle deadline).Idle deadline := by
  unfold Sim.settle
  split
  · exact idle
  · exact idle

theorem idle_of_runUntil {deadline : SimTime} (ended : (sim.runUntil deadline).1 = .ok ()) :
    (sim.runUntil deadline).2.Idle deadline := by
  unfold runUntil at ended ⊢
  have loop : (rounds deadline sim.budget sim.start).1 = .ok () →
      (rounds deadline sim.budget sim.start).2.Idle deadline := idle_of_rounds
  generalize rounds deadline sim.budget sim.start = looped at loop ended ⊢
  rcases looped with ⟨_ | _, reached⟩
  · contradiction
  · exact (loop rfl).settle

/-! ## Moves and calls -/

/-- A step of a run. -/
inductive Move (W : World) where
  | enqueue (due : SimTime) (fault : Fault)
  | setPartitioned (sender receiver : NodeId) (partitioned : Bool)
  | start
  | inject (sender receiver : NodeId) (message : W.Message)
  /-- One round of the loop. -/
  | turn
  | settle (deadline : SimTime)

def move (sim : Sim W) : Move W → Sim W
  | .enqueue due fault => sim.enqueue due fault
  | .setPartitioned sender receiver partitioned => sim.part sender receiver partitioned
  | .start => sim.start
  | .inject sender receiver message => sim.inject sender receiver message
  | .turn =>
      match sim.nextInstant with
      | none => sim
      | some instant => (sim.turn instant).1
  | .settle deadline => sim.settle deadline

/-- What a scenario calls once its nodes and links are set up. -/
inductive Call (W : World) where
  | schedule (entries : Schedule)
  | setPartitioned (sender receiver : NodeId) (partitioned : Bool)
  | start
  | inject (sender receiver : NodeId) (message : W.Message)
  | runUntil (deadline : SimTime)
  | advance (duration : Nat)

def call (sim : Sim W) : Call W → Except SimError Unit × Sim W
  | .schedule entries => (.ok (), sim.schedule entries)
  | .setPartitioned sender receiver partitioned =>
      (.ok (), sim.part sender receiver partitioned)
  | .start => (.ok (), sim.start)
  | .inject sender receiver message => (.ok (), sim.inject sender receiver message)
  | .runUntil deadline => sim.runUntil deadline
  | .advance duration => sim.advance duration

/-- The rounds of a loop. -/
def turns (deadline : SimTime) : Nat → Sim W → List (Move W)
  | 0, _ => []
  | left + 1, sim =>
      match sim.nextInstant with
      | none => []
      | some instant =>
          if deadline < instant then [] else .turn :: turns deadline left (sim.turn instant).1

def movesUntil (sim : Sim W) (deadline : SimTime) : List (Move W) :=
  .start :: turns deadline sim.budget sim.start ++
    match (rounds deadline sim.budget sim.start).1 with
    | .ok () => [.settle deadline]
    | .error _ => []

/-- The moves a call makes. -/
def movesOf (sim : Sim W) : Call W → List (Move W)
  | .schedule entries => entries.map fun entry => .enqueue entry.1 entry.2
  | .setPartitioned sender receiver partitioned => [.setPartitioned sender receiver partitioned]
  | .start => [.start]
  | .inject sender receiver message => [.inject sender receiver message]
  | .runUntil deadline => sim.movesUntil deadline
  | .advance duration => sim.movesUntil (sim.now.saturatingAdd duration)

/-- The deadline of a call that runs the loop. -/
def deadlineOf (sim : Sim W) : Call W → Option SimTime
  | .runUntil deadline => some deadline
  | .advance duration => some (sim.now.saturatingAdd duration)
  | _ => none

/-- A loop that ended well left nothing to do by its deadline. -/
theorem idle_of_call {each : Call W} {deadline : SimTime}
    (isDeadline : sim.deadlineOf each = some deadline) (ended : (sim.call each).1 = .ok ()) :
    (sim.call each).2.Idle deadline := by
  cases each with
  | runUntil _ =>
      cases isDeadline
      exact idle_of_runUntil ended
  | advance _ =>
      cases isDeadline
      exact idle_of_runUntil ended
  | _ => contradiction

/-- A simulation that takes one move after another. -/
def machine (W : World) : Machine (Sim W) (Move W) Empty :=
  fun sim move => (sim.move move, [])

/-- Where a sequence of calls leads. -/
def calls (sim : Sim W) (sequence : List (Call W)) : Sim W :=
  sequence.foldl (fun sim each => (sim.call each).2) sim

/-- The moves of a sequence of calls. -/
def moves : Sim W → List (Call W) → List (Move W)
  | _, [] => []
  | sim, first :: rest => sim.movesOf first ++ moves (sim.call first).2 rest

theorem after_turns (deadline : SimTime) (left : Nat) (sim : Sim W) :
    after (machine W) sim (turns deadline left sim) = (rounds deadline left sim).2 := by
  induction left generalizing sim with
  | zero =>
      unfold turns rounds
      split
      · rfl
      · split <;> rfl
  | succ left ih =>
      unfold turns rounds
      cases isNext : sim.nextInstant with
      | none => rfl
      | some instant =>
          by_cases past : deadline < instant
          · simp only [past, if_true, after_nil]
          · simp only [past, if_false, after_cons]
            have stepped : (machine W sim .turn).1 = (sim.turn instant).1 := by
              simp only [machine, move, isNext]
            rw [stepped, ih]
            rcases sim.turn_turned isNext with ⟨-, goesOn⟩
            generalize sim.turn instant = turned at goesOn
            rcases turned with ⟨reached, flag⟩
            cases goesOn
            rfl

theorem after_movesUntil (sim : Sim W) (deadline : SimTime) :
    after (machine W) sim (sim.movesUntil deadline) = (sim.runUntil deadline).2 := by
  have loop := after_turns deadline sim.budget sim.start
  unfold movesUntil runUntil
  rw [List.cons_append, after_cons, after_append]
  change after (machine W) (after (machine W) sim.start _) _ = _
  rw [loop]
  rcases rounds deadline sim.budget sim.start with ⟨_ | _, reached⟩ <;> rfl

/-- A call is the moves it makes. -/
theorem after_movesOf (sim : Sim W) (each : Call W) :
    after (machine W) sim (sim.movesOf each) = (sim.call each).2 := by
  cases each with
  | schedule entries =>
      simp only [movesOf, call, schedule]
      induction entries generalizing sim with
      | nil => rfl
      | cons entry rest ih => exact ih (sim.enqueue entry.1 entry.2)
  | setPartitioned sender receiver partitioned => rfl
  | start => rfl
  | inject sender receiver message => rfl
  | runUntil deadline => exact after_movesUntil sim deadline
  | advance duration => exact after_movesUntil sim _

theorem after_moves (sim : Sim W) (sequence : List (Call W)) :
    after (machine W) sim (sim.moves sequence) = sim.calls sequence := by
  induction sequence generalizing sim with
  | nil => rfl
  | cons first rest ih =>
      rw [moves, after_append, after_movesOf, ih]
      rfl

theorem calls_append (sim : Sim W) (first second : List (Call W)) :
    sim.calls (first ++ second) = (sim.calls first).calls second :=
  List.foldl_append

/-- The loop runs only once the nodes have started, and the clock jumps only where nothing is
left to do. -/
def Proper (sim : Sim W) : Move W → Prop
  | .turn => sim.started = true
  | .settle deadline => sim.Idle deadline
  | _ => True

theorem started_start (sim : Sim W) : sim.start.started = true := by
  unfold start
  split
  · assumption
  · have steps : ∀ (ids : List NodeId) (reached : Sim W), reached.started = true →
        (ids.foldl (fun sim id => (sim.record id .started none).hand id .started none)
          reached).started = true := by
      intro ids
      induction ids with
      | nil => exact fun _ started => started
      | cons id rest ih =>
          intro reached started
          apply ih
          rw [(extends_hand (reached.record id .started none) id .started none).started]
          exact started
    exact steps _ _ rfl

theorem proper_turns (deadline : SimTime) (left : Nat) {sim : Sim W}
    (started : sim.started = true) :
    Along (machine W) Proper sim (turns deadline left sim) := by
  induction left generalizing sim with
  | zero => exact along_nil _ _ _
  | succ left ih =>
      unfold turns
      split
      · exact along_nil _ _ _
      · next instant isNext =>
          split
          · exact along_nil _ _ _
          · have stepped : (machine W sim .turn).1 = (sim.turn instant).1 := by
              simp only [machine, move, isNext]
            rw [along_cons, stepped]
            refine ⟨started, ih ?_⟩
            rw [(extends_turned (turn_turned isNext).1).started]
            exact started

theorem proper_movesUntil (sim : Sim W) (deadline : SimTime) :
    Along (machine W) Proper sim (sim.movesUntil deadline) := by
  unfold movesUntil
  rw [List.cons_append, along_cons, along_append]
  change _ ∧ Along (machine W) Proper sim.start _ ∧
    Along (machine W) Proper (after (machine W) sim.start _) _
  rw [after_turns]
  refine ⟨trivial, proper_turns _ _ sim.started_start, ?_⟩
  cases ended : (rounds deadline sim.budget sim.start).1 with
  | ok => exact ⟨idle_of_rounds ended, trivial⟩
  | error error => exact along_nil _ _ _

theorem proper_movesOf (sim : Sim W) (each : Call W) :
    Along (machine W) Proper sim (sim.movesOf each) := by
  cases each with
  | schedule entries =>
      have enqueued : ∀ move ∈ entries.map fun entry => Move.enqueue (W := W) entry.1 entry.2,
          ∃ due fault, move = .enqueue due fault := by
        intro move member
        rcases List.mem_map.mp member with ⟨entry, -, rfl⟩
        exact ⟨entry.1, entry.2, rfl⟩
      apply (along_of_inputs (machine W) sim enqueued).mono
      rintro _ _ ⟨due, fault, rfl⟩
      trivial
  | setPartitioned sender receiver partitioned => exact ⟨trivial, trivial⟩
  | start => exact ⟨trivial, trivial⟩
  | inject sender receiver message => exact ⟨trivial, trivial⟩
  | runUntil deadline => exact proper_movesUntil sim deadline
  | advance duration => exact proper_movesUntil sim _

theorem proper_moves (sim : Sim W) (sequence : List (Call W)) :
    Along (machine W) Proper sim (sim.moves sequence) := by
  induction sequence generalizing sim with
  | nil => exact along_nil _ _ _
  | cons first rest ih =>
      rw [moves, along_append, after_movesOf]
      exact ⟨proper_movesOf sim first, ih _⟩

/-- A property that every move keeps, where the clock jumps only over silence and the condition
holds, holds wherever calls lead. -/
theorem calls_induction {condition : Sim W → Move W → Prop} (invariant : Sim W → Prop)
    (initial : invariant sim) (kept : ∀ (reached : Sim W) (move : Move W), invariant reached →
      reached.Proper move → condition reached move → invariant (reached.move move))
    {sequence : List (Call W)} (along : Along (machine W) condition sim (sim.moves sequence)) :
    invariant (sim.calls sequence) := by
  have both := (sim.proper_moves sequence).and along
  rw [← after_moves]
  exact (machine W).run_induction (fun _ _ state => invariant state) initial
    (fun _ _ state move holds each => kept state move holds each.1 each.2) both

end Sim

end SipxClstr.Simulation
