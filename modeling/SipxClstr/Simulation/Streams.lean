import SipxClstr.Simulation.Run
import SipxClstr.Reactive.Channel

/-!
# Streams

A stream link is a channel.  What is queued for its receiver on the present connection and what
its sender holds for it is what is under way, in the order in which it will arrive.
-/

namespace SipxClstr.Simulation

open SipxClstr.Sip Reactive Machine

/-! ## What is queued, in the order it is taken -/

namespace EventQueue

universe u v

variable {T : Type u} {β : Type v}

/-- What the items of a queue come to, in the order they are taken. -/
def gathered (queue : EventQueue T) (f : T → Option β) : List β :=
  queue.heap.filterMap fun item => f item.payload

/-- An item goes behind what is due no later. -/
theorem heap_scheduleAt (queue : EventQueue T) (due : SimTime) (payload : T) :
    ∃ before behind, queue.heap = before ++ behind ∧
      (queue.scheduleAt due payload).heap = before ++ ⟨due, queue.nextSeq, payload⟩ :: behind ∧
      ∀ other ∈ behind, due < other.due := by
  refine ⟨queue.heap.filter fun other => other.due ≤ due,
    queue.heap.filter fun other => due < other.due, ?_, rfl, ?_⟩
  · have ordered := queue.ordered
    generalize queue.heap = heap at ordered ⊢
    induction heap with
    | nil => rfl
    | cons first rest ih =>
        obtain ⟨least, others⟩ := List.pairwise_cons.mp ordered
        rcases le_or_gt first.due due with early | late
        · simpa [early, not_lt.mpr early] using ih others
        · have allLate : ∀ other ∈ rest, due < other.due := by
            intro other member
            exact lt_of_lt_of_le late (least other member).due_le
          have noneEarly : rest.filter (fun other => other.due ≤ due) = [] := by
            apply List.filter_eq_nil_iff.mpr
            intro other member
            simpa using allLate other member
          have everyLate : rest.filter (fun other => due < other.due) = rest := by
            apply List.filter_eq_self.mpr
            intro other member
            exact decide_eq_true (allLate other member)
          simp [late, not_le.mpr late, noneEarly, everyLate]
  · intro other member
    exact of_decide_eq_true (List.mem_filter.mp member).2

variable {queue : EventQueue T} {f : T → Option β} {due : SimTime} {payload : T}

theorem gathered_scheduleAt_of_none (isNone : f payload = none) :
    (queue.scheduleAt due payload).gathered f = queue.gathered f := by
  obtain ⟨before, behind, isHeap, placed, -⟩ := queue.heap_scheduleAt due payload
  simp [gathered, isHeap, placed, isNone]

/-- What is due no earlier than all that is gathered comes last. -/
theorem gathered_scheduleAt (payload : T)
    (last : ∀ item ∈ queue.heap, (f item.payload).isSome →
      item.due ≤ due) :
    (queue.scheduleAt due payload).gathered f = queue.gathered f ++ (f payload).toList := by
  obtain ⟨before, behind, isHeap, placed, late⟩ := queue.heap_scheduleAt due payload
  have nothing : behind.filterMap (fun item => f item.payload) = [] := by
    apply List.filterMap_eq_nil_iff.mpr
    intro item member
    by_contra some
    have early := last item (by simp [isHeap, member]) (Option.isSome_iff_ne_none.mpr some)
    exact absurd (late item member) (not_lt.mpr early)
  cases isSome : f payload <;> simp [gathered, isHeap, placed, nothing, isSome]

theorem gathered_scheduleAll {payloads : List T} (isNone : ∀ payload ∈ payloads, f payload = none) :
    (queue.scheduleAll due payloads).gathered f = queue.gathered f := by
  induction payloads generalizing queue with
  | nil => rfl
  | cons payload rest ih =>
      have others : ∀ payload ∈ rest, f payload = none := by
        intro other member
        exact isNone other (List.mem_cons_of_mem _ member)
      exact (ih others).trans (gathered_scheduleAt_of_none (isNone payload List.mem_cons_self))

theorem scheduleAll_concat (queue : EventQueue T) (due : SimTime) (payloads : List T)
    (payload : T) : queue.scheduleAll due (payloads ++ [payload]) =
      (queue.scheduleAll due payloads).scheduleAt due payload :=
  List.foldl_append

theorem gathered_of_pop {behind : EventQueue T} {item : Scheduled T}
    (popped : queue.pop = some (item, behind)) :
    queue.gathered f = (f item.payload).toList ++ behind.gathered f := by
  obtain ⟨isHeap, -, -⟩ := pop_eq_some popped
  cases isSome : f item.payload <;> simp [gathered, isHeap, isSome]

end EventQueue

/-! ## The traffic of one direction -/

section Traffic

variable (W : World) (a b : NodeId)

/-- What a write of `a` to `b` is read as at its arrival. -/
def carries (sender receiver : NodeId) (bytes : Bytes) : Option W.Message :=
  if sender = a ∧ receiver = b then (W.parseDatagram bytes).toOption else none

/-- The connection from `a` to `b` that an event is an arrival on. -/
def Event.connection? : Event → Option Nat
  | .deliver sender receiver _ connection _ =>
      if sender = a ∧ receiver = b then some connection else none
  | _ => none

/-- What arrives from `a` to `b` on this connection when an event is taken. -/
def Event.carried (connection : Nat) : Event → Option W.Message
  | .deliver sender receiver bytes writtenOn _ =>
      if writtenOn = connection then carries W a b sender receiver bytes else none
  | _ => none

/-- What is held of the writes of `a` to `b`. -/
def waitingFor (held : List HeldWrite) : List W.Message :=
  held.filterMap fun write => carries W a b write.sender write.receiver write.bytes

/-- The faults that replace the connection from `a` to `b`, among so many nodes. -/
def Fault.replaces (count : Nat) : Fault → Bool
  | .reconnect x y => (x = a ∧ y = b) ∨ (x = b ∧ y = a)
  | .restartNode node => a ≠ b ∧ ((node = a ∧ b < count) ∨ (node = b ∧ a < count))
  | _ => false

/-- What an entry of the log is to the traffic from `a` to `b`: the sender wants a message sent,
the receiver is handed one that was written to the link, or a fault replaces the connection. -/
def Record.mark (count : Nat) : Record W.Message → Mark W.Message
  | .performed _ node (.send receiver message) =>
      (carries W a b node receiver (W.toBytes message)).elim .idle .written
  | .called _ node (.message sender message) (some _) =>
      if sender = a ∧ node = b then .arrived message else .idle
  | .applied fault => if fault.replaces a b count then .replaced else .idle
  | _ => .idle

variable {W a b} {connection : Nat} {event : Event}

theorem Event.carried_of_connection? (isNone : event.connection? a b = none) :
    event.carried W a b connection = none := by
  cases event with
  | deliver sender receiver bytes writtenOn write =>
      have other : ¬ (sender = a ∧ receiver = b) := by
        simpa [connection?] using isNone
      simp [carried, carries, other]
  | _ => rfl

/-- What was written on another connection does not arrive. -/
theorem Event.carried_of_ne {writtenOn : Nat} (isSome : event.connection? a b = some writtenOn)
    (replaced : writtenOn ≠ connection) : event.carried W a b connection = none := by
  cases event with
  | deliver sender receiver bytes number write =>
      have same : number = writtenOn := by
        simp only [connection?] at isSome
        split at isSome
        · exact Option.some.inj isSome
        · contradiction
      simp [carried, same, replaced]
  | _ => rfl

theorem waitingFor_cons (write : HeldWrite) (held : List HeldWrite) :
    waitingFor W a b (write :: held) =
      (carries W a b write.sender write.receiver write.bytes).toList ++ waitingFor W a b held := by
  cases isRead : carries W a b write.sender write.receiver write.bytes <;>
    simp [waitingFor, isRead]

theorem waitingFor_concat (held : List HeldWrite) (write : HeldWrite) :
    waitingFor W a b (held ++ [write]) = waitingFor W a b held ++
      (carries W a b write.sender write.receiver write.bytes).toList := by
  rw [waitingFor, List.filterMap_append]
  change _ ++ waitingFor W a b [write] = _
  rw [waitingFor_cons]
  exact congrArg (waitingFor W a b held ++ ·) (List.append_nil _)

theorem waitingFor_filter {held : List HeldWrite} {keep : HeldWrite → Bool}
    (kept : ∀ write : HeldWrite, write.sender = a → write.receiver = b → keep write = true) :
    waitingFor W a b (held.filter keep) = waitingFor W a b held := by
  rw [waitingFor, List.filterMap_filter]
  congr
  funext write
  by_cases isKept : keep write = true
  · rw [if_pos isKept]
  · rw [if_neg isKept]
    symm
    apply if_neg
    rintro ⟨isSender, isReceiver⟩
    exact isKept (kept write isSender isReceiver)

theorem waitingFor_eq_nil {held : List HeldWrite}
    (others : ∀ write ∈ held, ¬ (write.sender = a ∧ write.receiver = b)) :
    waitingFor W a b held = [] := by
  apply List.filterMap_eq_nil_iff.mpr
  intro write member
  exact if_neg (others write member)

end Traffic

namespace Sim

variable {W : World} {sim next : Sim W} {a b : NodeId} {ahead waiting : List W.Message}

/-- What is queued from `a` to `b` on their connection. -/
def inFlight (sim : Sim W) (a b : NodeId) : List W.Message :=
  sim.queue.gathered (Event.carried W a b (sim.connections a b))

/-- Nothing is queued from `a` to `b` behind the last arrival on their link, or for a connection
there is not yet. -/
structure Lined (a b : NodeId) (sim : Sim W) : Prop where
  isStream : (sim.linkBetween a b).kind = .stream
  early : ∀ item ∈ sim.queue.heap, ∀ connection, item.payload.connection? a b = some connection →
    connection ≤ sim.connections a b ∧
      ∃ last, (sim.linkBetween a b).lastArrival = some last ∧ item.due ≤ last

namespace Lined

/-- The links go on, the connections only grow, and nothing is queued that arrives. -/
theorem congr (lined : Lined a b sim)
    (kind : (next.linkBetween a b).kind = (sim.linkBetween a b).kind)
    (arrival : (next.linkBetween a b).lastArrival = (sim.linkBetween a b).lastArrival)
    (grown : sim.connections a b ≤ next.connections a b)
    (queue : ∀ item ∈ next.queue.heap, item ∈ sim.queue.heap ∨
      item.payload.connection? a b = none) : Lined a b next where
  isStream := kind.trans lined.isStream
  early := by
    intro item member connection isSome
    rcases queue item member with stood | isNone
    · obtain ⟨known, last, isLast, early⟩ := lined.early item stood connection isSome
      exact ⟨known.trans grown, last, arrival.trans isLast, early⟩
    · rw [isNone] at isSome
      contradiction

/-- What is under way on a connection is lost with it. -/
theorem inFlight_eq_nil (lined : Lined a b sim)
    (queue : next.queue.gathered (Event.carried W a b (next.connections a b)) =
      sim.queue.gathered (Event.carried W a b (next.connections a b)))
    (replaced : sim.connections a b < next.connections a b) : next.inFlight a b = [] := by
  rw [inFlight, queue]
  apply List.filterMap_eq_nil_iff.mpr
  intro item member
  cases isSome : item.payload.connection? a b with
  | none => exact Event.carried_of_connection? isSome
  | some writtenOn =>
      have known := (lined.early item member writtenOn isSome).1
      exact Event.carried_of_ne isSome (lt_of_le_of_lt known replaced).ne

end Lined

/-- The log and the queue are those of a channel: what is taken from the queue stands before what
is queued, and what waits at the sender behind it. -/
structure Streaming (a b : NodeId) (sim : Sim W) (ahead waiting : List W.Message) : Prop where
  lined : Lined a b sim
  channel : Channel (Record.mark W a b sim.nodes.length) sim.log
    (ahead ++ sim.inFlight a b ++ waiting)

/-- What happens aside from the traffic from `a` to `b`, though their connection may be
replaced. -/
structure Aside (a b : NodeId) (sim next : Sim W) : Prop where
  length : next.nodes.length = sim.nodes.length
  kind : (next.linkBetween a b).kind = (sim.linkBetween a b).kind
  arrival : (next.linkBetween a b).lastArrival = (sim.linkBetween a b).lastArrival
  grown : sim.connections a b ≤ next.connections a b
  queue : ∀ item ∈ next.queue.heap, item ∈ sim.queue.heap ∨ item.payload.connection? a b = none
  gathered : ∀ connection, next.queue.gathered (Event.carried W a b connection) =
    sim.queue.gathered (Event.carried W a b connection)
  log : ∃ extra, next.log = sim.log ++ extra ∧
    ∀ record ∈ extra, record.mark W a b sim.nodes.length = .idle

theorem channel_append {count : Nat} {log extra : List (Record W.Message)}
    {transit : List W.Message} (channel : Channel (Record.mark W a b count) log transit)
    (idle : ∀ record ∈ extra, record.mark W a b count = .idle) :
    Channel (Record.mark W a b count) (log ++ extra) transit := by
  induction extra generalizing log with
  | nil => exact (List.append_nil log).symm ▸ channel
  | cons record rest ih =>
      rw [List.append_cons]
      apply ih (channel.idles record (idle record List.mem_cons_self))
      intro other member
      exact idle other (List.mem_cons_of_mem _ member)

namespace Aside

theorem lined (aside : Aside a b sim next) (lined : Lined a b sim) : Lined a b next :=
  lined.congr aside.kind aside.arrival aside.grown aside.queue

theorem inFlight_sublist (aside : Aside a b sim next) (lined : Lined a b sim) :
    (next.inFlight a b).Sublist (sim.inFlight a b) := by
  rcases aside.grown.lt_or_eq with replaced | same
  · rw [lined.inFlight_eq_nil (aside.gathered _) replaced]
    exact List.nil_sublist _
  · rw [inFlight, aside.gathered, ← same]
    exact List.Sublist.refl _

theorem streaming (aside : Aside a b sim next) (streaming : Streaming a b sim ahead waiting) :
    Streaming a b next ahead waiting where
  lined := aside.lined streaming.lined
  channel := by
    obtain ⟨extra, isLog, idle⟩ := aside.log
    rw [isLog, aside.length]
    apply (channel_append streaming.channel idle).loses
    have fewer := aside.inFlight_sublist streaming.lined
    exact ((List.Sublist.refl ahead).append fewer).append (.refl waiting)

/-- Where the connection is replaced, nothing is under way. -/
theorem emptied (aside : Aside a b sim next) (lined : Lined a b sim)
    (empty : Channel (Record.mark W a b sim.nodes.length) sim.log [])
    (flight : next.inFlight a b = []) : Streaming a b next [] [] where
  lined := aside.lined lined
  channel := by
    obtain ⟨extra, isLog, idle⟩ := aside.log
    rw [isLog, aside.length, flight]
    exact channel_append empty idle

theorem trans {last : Sim W} (first : Aside a b sim next) (second : Aside a b next last) :
    Aside a b sim last where
  length := second.length.trans first.length
  kind := second.kind.trans first.kind
  arrival := second.arrival.trans first.arrival
  grown := first.grown.trans second.grown
  queue := by
    intro item member
    rcases second.queue item member with stood | isNone
    · exact first.queue item stood
    · exact .inr isNone
  gathered connection := (second.gathered connection).trans (first.gathered connection)
  log := by
    obtain ⟨before, isBefore, idle⟩ := first.log
    obtain ⟨behind, isBehind, stillIdle⟩ := second.log
    refine ⟨before ++ behind, by rw [isBehind, isBefore, List.append_assoc], ?_⟩
    intro record member
    rcases List.mem_append.mp member with early | late
    · exact idle record early
    · rw [← first.length]
      exact stillIdle record late

/-- Nothing but what the traffic does not depend on, and idle lines of the log. -/
theorem written (sim : Sim W) {log extra : List (Record W.Message)} (isLog : log = sim.log ++ extra)
    (idle : ∀ record ∈ extra, record.mark W a b sim.nodes.length = .idle) (now : SimTime)
    (timers : W.timers.Queue) (started : Bool) (killed : NodeId → Bool)
    (skew : NodeId → Option Nat) (restarts : NodeId → Nat) (notReading : NodeId → Bool)
    (held : List HeldWrite) (writes : Nat) :
    Aside a b sim
      { sim with log, now, timers, started, killed, skew, restarts, notReading, held, writes } :=
  ⟨rfl, rfl, rfl, le_rfl, fun _ => .inl, fun _ => rfl, extra, isLog, idle⟩

theorem one (sim : Sim W) {record : Record W.Message}
    (idle : record.mark W a b sim.nodes.length = .idle) :
    Aside a b sim { sim with log := sim.log ++ [record] } :=
  .written sim rfl (by simpa using idle) _ _ _ _ _ _ _ _ _

theorem silent (sim : Sim W) (now : SimTime) (timers : W.timers.Queue) (started : Bool)
    (killed : NodeId → Bool) (skew : NodeId → Option Nat) (restarts : NodeId → Nat)
    (notReading : NodeId → Bool) (held : List HeldWrite) (writes : Nat) :
    Aside a b sim
      { sim with now, timers, started, killed, skew, restarts, notReading, held, writes } :=
  .written sim (List.append_nil _).symm (by simp) _ _ _ _ _ _ _ _ _

theorem scheduled (sim : Sim W) (due : SimTime) (event : Event)
    (isNone : event.connection? a b = none) :
    Aside a b sim { sim with queue := sim.queue.scheduleAt due event } where
  length := rfl
  kind := rfl
  arrival := rfl
  grown := le_rfl
  queue := by
    intro item member
    rcases EventQueue.mem_scheduleAt.mp member with stood | rfl
    · exact .inl stood
    · exact .inr isNone
  gathered _ := EventQueue.gathered_scheduleAt_of_none (Event.carried_of_connection? isNone)
  log := ⟨[], (List.append_nil _).symm, by simp⟩

theorem scheduledAll (sim : Sim W) (due : SimTime) {events : List Event}
    (areNone : ∀ event ∈ events, event.connection? a b = none) :
    Aside a b sim { sim with queue := sim.queue.scheduleAll due events } where
  length := rfl
  kind := rfl
  arrival := rfl
  grown := le_rfl
  queue := by
    intro item member
    rcases EventQueue.mem_of_mem_scheduleAll member with stood | ⟨-, -, isIn⟩
    · exact .inl stood
    · exact .inr (areNone item.payload isIn)
  gathered connection := by
    apply EventQueue.gathered_scheduleAll
    intro event member
    exact Event.carried_of_connection? (areNone event member)
  log := ⟨[], (List.append_nil _).symm, by simp⟩

/-- Connections are replaced, and what is queued for it does not arrive. -/
theorem renewed (sim : Sim W) {connections : NodeId → NodeId → Nat} {events : List Event}
    (grown : sim.connections a b ≤ connections a b)
    (areNone : ∀ event ∈ events, event.connection? a b = none) :
    Aside a b sim
      { sim with connections, queue := sim.queue.scheduleAll sim.now events } where
  length := rfl
  kind := rfl
  arrival := rfl
  grown := grown
  queue := (scheduledAll sim sim.now areNone).queue
  gathered := (scheduledAll sim sim.now areNone).gathered
  log := ⟨[], (List.append_nil _).symm, by simp⟩

theorem linked (sim : Sim W) (links : NodeId → NodeId → Option Link)
    (kind : (({ sim with links } : Sim W).linkBetween a b).kind = (sim.linkBetween a b).kind)
    (arrival : (({ sim with links } : Sim W).linkBetween a b).lastArrival =
      (sim.linkBetween a b).lastArrival) : Aside a b sim { sim with links } :=
  ⟨rfl, kind, arrival, le_rfl, fun _ => .inl, fun _ => rfl, [], (List.append_nil _).symm, by simp⟩

theorem cut {pairs : NodeId → NodeId → Prop} {partitioned : Bool}
    (cut : Cut sim next pairs partitioned) : Aside a b sim next := by
  obtain ⟨links, rfl, each⟩ := cut
  exact .linked sim links (each a b).1 (each a b).2.1

/-- A write crosses another link. -/
theorem crossed {sender receiver write : Nat} {bytes : Bytes} {summary : Text}
    (other : ¬ (sender = a ∧ receiver = b))
    (crossed : Crossed sim sender receiver bytes summary write next) : Aside a b sim next := by
  have apart : ¬ (a = sender ∧ b = receiver) := by
    rintro ⟨rfl, rfl⟩
    exact other ⟨rfl, rfl⟩
  have relinked : ∀ link, Aside a b sim
      { sim with links := setPair sim.links sender receiver (some link) } := by
    intro link
    apply Aside.linked <;> simp only [linkBetween, setPair_of_ne apart] <;> rfl
  have arrives : ∀ connection, (Event.deliver sender receiver bytes connection write).connection?
      a b = none := by
    intro connection
    exact if_neg other
  cases crossed with
  | dropped link => exact (relinked link).trans (.one _ rfl)
  | broken link => exact (relinked link).trans (.scheduled _ _ _ rfl)
  | once link due =>
      exact (relinked link).trans ((Aside.scheduled _ due _ (arrives _)).trans (.one _ rfl))
  | twice link first second =>
      apply (relinked link).trans
      apply (Aside.scheduled _ first _ (arrives _)).trans
      apply (Aside.scheduled _ second _ (arrives _)).trans
      exact .written _ rfl (by simp [Record.mark]) _ _ _ _ _ _ _ _ _

end Aside

namespace Streaming

/-- Some of what is under way is lost. -/
theorem loses {fewer left : List W.Message} (streaming : Streaming a b sim ahead waiting)
    (fewerAhead : fewer.Sublist ahead) (fewerWait : left.Sublist waiting) :
    Streaming a b sim fewer left :=
  ⟨streaming.lined,
    streaming.channel.loses ((fewerAhead.append (.refl (sim.inFlight a b))).append fewerWait)⟩

/-- A write that was waiting is put on the link, behind all that is queued. -/
theorem launches {link : Link} {due : SimTime} {bytes : Bytes} {write : Nat}
    (streaming : Streaming a b sim ahead ((carries W a b a b bytes).toList ++ waiting))
    (kind : link.kind = (sim.linkBetween a b).kind) (isLast : link.lastArrival = some due)
    (behind : ∀ previous, (sim.linkBetween a b).lastArrival = some previous → previous ≤ due) :
    Streaming a b { sim with
      links := setPair sim.links a b (some link)
      queue := sim.queue.scheduleAt due (.deliver a b bytes (sim.connections a b) write)
      log := sim.log ++ [.crossed a b write] } ahead waiting := by
  have isLink : ∀ queue log, ({ sim with
      links := setPair sim.links a b (some link), queue, log } : Sim W).linkBetween a b = link := by
    intro queue log
    simp [linkBetween]
  have queued : ∀ item ∈ sim.queue.heap, ∀ connection,
      item.payload.connection? a b = some connection → item.due ≤ due := by
    intro item member connection isSome
    obtain ⟨-, last, wasLast, early⟩ := streaming.lined.early item member connection isSome
    exact early.trans (behind last wasLast)
  constructor
  · constructor
    · rw [isLink]
      exact kind.trans streaming.lined.isStream
    · intro item member connection isSome
      rw [isLink]
      rcases EventQueue.mem_scheduleAt.mp member with stood | rfl
      · have known := (streaming.lined.early item stood connection isSome).1
        exact ⟨known, due, isLast, queued item stood connection isSome⟩
      · have same : sim.connections a b = connection := by
          simpa [Event.connection?] using isSome
        exact ⟨same.ge, due, isLast, le_rfl⟩
  · have last : ∀ item ∈ sim.queue.heap,
        (item.payload.carried W a b (sim.connections a b)).isSome → item.due ≤ due := by
      intro item member isSome
      cases connected : item.payload.connection? a b with
      | none =>
          rw [Event.carried_of_connection? connected] at isSome
          contradiction
      | some connection => exact queued item member connection connected
    have flight := EventQueue.gathered_scheduleAt
      (Event.deliver a b bytes (sim.connections a b) write) last
    have carried : (Event.deliver a b bytes (sim.connections a b) write).carried W a b
        (sim.connections a b) = carries W a b a b bytes := if_pos rfl
    rw [carried] at flight
    have channel := streaming.channel.idles (.crossed a b write) rfl
    simpa only [inFlight, flight, List.append_assoc] using channel

/-- A write that was waiting crosses a link. -/
theorem crossed {sender receiver write : Nat} {bytes : Bytes} {summary : Text}
    (streaming : Streaming a b sim ahead
      ((carries W a b sender receiver bytes).toList ++ waiting))
    (crossed : Crossed sim sender receiver bytes summary write next) :
    Streaming a b next ahead waiting := by
  by_cases own : sender = a ∧ receiver = b
  · rcases own with ⟨rfl, rfl⟩
    have lost : Streaming sender receiver sim ahead waiting :=
      streaming.loses (.refl ahead) (List.sublist_append_right _ waiting)
    cases crossed with
    | dropped link kind policy kept =>
        have relinked := Aside.linked (a := sender) (b := receiver) sim
          (setPair sim.links sender receiver (some link)) (by simpa [linkBetween] using kind)
          (by simpa [linkBetween] using kept)
        exact (relinked.trans (.one _ rfl)).streaming lost
    | broken link kind policy kept =>
        have relinked := Aside.linked (a := sender) (b := receiver) sim
          (setPair sim.links sender receiver (some link)) (by simpa [linkBetween] using kind)
          (by simpa [linkBetween] using kept)
        exact (relinked.trans (.scheduled _ _ _ rfl)).streaming lost
    | once link due kind policy later runs inOrder =>
        obtain ⟨isLast, behind⟩ := inOrder streaming.lined.isStream
        exact streaming.launches kind isLast behind
    | twice link first second kind policy later runs datagram =>
        rw [streaming.lined.isStream] at datagram
        contradiction
  · have nothing : carries W a b sender receiver bytes = none := if_neg own
    rw [nothing] at streaming
    exact (Aside.crossed own crossed).streaming streaming

end Streaming

/-! ## What is held -/

theorem Crossed.held {sender receiver write : Nat} {bytes : Bytes} {summary : Text}
    (crossed : Crossed sim sender receiver bytes summary write next) : next.held = sim.held := by
  cases crossed <;> rfl

/-- What is held is held for nodes that run and are not reading. -/
structure Stalls (sim : Sim W) : Prop where
  held : ∀ write ∈ sim.held, sim.notReading write.receiver = true
  alive : ∀ node, sim.notReading node = true → sim.killed node = false

/-- The traffic from `a` to `b` is that of a channel. -/
structure Streams (a b : NodeId) (sim : Sim W) (ahead : List W.Message) : Prop where
  streaming : Streaming a b sim ahead (waitingFor W a b sim.held)
  stalls : Stalls sim

theorem Stalls.congr (stalls : Stalls sim) (held : next.held = sim.held)
    (notReading : next.notReading = sim.notReading) (killed : next.killed = sim.killed) :
    Stalls next where
  held := by
    rw [held, notReading]
    exact stalls.held
  alive := by
    rw [notReading, killed]
    exact stalls.alive

namespace Streams

theorem of_aside (streams : Streams a b sim ahead) (aside : Aside a b sim next)
    (held : next.held = sim.held) (notReading : next.notReading = sim.notReading)
    (killed : next.killed = sim.killed) : Streams a b next ahead where
  streaming := held ▸ aside.streaming streams.streaming
  stalls := streams.stalls.congr held notReading killed

theorem record (streams : Streams a b sim ahead) (node : NodeId) (event : TraceEvent)
    (write : Option Nat) : Streams a b (sim.record node event write) ahead :=
  streams.of_aside (.one sim rfl) rfl rfl rfl

/-- What was taken from the queue is lost. -/
theorem drops (streams : Streams a b sim ahead) : Streams a b sim [] :=
  ⟨streams.streaming.loses (List.nil_sublist _) (.refl _), streams.stalls⟩

theorem send {sender receiver : NodeId} {message : W.Message}
    (streaming : Streaming a b sim [] (waitingFor W a b sim.held ++
      (carries W a b sender receiver (W.toBytes message)).toList))
    (stalls : Stalls sim) (runs : sim.killed sender = false) : Streams a b (sim.send sender receiver message) [] := by
  rcases sim.send_cases sender receiver message with ⟨-, -, stops, same⟩ | ⟨goes, crossed⟩
  · have aside : Aside a b sim (sim.send sender receiver message) := by
      rw [same]
      exact (Aside.scheduled sim sim.now _ rfl).trans
        (.written _ rfl (by simp [Record.mark]) _ _ _ _ _ _ _ _ _)
    have reached := aside.streaming streaming
    rw [same] at reached ⊢
    refine ⟨?_, ?_, stalls.alive⟩
    · rw [waitingFor_concat]
      exact reached
    · intro write member
      rcases List.mem_append.mp member with stood | isNew
      · exact stalls.held write stood
      · obtain rfl := List.mem_singleton.mp isNew
        exact stops
  · have commutes : waitingFor W a b sim.held ++
        (carries W a b sender receiver (W.toBytes message)).toList =
          (carries W a b sender receiver (W.toBytes message)).toList ++
            waitingFor W a b sim.held := by
      by_cases own : sender = a ∧ receiver = b
      · rcases own with ⟨rfl, rfl⟩
        have nothing : waitingFor W sender receiver sim.held = [] := by
          apply waitingFor_eq_nil
          rintro write member ⟨-, rfl⟩
          have stops := stalls.held write member
          rw [goes runs (stalls.alive _ stops)] at stops
          contradiction
        rw [nothing, List.append_nil, List.nil_append]
      · have nothing : carries W a b sender receiver (W.toBytes message) = none := if_neg own
        rw [nothing, Option.toList_none, List.append_nil, List.nil_append]
    rw [commutes] at streaming
    have sent : Aside a b sim { sim with
        log := sim.log ++ [.traced sim.now sender (sim.nameOf sender)
          (.sent receiver (W.summarize message)) (some sim.writes)]
        writes := sim.writes + 1 } := .written sim rfl (by simp [Record.mark]) _ _ _ _ _ _ _ _ _
    have reached := (sent.streaming streaming).crossed crossed
    have steady := send_steady sim sender receiver message
    have held : (sim.send sender receiver message).held = sim.held := crossed.held
    exact ⟨held ▸ reached, stalls.congr held steady.notReading steady.killed⟩

theorem performOne {node : NodeId} {effect : Effect W.Message} (streams : Streams a b sim [])
    (runs : sim.Runs node) : Streams a b (performOne node sim effect) [] := by
  cases effect with
  | send receiver message =>
      have wanted : Streaming a b
          { sim with log := sim.log ++ [.performed sim.now node (.send receiver message)] } []
          (waitingFor W a b sim.held ++
            (carries W a b node receiver (W.toBytes message)).toList) := by
        refine ⟨streams.streaming.lined.congr rfl rfl le_rfl fun _ => .inl, ?_⟩
        have channel := streams.streaming.channel
        rw [List.nil_append] at channel ⊢
        cases isRead : carries W a b node receiver (W.toBytes message) with
        | none =>
            have idle : Record.mark W a b sim.nodes.length
                (.performed sim.now node (.send receiver message)) = .idle := by
              simp [Record.mark, isRead]
            rw [Option.toList_none, List.append_nil]
            exact channel.idles _ idle
        | some read =>
            have isWrite : Record.mark W a b sim.nodes.length
                (.performed sim.now node (.send receiver message)) = .written read := by
              simp [Record.mark, isRead]
            have longer := channel.writes isWrite
            rw [List.append_assoc] at longer
            exact longer
      exact send wanted (streams.stalls.congr rfl rfl rfl) runs.1
  | setTimer timer after =>
      exact streams.of_aside ((Aside.one sim rfl).trans (.written _ rfl (by simp [Record.mark])
        _ _ _ _ _ _ _ _ _)) rfl rfl rfl
  | clearTimer timer =>
      exact streams.of_aside ((Aside.one sim rfl).trans (.written _ rfl (by simp [Record.mark])
        _ _ _ _ _ _ _ _ _)) rfl rfl rfl
  | note what => exact streams.of_aside ((Aside.one sim rfl).trans (.one _ rfl)) rfl rfl rfl

/-- A node is handed what was taken for it, or something else. -/
theorem hand {node : NodeId} {input : Input W.Message} {write : Option Nat}
    (streams : Streams a b sim ahead)
    (handed : Record.mark W a b sim.nodes.length (.called sim.now node input write) = .idle ∨
      ∃ message, ahead = [message] ∧
        Record.mark W a b sim.nodes.length (.called sim.now node input write) = .arrived message) :
    Streams a b (sim.hand node input write) [] := by
  apply hand_induction (fun reached => Streams a b reached [])
  · exact fun _ => streams.drops
  · intro nodes runs steady
    have kept : Aside a b sim { sim with nodes } := by
      refine ⟨steady.length, ?_, ?_, le_rfl, fun _ => .inl, fun _ => rfl, [],
        (List.append_nil _).symm, by simp⟩
      · simp only [linkBetween, linkLabel, steady.names]
      · simp only [linkBetween, linkLabel, steady.names]
    have length : ({ sim with nodes } : Sim W).nodes.length = sim.nodes.length := steady.length
    have reached := streams.of_aside kept rfl rfl rfl
    rcases handed with idle | ⟨message, rfl, isArrival⟩
    · rw [← length] at idle
      exact reached.drops.of_aside (.one _ idle) rfl rfl rfl
    · rw [← length] at isArrival
      refine ⟨⟨reached.streaming.lined.congr rfl rfl le_rfl fun _ => .inl, ?_⟩,
        reached.stalls.congr rfl rfl rfl⟩
      exact reached.streaming.channel.arrives isArrival
  · intro reached effect _ runs streams
    exact streams.performOne runs

theorem handleDelivery {sender receiver : NodeId} {bytes : Bytes} {connection write : Nat}
    (streams : Streams a b sim
      ((Event.deliver sender receiver bytes connection write).carried W a b
        (sim.connections a b)).toList) :
    Streams a b (sim.handleDelivery sender receiver bytes connection write) [] := by
  unfold Sim.handleDelivery
  cases isRead : W.parseDatagram bytes with
  | error reason => exact streams.drops.record _ _ _
  | ok message =>
      simp only
      split
      · exact streams.drops.record _ _ _
      · next present =>
          rw [not_not] at present
          apply (streams.record _ _ _).hand
          by_cases own : sender = a ∧ receiver = b
          · right
            rcases own with ⟨rfl, rfl⟩
            refine ⟨message, ?_, ?_⟩
            · simp [Event.carried, carries, present, isRead, Except.toOption]
            · simp [Record.mark]
          · left
            simp [Record.mark, own]

end Streams

/-! ## Faults -/

/-- What a fault does that lets nothing go: the traffic goes on, and some of what is held is
discarded. -/
structure Disturbs (a b : NodeId) (sim next : Sim W) : Prop where
  aside : Aside a b sim next
  held : next.held.Sublist sim.held
  stalls : Stalls next

theorem Disturbs.streams (disturbs : Disturbs a b sim next) (streams : Streams a b sim ahead) :
    Streams a b next ahead where
  streaming := (disturbs.aside.streaming streams.streaming).loses (.refl ahead)
    (disturbs.held.filterMap _)
  stalls := disturbs.stalls

/-- What a fault silently changes of the nodes and of what is held for them. -/
theorem Disturbs.silent (sim : Sim W) (timers : W.timers.Queue) {killed : NodeId → Bool}
    {restarts : NodeId → Nat} {skew : NodeId → Option Nat} {notReading : NodeId → Bool}
    {keep : HeldWrite → Bool}
    (held : ∀ write ∈ sim.held, keep write → notReading write.receiver = true)
    (alive : ∀ node, notReading node = true → killed node = false) :
    Disturbs a b sim
      { sim with timers, killed, restarts, skew, notReading, held := sim.held.filter keep } where
  aside := .silent sim _ _ _ _ _ _ _ _ _
  held := List.filter_sublist
  stalls := by
    refine ⟨?_, alive⟩
    intro write member
    obtain ⟨stood, kept⟩ := List.mem_filter.mp member
    exact held write stood kept

/-- More is queued, none of which arrives, and the connections may have grown. -/
theorem Disturbs.queued (disturbs : Disturbs a b sim next) {later : Sim W}
    (aside : Aside a b next later) (held : later.held = next.held)
    (notReading : later.notReading = next.notReading) (killed : later.killed = next.killed) :
    Disturbs a b sim later where
  aside := disturbs.aside.trans aside
  held := held ▸ disturbs.held
  stalls := disturbs.stalls.congr held notReading killed

/-- A node that is stopped, or begins again, reads, and nothing is held for it or by it. -/
theorem Stalls.resets (stalls : Stalls sim) (node : NodeId) (timers : W.timers.Queue)
    (killed : Bool) (restarts : NodeId → Nat) : Disturbs a b sim { sim with
      timers
      killed := Function.update sim.killed node killed
      restarts
      notReading := Function.update sim.notReading node false
      held := sim.held.filter fun write => write.receiver ≠ node ∧ write.sender ≠ node } := by
  apply Disturbs.silent
  · intro write member kept
    have apart : write.receiver ≠ node := (of_decide_eq_true kept).1
    exact (Function.update_of_ne apart _ _).trans (stalls.held write member)
  · intro other stops
    have apart : other ≠ node := by
      rintro rfl
      simp at stops
    rw [Function.update_of_ne apart] at stops ⊢
    exact stalls.alive other stops

/-- What goes on aside from the traffic, and from what is held. -/
theorem Stalls.spared (stalls : Stalls sim) (aside : Aside a b sim next)
    (held : next.held = sim.held) (notReading : next.notReading = sim.notReading)
    (killed : next.killed = sim.killed) : Disturbs a b sim next where
  aside := aside
  held := held ▸ .refl _
  stalls := stalls.congr held notReading killed

theorem Stalls.cut (stalls : Stalls sim) {pairs : NodeId → NodeId → Prop} {partitioned : Bool}
    (cut : Cut sim next pairs partitioned) : Disturbs a b sim next := by
  have aside := Aside.cut (a := a) (b := b) cut
  obtain ⟨links, rfl, -⟩ := cut
  exact stalls.spared aside rfl rfl rfl

theorem aside_setLinkPolicy (sim : Sim W) (sender receiver : NodeId) (policy : LinkPolicy) :
    Aside a b sim (sim.setLinkPolicy sender receiver policy) := by
  by_cases same : a = sender ∧ b = receiver
  · rcases same with ⟨rfl, rfl⟩
    cases isLink : sim.links a b <;>
      exact .linked sim _ (by simp [linkBetween, isLink, Link.new])
        (by simp [linkBetween, isLink, Link.new])
  · exact .linked sim _ (by simp only [linkBetween, setPair_of_ne same]; rfl)
      (by simp only [linkBetween, setPair_of_ne same]; rfl)

/-- A fault other than one that lets a node read again. -/
theorem Stalls.disturbs (stalls : Stalls sim) {fault : Fault}
    (lets : ∀ node, fault ≠ .resumeReading node) : Disturbs a b sim (sim.takeEffect fault) := by
  cases fault with
  | killNode node => exact stalls.resets node _ true sim.restarts
  | cut x y => exact stalls.cut (cut_cutBetween sim x y true)
  | heal x y => exact stalls.cut (cut_cutBetween sim x y false)
  | setLinkPolicy sender receiver policy =>
      exact stalls.spared (aside_setLinkPolicy sim sender receiver policy) rfl rfl rfl
  | timerSkew node perMille => exact stalls.spared (.silent sim _ _ _ _ _ _ _ _ _) rfl rfl rfl
  | reconnect x y =>
      obtain ⟨connections, grown, -, -, same⟩ := sim.applyReconnect_cases x y
      simp only [takeEffect, same]
      have discarded : Disturbs a b sim { sim with held := sim.held.filter fun write =>
          ¬ (write.receiver = x ∧ write.sender = y) ∧ ¬ (write.receiver = y ∧ write.sender = x) } :=
        .silent sim _ (fun write member _ => stalls.held write member) stalls.alive
      exact discarded.queued (.renewed _ (grown a b) (by simp [Event.connection?])) rfl rfl rfl
  | restartNode node =>
      obtain ⟨connections, events, grown, -, isBreak, same⟩ := sim.restart_cases node
      simp only [takeEffect, same]
      have nothing : ∀ event ∈ events ++ [.notify node (.restarted (sim.restarts node + 1 + 1))],
          event.connection? a b = none := by
        intro event member
        rcases List.mem_append.mp member with isIn | isNotice
        · obtain ⟨peer, -, rfl⟩ := isBreak event isIn
          rfl
        · obtain rfl := List.mem_singleton.mp isNotice
          rfl
      rw [← EventQueue.scheduleAll_concat]
      exact (stalls.resets node (W.timers.forgetMatching sim.timers fun key => key.1 = node) false
        (Function.update sim.restarts node (sim.restarts node + 1))).queued
          (.renewed _ (grown a b) nothing) rfl rfl rfl
  | stopReading node =>
      simp only [takeEffect]
      split
      · exact stalls.spared (.silent sim _ _ _ _ _ _ _ _ _) rfl rfl rfl
      · next runs =>
          rw [Bool.not_eq_true] at runs
          refine ⟨.silent sim _ _ _ _ _ _ _ _ _, .refl _, ?_, ?_⟩
          · intro write member
            by_cases same : write.receiver = node
            · simp [same]
            · simp only [Function.update_of_ne same]
              exact stalls.held write member
          · intro other stops
            by_cases same : other = node
            · exact same ▸ runs
            · simp only [Function.update_of_ne same] at stops
              exact stalls.alive other stops
  | resumeReading node => exact absurd rfl (lets node)

/-- A fault that replaces the connection leaves nothing under way on it. -/
theorem Lined.replaced {fault : Fault} (lined : Lined a b sim) (stalls : Stalls sim)
    (isReplaced : fault.replaces a b sim.nodes.length = true) :
    (sim.takeEffect fault).inFlight a b = [] ∧
      waitingFor W a b (sim.takeEffect fault).held = [] := by
  have lets : ∀ node, fault ≠ .resumeReading node := by
    rintro node rfl
    contradiction
  have disturbs := stalls.disturbs (a := a) (b := b) lets
  have strictly : sim.connections a b < (sim.takeEffect fault).connections a b := by
    cases fault with
    | reconnect x y =>
        obtain ⟨connections, -, forth, back, same⟩ := sim.applyReconnect_cases x y
        simp only [takeEffect, same]
        simp only [Fault.replaces, Bool.decide_or, Bool.or_eq_true, decide_eq_true_eq] at isReplaced
        rcases isReplaced with ⟨rfl, rfl⟩ | ⟨rfl, rfl⟩
        · exact forth
        · exact back
    | restartNode node =>
        obtain ⟨connections, events, -, each, -, same⟩ := sim.restart_cases node
        simp only [takeEffect, same]
        simp only [Fault.replaces, decide_eq_true_eq] at isReplaced
        rcases isReplaced with ⟨apart, ⟨rfl, isNode⟩ | ⟨rfl, isNode⟩⟩
        · exact (each b isNode (Ne.symm apart)).1
        · exact (each a isNode apart).2
    | _ => contradiction
  constructor
  · exact lined.inFlight_eq_nil (disturbs.aside.gathered _) strictly
  · apply waitingFor_eq_nil
    cases fault with
    | reconnect x y =>
        obtain ⟨connections, -, -, -, same⟩ := sim.applyReconnect_cases x y
        simp only [takeEffect, same]
        simp only [Fault.replaces, Bool.decide_or, Bool.or_eq_true, decide_eq_true_eq] at isReplaced
        rintro write member ⟨rfl, rfl⟩
        have apart := of_decide_eq_true (List.mem_filter.mp member).2
        rcases isReplaced with ⟨rfl, rfl⟩ | ⟨rfl, rfl⟩
        · exact apart.2 ⟨rfl, rfl⟩
        · exact apart.1 ⟨rfl, rfl⟩
    | restartNode node =>
        obtain ⟨connections, events, -, -, -, same⟩ := sim.restart_cases node
        simp only [takeEffect, same]
        simp only [Fault.replaces, decide_eq_true_eq] at isReplaced
        rintro write member ⟨rfl, rfl⟩
        have apart := of_decide_eq_true (List.mem_filter.mp member).2
        rcases isReplaced with ⟨-, ⟨rfl, -⟩ | ⟨rfl, -⟩⟩
        · exact apart.2 rfl
        · exact apart.1 rfl
    | _ => contradiction

/-- What was held is let go in the order it was written. -/
theorem Streaming.releases {released : List HeldWrite}
    (streaming : Streaming a b sim [] (waitingFor W a b released ++ waitingFor W a b sim.held))
    (stalls : Stalls sim) : Streams a b (released.foldl release sim) [] := by
  induction released generalizing sim with
  | nil => exact ⟨streaming, stalls⟩
  | cons write rest ih =>
      rw [waitingFor_cons, List.append_assoc] at streaming
      have told := (Aside.scheduled sim sim.now (.notify write.sender
        (.writeFlushed write.receiver write.write)) rfl).streaming streaming
      have crosses := dispatch_crossed (sim.queueNow (.notify write.sender
        (.writeFlushed write.receiver write.write))) write.sender write.receiver write.bytes
        write.summary write.write
      have held : (sim.release write).held = sim.held := crosses.held
      apply ih
      · rw [held]
        exact told.crossed crosses
      · exact stalls.congr held crosses.steady.notReading crosses.steady.killed

/-- What is held for a node goes out behind what is queued for it. -/
theorem Streams.resumes (streams : Streams a b sim []) (node : NodeId) :
    Streams a b (sim.applyResume node) [] := by
  have split : waitingFor W a b (sim.held.filter fun write => write.receiver = node) ++
      waitingFor W a b (sim.held.filter fun write => write.receiver ≠ node) =
        waitingFor W a b sim.held := by
    by_cases own : b = node
    · have others : waitingFor W a b (sim.held.filter fun write => write.receiver ≠ node) = [] := by
        apply waitingFor_eq_nil
        rintro write member ⟨-, rfl⟩
        exact of_decide_eq_true (List.mem_filter.mp member).2 own
      rw [others, List.append_nil, waitingFor_filter]
      rintro write - rfl
      exact decide_eq_true own
    · have nothing : waitingFor W a b (sim.held.filter fun write => write.receiver = node) = [] := by
        apply waitingFor_eq_nil
        rintro write member ⟨-, rfl⟩
        exact own (of_decide_eq_true (List.mem_filter.mp member).2)
      rw [nothing, List.nil_append, waitingFor_filter]
      rintro write - rfl
      exact decide_eq_true own
  apply Streaming.releases
  · rw [split]
    exact (Aside.silent sim _ _ _ _ _ _ _ _ _).streaming streams.streaming
  · constructor
    · intro write member
      obtain ⟨stood, apart⟩ := List.mem_filter.mp member
      exact (Function.update_of_ne (of_decide_eq_true apart) _ _).trans
        (streams.stalls.held write stood)
    · intro other stops
      have apart : other ≠ node := by
        rintro rfl
        simp at stops
      simp only [Function.update_of_ne apart] at stops
      exact streams.stalls.alive other stops

theorem Streams.apply (streams : Streams a b sim []) (fault : Fault) :
    Streams a b (sim.apply fault) [] := by
  have kept : Stalls (({ sim with log := sim.log ++ [Record.applied fault] } : Sim W).record
      fault.anchor (.fault (fault.summary W)) none) := streams.stalls.congr rfl rfl rfl
  cases isReplaced : fault.replaces a b sim.nodes.length with
  | true =>
      have lets : ∀ node, fault ≠ .resumeReading node := by
        rintro node rfl
        contradiction
      have lined : Lined a b (({ sim with log := sim.log ++ [Record.applied fault] } :
          Sim W).record fault.anchor (.fault (fault.summary W)) none) :=
        streams.streaming.lined.congr rfl rfl le_rfl fun _ => .inl
      have disturbs := kept.disturbs (a := a) (b := b) lets
      obtain ⟨flight, waiting⟩ := lined.replaced kept isReplaced
      have isMark : Record.mark W a b sim.nodes.length (.applied fault) = .replaced := by
        simp [Record.mark, isReplaced]
      have empty := (streams.streaming.channel.replaces isMark).idles
        (.traced sim.now fault.anchor (sim.nameOf fault.anchor)
          (.fault (fault.summary W)) none) rfl
      exact ⟨waiting ▸ disturbs.aside.emptied lined empty flight, disturbs.stalls⟩
  | false =>
      have idle : Record.mark W a b sim.nodes.length (.applied fault) = .idle := by
        simp [Record.mark, isReplaced]
      have goesOn := (streams.of_aside (.one sim idle) rfl rfl rfl).record fault.anchor
        (.fault (fault.summary W)) none
      by_cases lets : ∃ node, fault = .resumeReading node
      · rcases lets with ⟨node, rfl⟩
        exact goesOn.resumes node
      · rw [not_exists] at lets
        exact (kept.disturbs lets).streams goesOn

/-! ## A round of the loop -/

theorem Streams.handle {event : Event}
    (streams : Streams a b sim (event.carried W a b (sim.connections a b)).toList) :
    Streams a b (sim.handle event) [] := by
  cases event with
  | deliver sender receiver bytes connection write => exact streams.handleDelivery
  | fault fault => exact streams.apply fault
  | breaks node peer write =>
      exact (streams.record node (.broken peer) write).hand (.inl (by cases write <;> rfl))
  | notify node notice =>
      cases notice with
      | connected peer => exact streams.hand (.inl rfl)
      | restarted incarnation => exact (streams.record node .started none).hand (.inl rfl)
      | writeStalled peer write => exact streams.hand (.inl rfl)
      | writeFlushed peer write => exact streams.hand (.inl rfl)

theorem Streams.fires (streams : Streams a b sim []) (keys : List (NodeId × TimerId)) :
    Streams a b (keys.foldl fire sim) [] := by
  induction keys generalizing sim with
  | nil => exact streams
  | cons key rest ih =>
      exact ih ((streams.record key.1 (.timerFired key.2) none).hand (.inl rfl))

theorem Streams.turned {instant : SimTime} (streams : Streams a b sim [])
    (turned : Turned sim instant next) : Streams a b next [] := by
  cases turned with
  | took item queue timers popped due kept first =>
      obtain ⟨isHeap, -, -⟩ := EventQueue.pop_eq_some popped
      apply Streams.handle
      refine ⟨⟨?_, ?_⟩, streams.stalls.congr rfl rfl rfl⟩
      · have stays : ∀ other ∈ queue.heap, other ∈ sim.queue.heap := by
          intro other member
          rw [isHeap]
          exact List.mem_cons_of_mem item member
        exact streams.streaming.lined.congr rfl rfl le_rfl fun other member =>
          .inl (stays other member)
      · have channel := streams.streaming.channel.idles (.took item) rfl
        rw [inFlight, EventQueue.gathered_of_pop popped] at channel
        exact channel
  | fired keys timers =>
      exact (streams.of_aside (.silent sim instant timers _ _ _ _ _ _ _) rfl rfl rfl).fires keys

theorem Streams.start (streams : Streams a b sim []) : Streams a b sim.start [] := by
  unfold Sim.start
  split
  · exact streams
  · have steps : ∀ (ids : List NodeId) (reached : Sim W), Streams a b reached [] →
        Streams a b (ids.foldl
          (fun sim id => (sim.record id .started none).hand id .started none) reached) [] := by
      intro ids
      induction ids with
      | nil => exact fun _ streams => streams
      | cons id rest ih =>
          intro reached streams
          exact ih _ ((streams.record id .started none).hand (.inl rfl))
    exact steps _ _ (streams.of_aside (.silent sim _ _ _ _ _ _ _ _ _) rfl rfl rfl)

/-- A move leaves the traffic that of a channel. -/
theorem Streams.move (streams : Streams a b sim []) (move : Move W) :
    Streams a b (sim.move move) [] := by
  cases move with
  | enqueue due fault =>
      exact streams.of_aside ((Aside.scheduled sim due (.fault fault) rfl).trans
        (.one _ rfl)) rfl rfl rfl
  | setPartitioned sender receiver partitioned =>
      have cut := streams.stalls.cut (a := a) (b := b)
        (cut_setPartitioned sim sender receiver partitioned)
      exact (cut.streams streams).of_aside (.one _ rfl) rfl rfl rfl
  | start => exact streams.start
  | inject sender receiver message =>
      exact (streams.record receiver (.received sender (W.summarize message)) none).hand (.inl rfl)
  | turn =>
      simp only [Sim.move]
      cases isNext : sim.nextInstant with
      | none => exact streams
      | some instant => exact streams.turned (turn_turned isNext).1
  | settle deadline =>
      simp only [Sim.move, settle]
      split
      · exact streams.of_aside (.silent sim _ _ _ _ _ _ _ _ _) rfl rfl rfl
      · exact streams

theorem streams_fresh (fresh : sim.Fresh) (isStream : (sim.linkBetween a b).kind = .stream) :
    Streams a b sim [] := by
  have noQueue : sim.queue.heap = [] := by
    rw [fresh.queue]
    rfl
  refine ⟨⟨⟨isStream, by simp [noQueue]⟩, ?_⟩, by simp [fresh.held], by simp [fresh.notReading]⟩
  have nothing : sim.inFlight a b = [] := by
    simp [inFlight, EventQueue.gathered, noQueue]
  rw [nothing, fresh.held, fresh.log]
  exact .opened

theorem streams_calls (streams : Streams a b sim []) (sequence : List (Call W)) :
    Streams a b (sim.calls sequence) [] := by
  have along : Along (machine W) (fun _ _ => True) sim (sim.moves sequence) :=
    along_of_forall _ (fun _ _ => trivial) _ _
  exact calls_induction (fun sim => Streams a b sim []) streams
    (fun _ move streams _ _ => streams.move move) along

theorem length_start (sim : Sim W) : sim.start.nodes.length = sim.nodes.length := by
  unfold Sim.start
  split
  · rfl
  · have steps : ∀ (ids : List NodeId) (reached : Sim W), (ids.foldl
        (fun sim id => (sim.record id .started none).hand id .started none) reached).nodes.length =
          reached.nodes.length := by
      intro ids
      induction ids with
      | nil => exact fun _ => rfl
      | cons id rest ih =>
          intro reached
          exact (ih _).trans (hand_steady (reached.record id .started none) id .started none).length
    exact steps _ _

theorem length_move (sim : Sim W) (move : Move W) :
    (sim.move move).nodes.length = sim.nodes.length := by
  cases move with
  | enqueue due fault => rfl
  | setPartitioned sender receiver partitioned =>
      exact (cut_setPartitioned sim sender receiver partitioned).posts.length
  | start => exact length_start sim
  | inject sender receiver message => exact (hand_steady _ _ _ _).length
  | turn =>
      simp only [Sim.move]
      cases isNext : sim.nextInstant with
      | none => rfl
      | some instant => exact (extends_turned (turn_turned isNext).1).length
  | settle deadline =>
      simp only [Sim.move, settle]
      split <;> rfl

theorem length_calls (sim : Sim W) (sequence : List (Call W)) :
    (sim.calls sequence).nodes.length = sim.nodes.length := by
  have along : Along (machine W) (fun _ _ => True) sim (sim.moves sequence) :=
    along_of_forall _ (fun _ _ => trivial) _ _
  exact calls_induction (fun reached => reached.nodes.length = sim.nodes.length) rfl
    (fun reached move same _ _ => (length_move reached move).trans same) along

/-- Over a stream link a node is handed what the other one sent, in the order it was sent and each
message once, and of what was sent before the connection was replaced nothing after that. -/
theorem stream_inOrder (seed : UInt64) (topology : List (Build W)) (sequence : List (Call W))
    {a b : NodeId} (isStream : ((built W seed topology).linkBetween a b).kind = .stream)
    {stretch : List (Record W.Message)}
    (isStretch : Stretch (Record.mark W a b (built W seed topology).nodes.length)
      ((built W seed topology).calls sequence).log stretch) :
    (arrivedIn (Record.mark W a b (built W seed topology).nodes.length) stretch).Sublist
      (writtenIn (Record.mark W a b (built W seed topology).nodes.length) stretch) := by
  have streams := streams_calls (streams_fresh (fresh_built seed topology) isStream) sequence
  have channel := streams.streaming.channel
  rw [length_calls] at channel
  exact channel.inOrder isStretch

end Sim

/-! ## Connections that are replaced -/

/-- Two messages at the start, and one on each new connection and after each restart. -/
def greeter : Input Bytes → List (Effect Bytes)
  | .started => [.send 1 (bytes "a"), .send 1 (bytes "b")]
  | .connected _ => [.send 1 (bytes "c")]
  | .restarted _ => [.send 1 (bytes "d")]
  | _ => []

def greeting : List (Sim.Build scripted) :=
  [.addNode ⟨text "a", greeter⟩, .addNode ⟨text "b", fun _ => []⟩,
    .linkOneWay 0 1 .stream { LinkPolicy.clean with latency := .constant 5 }]

/-- The connection is replaced while two messages are under way on it; then the node that sent
them is killed, and restarted. -/
def reconnecting : List (Sim.Call scripted) :=
  [.runUntil (SimTime.start.saturatingAdd 1),
    .schedule [(SimTime.start.saturatingAdd 3, .reconnect 0 1),
      (SimTime.start.saturatingAdd 10, .killNode 0),
      (SimTime.start.saturatingAdd 12, .restartNode 0)],
    .runUntil (SimTime.start.saturatingAdd 20)]

theorem inOrder_greeting :
    (arrivedIn (Record.mark scripted 0 1 2)
      ((Sim.built scripted 0 greeting).calls reconnecting).log).Sublist
      (writtenIn (Record.mark scripted 0 1 2)
        ((Sim.built scripted 0 greeting).calls reconnecting).log) :=
  Sim.stream_inOrder 0 greeting reconnecting (a := 0) (b := 1) rfl (.whole _)

/-- The two messages on the first connection never arrive. -/
example : writtenIn (Record.mark scripted 0 1 2)
      ((Sim.built scripted 0 greeting).calls reconnecting).log =
        [bytes "a", bytes "b", bytes "c", bytes "d"] ∧
    arrivedIn (Record.mark scripted 0 1 2)
      ((Sim.built scripted 0 greeting).calls reconnecting).log = [bytes "c", bytes "d"] :=
  ⟨rfl, rfl⟩

end SipxClstr.Simulation
