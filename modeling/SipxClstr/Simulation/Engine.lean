import SipxClstr.Simulation.Node
import Mathlib.Logic.Function.Basic

/-!
# The scheduler

The loop that makes virtual time pass.  Advancing time is popping the event queue, performing
an effect is scheduling more events, and the trace is written as it goes.

Every write has a number, in the order in which the writes were asked for, and the log holds
beside the lines of the trace what a node was handed and what it wanted done, which events were
taken, which faults were queued and applied, and which writes were put on a link.  The code has
none of these, and nothing it does depends on them.
-/

namespace SipxClstr.Simulation

open SipxClstr.Sip

/-! ## State -/

/-- A write in its sender's buffer, because the far end is not draining. -/
structure HeldWrite where
  receiver : NodeId
  sender : NodeId
  bytes : Bytes
  summary : Text
  /-- The number of the write. -/
  write : Nat

/-- What the scheduler tells a node by itself. -/
inductive Notice where
  | connected (peer : NodeId)
  | restarted (incarnation : Nat)
  | writeStalled (peer : NodeId) (write : Nat)
  | writeFlushed (peer : NodeId) (write : Nat)
  deriving DecidableEq

inductive Event where
  | deliver (sender receiver : NodeId) (bytes : Bytes) (connection : Nat) (write : Nat)
  /-- The link toward a peer is cut; the number is that of the write that found it so. -/
  | breaks (node peer : NodeId) (write : Option Nat)
  | fault (fault : Fault)
  | notify (node : NodeId) (notice : Notice)

def Event.isFault : Event → Bool
  | .fault _ => true
  | _ => false

/-- What is written down of a run. -/
inductive Record (M : Type) where
  /-- A line of the trace, and the write it is about. -/
  | traced (due : SimTime) (node : NodeId) (nodeName : Text) (event : TraceEvent)
    (write : Option Nat)
  /-- A node was handed an input. -/
  | called (now : SimTime) (node : NodeId) (input : Input M) (write : Option Nat)
  /-- An effect of a node was performed. -/
  | performed (now : SimTime) (node : NodeId) (effect : Effect M)
  /-- A fault was queued. -/
  | queued (now : SimTime) (item : Scheduled Event)
  | took (item : Scheduled Event)
  | applied (fault : Fault)
  /-- A write was put on its link, to arrive. -/
  | crossed (sender receiver : NodeId) (write : Nat)
  /-- The scenario cut or restored one direction of a link. -/
  | parted (sender receiver : NodeId) (partitioned : Bool)

/-- A running simulation. -/
structure Sim (W : World) where
  seed : UInt64
  now : SimTime
  nodes : List (SimNode W)
  links : NodeId → NodeId → Option Link
  defaultKind : LinkKind
  defaultPolicy : LinkPolicy
  queue : EventQueue Event
  timers : W.timers.Queue
  log : List (Record W.Message)
  budget : Nat
  started : Bool
  /-- Nodes a fault has stopped. -/
  killed : NodeId → Bool
  /-- Per-node timer rate, where a fault has touched it. -/
  skew : NodeId → Option Nat
  /-- How many times each node has been restarted. -/
  restarts : NodeId → Nat
  /-- Which connection each directed pair is on. -/
  connections : NodeId → NodeId → Nat
  /-- Nodes a fault has stopped draining. -/
  notReading : NodeId → Bool
  /-- Writes held for the nodes that are not reading, in the order they were written. -/
  held : List HeldWrite
  /-- How many writes were asked for. -/
  writes : Nat

inductive SimError where
  | stepBudgetExhausted (budget : Nat) (instant : SimTime)
  deriving DecidableEq

/-- A map, but for one pair. -/
def setPair {α : Type} (map : NodeId → NodeId → α) (a b : NodeId) (value : α) : NodeId → NodeId → α :=
  fun x y => if x = a ∧ y = b then value else map x y

@[simp]
theorem setPair_self {α : Type} (map : NodeId → NodeId → α) (a b : NodeId) (value : α) :
    setPair map a b value a b = value := by
  simp [setPair]

theorem setPair_of_ne {α : Type} {map : NodeId → NodeId → α} {a b x y : NodeId} {value : α}
    (differs : ¬ (x = a ∧ y = b)) : setPair map a b value x y = map x y := by
  simp [setPair, differs]

/-- A duration as a clock measures it that runs at this rate, in per-mille. -/
def skewedBy (rate : Option Nat) (after : Nat) : Nat :=
  match rate with
  | none => after
  | some perMille => if perMille = 1000 then after else min (after * perMille / 1000) lastNanos

namespace Sim

variable {W : World}

/-- A simulation with no nodes, at time zero. -/
def new (W : World) (seed : UInt64) : Sim W where
  seed := seed
  now := .start
  nodes := []
  links _ _ := none
  defaultKind := .datagram
  defaultPolicy := .clean
  queue := .new
  timers := W.timers.new
  log := []
  budget := 100000
  started := false
  killed _ := false
  skew _ := none
  restarts _ := 0
  connections _ _ := 0
  notReading _ := false
  held := []
  writes := 0

def nameOf (sim : Sim W) (id : NodeId) : Text :=
  match sim.nodes[id]? with
  | some node => node.name
  | none => text "?"

def linkLabel (sim : Sim W) (sender receiver : NodeId) : Text :=
  text "link:" ++ sim.nameOf sender ++ text "->" ++ sim.nameOf receiver

/-- Write a line of the trace. -/
def record (sim : Sim W) (node : NodeId) (event : TraceEvent) (write : Option Nat) : Sim W :=
  { sim with log := sim.log ++ [.traced sim.now node (sim.nameOf node) event write] }

/-! ## Building -/

/-- The kind and policy every link gets unless the scenario says otherwise. -/
def linkDefault (sim : Sim W) (kind : LinkKind) (policy : LinkPolicy) : Sim W :=
  { sim with defaultKind := kind, defaultPolicy := policy }

/-- Cap how many events a run may perform. -/
def stepBudget (sim : Sim W) (budget : Nat) : Sim W :=
  { sim with budget }

/-- Add a node, behind those there are. -/
def addNode (sim : Sim W) (node : SimNode W) : Sim W :=
  { sim with nodes := sim.nodes ++ [node] }

/-- Give one direction of one link an explicit kind and policy. -/
def linkOneWay (sim : Sim W) (sender receiver : NodeId) (kind : LinkKind) (policy : LinkPolicy) :
    Sim W :=
  { sim with
    links := setPair sim.links sender receiver
      (some (.new kind policy sim.seed (sim.linkLabel sender receiver))) }

/-! ## Links -/

/-- The link of this direction, made by the defaults where there is none. -/
def linkBetween (sim : Sim W) (sender receiver : NodeId) : Link :=
  (sim.links sender receiver).getD
    (.new sim.defaultKind sim.defaultPolicy sim.seed (sim.linkLabel sender receiver))

/-- Cut or restore one direction of a link. -/
def setPartitioned (sim : Sim W) (sender receiver : NodeId) (partitioned : Bool) : Sim W :=
  let (kind, policy) := ((sim.links sender receiver).map fun link => (link.kind, link.policy)).getD
    (sim.defaultKind, sim.defaultPolicy)
  let policy := { policy with partitioned }
  let link := (sim.links sender receiver).getD
    (.new kind policy sim.seed (sim.linkLabel sender receiver))
  { sim with links := setPair sim.links sender receiver (some { link with policy }) }

/-- Replace the policy of one direction of a link. -/
def setLinkPolicy (sim : Sim W) (sender receiver : NodeId) (policy : LinkPolicy) : Sim W :=
  let kind := ((sim.links sender receiver).map Link.kind).getD sim.defaultKind
  let link := (sim.links sender receiver).getD
    (.new kind policy sim.seed (sim.linkLabel sender receiver))
  { sim with links := setPair sim.links sender receiver (some { link with policy }) }

/-- Cut or reconnect every link crossing between two groups, both directions. -/
def cutBetween (sim : Sim W) (a b : List NodeId) (partitioned : Bool) : Sim W :=
  a.foldl (fun sim first => b.foldl (fun sim second =>
    (sim.setPartitioned first second partitioned).setPartitioned second first partitioned) sim) sim

/-- Whether a stream link exists between two nodes, either way round. -/
def hasStreamLink (sim : Sim W) (a b : NodeId) : Bool :=
  (sim.links a b).any (fun link => link.kind = .stream) ||
    (sim.links b a).any fun link => link.kind = .stream

/-! ## Events -/

/-- Something that is to happen at this instant, behind what already is. -/
def queueNow (sim : Sim W) (event : Event) : Sim W :=
  { sim with queue := sim.queue.scheduleAt sim.now event }

def queueAll (sim : Sim W) (events : List Event) : Sim W :=
  events.foldl queueNow sim

/-- Put bytes on the link and schedule what it decided. -/
def dispatch (sim : Sim W) (sender receiver : NodeId) (bytes : Bytes) (summary : Text)
    (write : Nat) : Sim W :=
  let killed := sim.killed sender || sim.killed receiver
  let link := sim.linkBetween sender receiver
  let (decision, link) := if killed then (link.cutOutcome, link) else link.decide sim.now
  let sim := { sim with links := setPair sim.links sender receiver (some link) }
  let event := Event.deliver sender receiver bytes (sim.connections sender receiver) write
  match decision with
  | .dropped => sim.record sender (.dropped receiver summary) (some write)
  | .broken => sim.queueNow (.breaks sender receiver (some write))
  | .once after =>
      { sim with
        queue := sim.queue.scheduleAfter sim.now after event
        log := sim.log ++ [.crossed sender receiver write] }
  | .twice first second =>
      let sim := sim.record sender (.duplicated receiver summary) (some write)
      { sim with
        queue := (sim.queue.scheduleAfter sim.now first event).scheduleAfter sim.now second event
        log := sim.log ++ [.crossed sender receiver write] }

/-- A message is written; it waits with its sender while the receiver is not reading. -/
def send (sim : Sim W) (sender receiver : NodeId) (message : W.Message) : Sim W :=
  let summary := W.summarize message
  let write := sim.writes
  let sim := { sim.record sender (.sent receiver summary) (some write) with writes := write + 1 }
  let bytes := W.toBytes message
  let endpointKilled := sim.killed sender || sim.killed receiver
  if !endpointKilled && sim.notReading receiver then
    { sim with held := sim.held ++ [HeldWrite.mk receiver sender bytes summary write] }.queueNow
      (.notify sender (.writeStalled receiver write))
  else
    sim.dispatch sender receiver bytes summary write

/-! ## Nodes -/

/-- A duration as this node's clock measures it. -/
def skewed (sim : Sim W) (node : NodeId) (after : Nat) : Nat :=
  skewedBy (sim.skew node) after

/-- Hand a node an input; a node that was killed, or is none, makes nothing of it. -/
def deliver (sim : Sim W) (id : NodeId) (input : Input W.Message) (write : Option Nat) :
    Sim W × List (Effect W.Message) :=
  if sim.killed id then
    (sim, [])
  else
    match sim.nodes[id]? with
    | none => (sim, [])
    | some node =>
        let (process, effects) := W.onInput node.process sim.now input
        ({ sim with
            nodes := sim.nodes.set id { node with process }
            log := sim.log ++ [.called sim.now id input write] }, effects)

def performOne (node : NodeId) (sim : Sim W) (effect : Effect W.Message) : Sim W :=
  let sim := { sim with log := sim.log ++ [Record.performed sim.now node effect] }
  match effect with
  | .send receiver message => sim.send node receiver message
  | .setTimer timer after =>
      let after := sim.skewed node after
      { sim with timers := W.timers.set sim.timers (node, timer) sim.now after }.record node
        (.timerSet timer (sim.now.saturatingAdd after)) none
  | .clearTimer timer =>
      { sim with timers := W.timers.clear sim.timers (node, timer) }.record node
        (.timerCleared timer) none
  | .note what => sim.record node (.note what) none

def perform (sim : Sim W) (node : NodeId) (effects : List (Effect W.Message)) : Sim W :=
  effects.foldl (performOne node) sim

/-- Hand a node an input, and perform what it wants done. -/
def hand (sim : Sim W) (node : NodeId) (input : Input W.Message) (write : Option Nat) : Sim W :=
  let (sim, effects) := sim.deliver node input write
  sim.perform node effects

/-! ## Faults -/

def bumpConnection (sim : Sim W) (sender receiver : NodeId) : Sim W :=
  { sim with
    connections := setPair sim.connections sender receiver (sim.connections sender receiver + 1) }

def discardHeldBetween (sim : Sim W) (a b : NodeId) : Sim W :=
  { sim with
    held := sim.held.filter fun write =>
      ¬ (write.receiver = a ∧ write.sender = b) ∧ ¬ (write.receiver = b ∧ write.sender = a) }

def discardHeldInvolving (sim : Sim W) (node : NodeId) : Sim W :=
  { sim with
    held := sim.held.filter fun write => write.receiver ≠ node ∧ write.sender ≠ node }

/-- Close the connection between two nodes and accept a new one. -/
def applyReconnect (sim : Sim W) (a b : NodeId) : Sim W :=
  (((sim.bumpConnection a b).bumpConnection b a).discardHeldBetween a b).queueAll
    [.breaks a b none, .breaks b a none, .notify a (.connected b), .notify b (.connected a)]

/-- The nodes beside this one. -/
def peersOf (sim : Sim W) (node : NodeId) : List NodeId :=
  (List.range sim.nodes.length).filter fun peer => peer ≠ node

/-- Stop a node and start it again as a new process, under a fresh incarnation. -/
def restart (sim : Sim W) (node : NodeId) : Sim W :=
  let sim := { sim with
    killed := Function.update sim.killed node false
    timers := W.timers.forgetMatching sim.timers fun key => key.1 = node }
  let peers := sim.peersOf node
  let sim := peers.foldl
    (fun sim peer => (sim.bumpConnection node peer).bumpConnection peer node) sim
  let sim := { sim with notReading := Function.update sim.notReading node false }
  let sim := sim.discardHeldInvolving node
  let sim := sim.queueAll ((peers.filter fun peer => sim.hasStreamLink peer node).map
    fun peer => .breaks peer node none)
  let restarts := sim.restarts node + 1
  { sim with restarts := Function.update sim.restarts node restarts }.queueNow
    (.notify node (.restarted (restarts + 1)))

/-- A held write leaves its buffer, and crosses the link as it is now. -/
def release (sim : Sim W) (write : HeldWrite) : Sim W :=
  (sim.queueNow (.notify write.sender (.writeFlushed write.receiver write.write))).dispatch
    write.sender write.receiver write.bytes write.summary write.write

/-- Let a node read again, releasing what was held for it in the order it was written. -/
def applyResume (sim : Sim W) (node : NodeId) : Sim W :=
  (sim.held.filter fun write => write.receiver = node).foldl release
    { sim with
      notReading := Function.update sim.notReading node false
      held := sim.held.filter fun write => write.receiver ≠ node }

/-- What a fault does to the world. -/
def takeEffect (sim : Sim W) : Fault → Sim W
  | .killNode node =>
      { sim with
        killed := Function.update sim.killed node true
        timers := W.timers.forgetMatching sim.timers fun key => key.1 = node
        notReading := Function.update sim.notReading node false }.discardHeldInvolving node
  | .cut a b => sim.cutBetween a b true
  | .heal a b => sim.cutBetween a b false
  | .setLinkPolicy sender receiver policy => sim.setLinkPolicy sender receiver policy
  | .timerSkew node perMille => { sim with skew := Function.update sim.skew node (some perMille) }
  | .reconnect a b => sim.applyReconnect a b
  | .restartNode node => sim.restart node
  | .stopReading node =>
      if sim.killed node then sim
      else { sim with notReading := Function.update sim.notReading node true }
  | .resumeReading node => sim.applyResume node

/-- Apply one fault, now; it is recorded before it takes effect. -/
def apply (sim : Sim W) (fault : Fault) : Sim W :=
  let sim := { sim with log := sim.log ++ [Record.applied fault] }
  (sim.record fault.anchor (.fault (fault.summary W)) none).takeEffect fault

/-! ## The loop -/

/-- Tell every node the scenario has begun. -/
def start (sim : Sim W) : Sim W :=
  if sim.started then
    sim
  else
    (List.range sim.nodes.length).foldl
      (fun sim id => (sim.record id .started none).hand id .started none)
      { sim with started := true }

/-- Hand a message to a node as though it had arrived, without a link in between. -/
def inject (sim : Sim W) (sender receiver : NodeId) (message : W.Message) : Sim W :=
  (sim.record receiver (.received sender (W.summarize message)) none).hand receiver
    (.message sender message) none

/-- The scenario cuts or restores one direction of a link. -/
def part (sim : Sim W) (sender receiver : NodeId) (partitioned : Bool) : Sim W :=
  { sim.setPartitioned sender receiver partitioned with
    log := sim.log ++ [.parted sender receiver partitioned] }

/-- Queue a fault. -/
def enqueue (sim : Sim W) (due : SimTime) (fault : Fault) : Sim W :=
  { sim with
    queue := sim.queue.scheduleAt due (.fault fault)
    log := sim.log ++ [.queued sim.now ⟨due, sim.queue.nextSeq, .fault fault⟩] }

/-- Queue a fault schedule. -/
def schedule (sim : Sim W) (entries : Schedule) : Sim W :=
  entries.foldl (fun sim entry => sim.enqueue entry.1 entry.2) sim

def handleDelivery (sim : Sim W) (sender receiver : NodeId) (bytes : Bytes) (connection : Nat)
    (write : Nat) : Sim W :=
  match W.parseDatagram bytes with
  | .ok message =>
      if connection ≠ sim.connections sender receiver then
        -- Written to a connection that has since been replaced.
        sim.record sender (.dropped receiver (W.summarize message)) (some write)
      else
        (sim.record receiver (.received sender (W.summarize message)) (some write)).hand receiver
          (.message sender message) (some write)
  | .error reason => sim.record receiver (.malformed sender reason) (some write)

def notify (sim : Sim W) (node : NodeId) : Notice → Sim W
  | .connected peer => sim.hand node (.connected peer) none
  | .restarted incarnation =>
      (sim.record node .started none).hand node (.restarted incarnation) none
  | .writeStalled peer write => sim.hand node (.writeStalled peer) (some write)
  | .writeFlushed peer write => sim.hand node (.writeFlushed peer) (some write)

def handle (sim : Sim W) : Event → Sim W
  | .deliver sender receiver bytes connection write =>
      sim.handleDelivery sender receiver bytes connection write
  | .fault fault => sim.apply fault
  | .breaks node peer write =>
      (sim.record node (.broken peer) write).hand node (.transportError peer) write
  | .notify node notice => sim.notify node notice

/-- A timer that was taken fires. -/
def fire (sim : Sim W) (key : NodeId × TimerId) : Sim W :=
  (sim.record key.1 (.timerFired key.2) none).hand key.1 (.timer key.2) none

/-- When something is due next. -/
def nextInstant (sim : Sim W) : Option SimTime :=
  match W.timers.nextDeadline sim.timers, sim.queue.nextDeadline with
  | none, none => none
  | some timerAt, none => some timerAt
  | none, some eventAt => some eventAt
  | some timerAt, some eventAt => some (min timerAt eventAt)

/-- Whether a fault that is due at this instant is the next event. -/
def faultFirst (sim : Sim W) (next : SimTime) : Bool :=
  sim.queue.peek.any Event.isFault && sim.queue.nextDeadline = some next

/-- The timers that fire at this instant, and the ones that wait. -/
def dueTimers (sim : Sim W) (next : SimTime) : List (NodeId × TimerId) × W.timers.Queue :=
  if sim.faultFirst next then ([], sim.timers) else W.timers.takeDue sim.timers next

/-- One round of the loop at the next instant, and whether the loop goes on. -/
def turn (sim : Sim W) (next : SimTime) : Sim W × Bool :=
  let (fired, timers) := sim.dueTimers next
  let sim := { sim with now := next, timers }
  if fired.isEmpty then
    match sim.queue.pop with
    | none => (sim, false)
    | some (item, queue) =>
        ({ sim with queue, now := item.due, log := sim.log ++ [Record.took item] }.handle item.payload, true)
  else
    (fired.foldl fire sim, true)

/-- The loop, for as many rounds as the budget allows. -/
def rounds (deadline : SimTime) : Nat → Sim W → Except SimError Unit × Sim W
  | 0, sim =>
      match sim.nextInstant with
      | none => (.ok (), sim)
      | some next =>
          if deadline < next then (.ok (), sim)
          else (.error (.stepBudgetExhausted sim.budget next), sim)
  | left + 1, sim =>
      match sim.nextInstant with
      | none => (.ok (), sim)
      | some next =>
          if deadline < next then
            (.ok (), sim)
          else
            match sim.turn next with
            | (sim, false) => (.ok (), sim)
            | (sim, true) => rounds deadline left sim

/-- The clock may jump to where the scenario asked to be. -/
def settle (sim : Sim W) (deadline : SimTime) : Sim W :=
  if sim.now < deadline ∧ deadline ≠ .last then { sim with now := deadline } else sim

/-- Run until virtual time reaches the deadline, or nothing is left. -/
def runUntil (sim : Sim W) (deadline : SimTime) : Except SimError Unit × Sim W :=
  match rounds deadline sim.budget sim.start with
  | (.ok (), sim) => (.ok (), sim.settle deadline)
  | (.error error, sim) => (.error error, sim)

/-- Run forward by a duration. -/
def advance (sim : Sim W) (duration : Nat) : Except SimError Unit × Sim W :=
  sim.runUntil (sim.now.saturatingAdd duration)

end Sim

end SipxClstr.Simulation
