import SipxClstr.Simulation.Net
import SipxClstr.Simulation.Queue

/-!
# Nodes, faults and the trace

What a node is told and what it wants done, what goes wrong, and the vocabulary in which a run
is written down.
-/

namespace SipxClstr.Simulation

open SipxClstr.Sip

/-- A node's own name for one of its timers. -/
structure TimerId where
  id : Nat
  deriving DecidableEq, Repr

/-- Something that happened to a node. -/
inductive Input (M : Type) where
  | started
  | message (sender : NodeId) (message : M)
  | timer (timer : TimerId)
  | transportError (peer : NodeId)
  | connected (peer : NodeId)
  | restarted (incarnation : Nat)
  | writeStalled (peer : NodeId)
  | writeFlushed (peer : NodeId)

/-- Something a node wants done. -/
inductive Effect (M : Type) where
  | send (receiver : NodeId) (message : M)
  | setTimer (timer : TimerId) (after : Nat)
  | clearTimer (timer : TimerId)
  | note (what : Text)

/-- What a simulation takes from outside: the kernel's messages and timer queue, how a `f64`
is displayed, and what its nodes do.  A node is any deterministic process. -/
structure World where
  Message : Type
  /-- `Message::to_bytes`. -/
  toBytes : Message → Bytes
  /-- `parse_datagram`, under the default limits. -/
  parseDatagram : Bytes → Except Text Message
  /-- The trace's one-line description of a message. -/
  summarize : Message → Text
  showFloat : Float → Text
  /-- The state of a node. -/
  Process : Type
  onInput : Process → SimTime → Input Message → Process × List (Effect Message)
  timers : TimerQueue (NodeId × TimerId)

/-- A world whose messages are their bytes, and in which a node always reacts in the same way. -/
def scripted : World where
  Message := Bytes
  toBytes message := message
  parseDatagram := .ok
  summarize message := message.map fun byte => Char.ofNat byte.toNat
  showFloat _ := text ""
  Process := Input Bytes → List (Effect Bytes)
  onInput process _ input := (process, process input)
  timers := .listed _

/-- A participant in a simulation. -/
structure SimNode (W : World) where
  name : Text
  process : W.Process

/-! ## Faults -/

inductive Fault where
  /-- The node stops: its links are cut and its timers cancelled. -/
  | killNode (node : NodeId)
  /-- Cut every link crossing between the two groups. -/
  | cut (a b : List NodeId)
  /-- Reconnect every link crossing between the two groups. -/
  | heal (a b : List NodeId)
  /-- Replace the policy on one direction of one link. -/
  | setLinkPolicy (sender receiver : NodeId) (policy : LinkPolicy)
  /-- Run a node's timers fast or slow, in per-mille of nominal. -/
  | timerSkew (node : NodeId) (perMille : Nat)
  /-- Close the connection between two nodes and accept a new one in its place. -/
  | reconnect (a b : NodeId)
  /-- Stop a node and start it again, under a greater incarnation. -/
  | restartNode (node : NodeId)
  /-- Accept, but stop draining. -/
  | stopReading (node : NodeId)
  /-- Read again: everything held for this node goes out. -/
  | resumeReading (node : NodeId)

namespace Fault

def showNode (node : NodeId) : Text :=
  text "n" ++ decimal node

def group (nodes : List NodeId) : Text :=
  (text ",").intercalate (nodes.map showNode)

def showBool (flag : Bool) : Text :=
  if flag then text "true" else text "false"

/-- A one-line description, for the trace. -/
def summary (W : World) : Fault → Text
  | killNode node => text "kill " ++ showNode node
  | cut a b => text "partition \x7b" ++ group a ++ text "\x7d | \x7b" ++ group b ++ text "\x7d"
  | heal a b => text "heal \x7b" ++ group a ++ text "\x7d | \x7b" ++ group b ++ text "\x7d"
  | setLinkPolicy sender receiver policy =>
      text "policy " ++ showNode sender ++ text "->" ++ showNode receiver ++ text " loss=" ++
        W.showFloat policy.loss ++ text " dup=" ++ W.showFloat policy.duplicate ++ text " cut=" ++
        showBool policy.partitioned
  | timerSkew node perMille => text "skew " ++ showNode node ++ text " " ++ decimal perMille ++
      text "permille"
  | reconnect a b => text "reconnect " ++ showNode a ++ text "|" ++ showNode b
  | restartNode node => text "restart " ++ showNode node
  | stopReading node => text "stop-reading " ++ showNode node
  | resumeReading node => text "resume-reading " ++ showNode node

/-- The node the fault is recorded against. -/
def anchor : Fault → NodeId
  | killNode node => node
  | timerSkew node _ => node
  | restartNode node => node
  | stopReading node => node
  | resumeReading node => node
  | cut a b => (a.head?.or b.head?).getD 0
  | heal a b => (a.head?.or b.head?).getD 0
  | setLinkPolicy sender _ _ => sender
  | reconnect a _ => a

end Fault

/-- Faults with the instants they happen at. -/
abbrev Schedule := List (SimTime × Fault)

/-! ## The trace -/

/-- One thing that happened, at one node. -/
inductive TraceEvent where
  | started
  | sent (receiver : NodeId) (summary : Text)
  | received (sender : NodeId) (summary : Text)
  | dropped (receiver : NodeId) (summary : Text)
  | duplicated (receiver : NodeId) (summary : Text)
  | broken (receiver : NodeId)
  | malformed (sender : NodeId) (reason : Text)
  | timerSet (timer : TimerId) (due : SimTime)
  | timerFired (timer : TimerId)
  | timerCleared (timer : TimerId)
  | note (what : Text)
  | fault (what : Text)
  deriving DecidableEq

end SipxClstr.Simulation
