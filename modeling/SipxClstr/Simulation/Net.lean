import SipxClstr.Simulation.Time
import SipxClstr.Simulation.Rng

/-!
# The simulated network

A datagram link samples each message by itself, so that order is lost to jitter.  A stream
link keeps the order it is written in: an arrival is pushed behind the one before it.  A link
that is cut drops, or breaks.
-/

namespace SipxClstr.Simulation

open SipxClstr.Sip

/-- Which node, by position in the simulation. -/
abbrev NodeId := Nat

/-- How long a message spends on a link, in nanoseconds. -/
inductive Latency where
  | constant (delay : Nat)
  | uniform (min max : Nat)
  deriving DecidableEq

namespace Latency

def instant : Latency :=
  .constant 0

/-- Draw one delivery delay. -/
def sample (latency : Latency) (rng : SimRng) : Nat × SimRng :=
  match latency with
  | constant delay => (delay, rng)
  | uniform min max =>
      let low := UInt64.ofNat (Min.min min lastNanos)
      let high := UInt64.ofNat (Min.min max lastNanos)
      ((rng.rangeInclusive low high).1.toNat, (rng.rangeInclusive low high).2)

end Latency

/-- What a link does to the messages crossing it. -/
structure LinkPolicy where
  /-- Probability a datagram is dropped. -/
  loss : Float
  /-- Probability a datagram is delivered twice. -/
  duplicate : Float
  latency : Latency
  /-- Whether the link is currently cut. -/
  partitioned : Bool

/-- Instant, lossless, connected. -/
def LinkPolicy.clean : LinkPolicy where
  loss := 0.0
  duplicate := 0.0
  latency := .instant
  partitioned := false

inductive LinkKind where
  | datagram
  | stream
  deriving DecidableEq, Repr

/-- What a link decided to do with one message. -/
inductive Delivery where
  | once (after : Nat)
  /-- The second copy after the first. -/
  | twice (first second : Nat)
  | dropped
  | broken
  deriving DecidableEq, Repr

/-- One direction of one link. -/
structure Link where
  kind : LinkKind
  policy : LinkPolicy
  rng : SimRng
  /-- When the last message on a stream link was scheduled to arrive. -/
  lastArrival : Option SimTime

namespace Link

def new (kind : LinkKind) (policy : LinkPolicy) (masterSeed : UInt64) (label : Text) : Link where
  kind := kind
  policy := policy
  rng := .stream masterSeed label
  lastArrival := none

/-- The result of cutting this transport, shared by partitions and node kills. -/
def cutOutcome (link : Link) : Delivery :=
  match link.kind with
  | .datagram => .dropped
  | .stream => .broken

/-- The arrival on a stream link, no earlier than a nanosecond after the previous one. -/
def arrival (link : Link) (now : SimTime) (first : Nat) : SimTime :=
  match link.lastArrival with
  | some previous =>
      if now.saturatingAdd first ≤ previous then
        previous.saturatingAdd 1
      else
        now.saturatingAdd first
  | none => now.saturatingAdd first

/-- Decide what happens to one message, drawing only where the outcome is uncertain. -/
def decide (link : Link) (now : SimTime) : Delivery × Link :=
  if link.policy.partitioned then
    (link.cutOutcome, link)
  else
    let (lost, rng) :=
      if link.kind = .datagram then link.rng.chance link.policy.loss else (false, link.rng)
    if lost then
      (.dropped, { link with rng })
    else
      let (first, rng) := link.policy.latency.sample rng
      let (duplicated, rng) :=
        if link.kind = .datagram then rng.chance link.policy.duplicate else (false, rng)
      if link.kind = .stream then
        let arrival := link.arrival now first
        (.once (arrival.since now), { link with rng, lastArrival := some arrival })
      else if duplicated then
        let (second, rng) := link.policy.latency.sample rng
        (if first ≤ second then .twice first second else .twice second first, { link with rng })
      else
        (.once first, { link with rng })

/-! ## What a decision leaves -/

variable {link : Link} {now : SimTime}

@[simp]
theorem kind_decide : (link.decide now).2.kind = link.kind := by
  unfold decide
  split
  · rfl
  · repeat' split
    all_goals rfl

@[simp]
theorem policy_decide : (link.decide now).2.policy = link.policy := by
  unfold decide
  split
  · rfl
  · repeat' split
    all_goals rfl

/-- An arrival is not in the past. -/
theorem le_arrival (first : Nat) : now ≤ link.arrival now first := by
  have later := now.le_saturatingAdd first
  unfold arrival
  split
  · next previous _ =>
      split
      · next early => exact later.trans (early.trans (previous.le_saturatingAdd 1))
      · exact later
  · exact later

/-- An arrival is not before the one before it. -/
theorem previous_le_arrival {previous : SimTime} (isLast : link.lastArrival = some previous)
    (first : Nat) : previous ≤ link.arrival now first := by
  simp only [arrival, isLast]
  split
  · exact previous.le_saturatingAdd 1
  · next late => exact (lt_of_not_ge late).le

/-- A stream link breaks, or has the message arrive, once and in order. -/
theorem decide_stream (isStream : link.kind = .stream) :
    link.decide now = (.broken, link) ∨
      ∃ arrival rng, now ≤ arrival ∧ (∀ previous, link.lastArrival = some previous →
        previous ≤ arrival) ∧
        link.decide now =
          (.once (arrival.since now), { link with rng, lastArrival := some arrival }) := by
  unfold decide
  split
  · left
    simp [cutOutcome, isStream]
  right
  simp only [isStream, reduceCtorEq, if_false, Bool.false_eq_true]
  exact ⟨_, _, le_arrival _, fun _ isLast => previous_le_arrival isLast _, rfl⟩

end Link

end SipxClstr.Simulation
