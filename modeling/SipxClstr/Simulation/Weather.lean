import SipxClstr.Simulation.Run

/-!
# The weather

The policy of every link is what the scenario and its faults made of it, one after the other,
and no kill, restart or message has a part in it.
-/

namespace SipxClstr.Simulation

open SipxClstr.Sip Reactive Machine

/-! ## What a log says of the weather -/

section Logs

variable {M : Type}

/-- The policies once these two groups are cut, or restored. -/
def cutPolicies (policies : NodeId → NodeId → LinkPolicy) (a b : List NodeId)
    (partitioned : Bool) : NodeId → NodeId → LinkPolicy :=
  fun x y =>
    if x ∈ a ∧ y ∈ b ∨ x ∈ b ∧ y ∈ a then { policies x y with partitioned } else policies x y

def arrangedAfter (policies : NodeId → NodeId → LinkPolicy) :
    Record M → NodeId → NodeId → LinkPolicy
  | .parted sender receiver partitioned =>
      setPair policies sender receiver { policies sender receiver with partitioned }
  | .applied (.cut a b) => cutPolicies policies a b true
  | .applied (.heal a b) => cutPolicies policies a b false
  | .applied (.setLinkPolicy sender receiver policy) => setPair policies sender receiver policy
  | _ => policies

/-- The policies as the scenario and its faults have arranged them. -/
def arranged (policies : NodeId → NodeId → LinkPolicy) (log : List (Record M)) :
    NodeId → NodeId → LinkPolicy :=
  log.foldl arrangedAfter policies

/-- Neither the scenario nor a fault changes a policy. -/
def Record.Calm : Record M → Prop
  | .parted _ _ _ => False
  | .applied (.cut _ _) => False
  | .applied (.heal _ _) => False
  | .applied (.setLinkPolicy _ _ _) => False
  | _ => True

theorem Record.Calm.arrangedAfter {record : Record M} (calm : record.Calm)
    (policies : NodeId → NodeId → LinkPolicy) :
    Simulation.arrangedAfter policies record = policies := by
  cases record with
  | parted sender receiver partitioned => exact calm.elim
  | applied fault =>
      cases fault with
      | cut a b => exact calm.elim
      | heal a b => exact calm.elim
      | setLinkPolicy sender receiver policy => exact calm.elim
      | _ => rfl
  | _ => rfl

theorem arranged_calm {log extra : List (Record M)} (calm : ∀ record ∈ extra, record.Calm)
    (policies : NodeId → NodeId → LinkPolicy) :
    arranged policies (log ++ extra) = arranged policies log := by
  induction extra generalizing log with
  | nil => rw [List.append_nil]
  | cons first rest ih =>
      rw [List.append_cons, ih fun record member => calm record (List.mem_cons_of_mem _ member),
        arranged, List.foldl_append]
      exact (calm first List.mem_cons_self).arrangedAfter _

end Logs

namespace Sim

variable {W : World} {sim next : Sim W}

/-- How a link is at its next use. -/
def policies (sim : Sim W) (a b : NodeId) : LinkPolicy :=
  (sim.linkBetween a b).policy

theorem policies_eq (sim : Sim W) (a b : NodeId) :
    sim.policies a b = ((sim.links a b).map Link.policy).getD sim.defaultPolicy := by
  unfold policies linkBetween
  cases sim.links a b <;> rfl

/-! ## What leaves the weather alone -/

/-- No policy changes, and none is said to. -/
structure Still (sim next : Sim W) : Prop where
  policies : next.policies = sim.policies
  log : ∃ extra, next.log = sim.log ++ extra ∧ ∀ record ∈ extra, record.Calm

namespace Still

theorem refl (sim : Sim W) : Still sim sim :=
  ⟨rfl, [], (List.append_nil _).symm, by simp⟩

theorem trans {last : Sim W} (first : Still sim next) (second : Still next last) :
    Still sim last := by
  rcases first with ⟨same, before, isBefore, calm⟩
  rcases second with ⟨still, behind, isBehind, goesOn⟩
  refine ⟨still.trans same, before ++ behind, by rw [isBehind, isBefore, List.append_assoc], ?_⟩
  intro record member
  rcases List.mem_append.mp member with early | late
  · exact calm record early
  · exact goesOn record late

/-- The links stay, and what is written down is no weather. -/
theorem intro (links : next.links = sim.links) (default : next.defaultPolicy = sim.defaultPolicy)
    (extra : List (Record W.Message)) (log : next.log = sim.log ++ extra)
    (calm : ∀ record ∈ extra, record.Calm) : Still sim next := by
  refine ⟨?_, extra, log, calm⟩
  funext a b
  rw [policies_eq, policies_eq, links, default]

theorem written (links : next.links = sim.links)
    (default : next.defaultPolicy = sim.defaultPolicy) {record : Record W.Message}
    (calm : record.Calm) (log : next.log = sim.log ++ [record]) : Still sim next :=
  intro links default [record] log (by simpa using calm)

theorem traced (sim : Sim W) (node : NodeId) (event : TraceEvent) (write : Option Nat) :
    Still sim (sim.record node event write) := by
  have calm : (Record.traced (M := W.Message) sim.now node (sim.nameOf node) event write).Calm :=
    trivial
  exact written rfl rfl calm rfl

end Still

theorem Crossed.still {sender receiver write : Nat} {bytes : Bytes} {summary : Text}
    (crossed : Crossed sim sender receiver bytes summary write next) : Still sim next := by
  have same : ∀ link : Link, link.policy = (sim.linkBetween sender receiver).policy →
      ∀ a b, ((setPair sim.links sender receiver (some link) a b).map Link.policy).getD
        sim.defaultPolicy = sim.policies a b := by
    intro link policy a b
    by_cases isPair : a = sender ∧ b = receiver
    · rcases isPair with ⟨rfl, rfl⟩
      rw [setPair_self]
      exact policy
    · rw [setPair_of_ne isPair, policies_eq]
  cases crossed with
  | dropped link _ policy =>
      refine ⟨?_, [_], rfl, by simp [Record.Calm]⟩
      funext a b
      rw [policies_eq]
      exact same link policy a b
  | broken link _ policy =>
      refine ⟨?_, [], (List.append_nil _).symm, by simp⟩
      funext a b
      rw [policies_eq]
      exact same link policy a b
  | once link due _ policy =>
      refine ⟨?_, [_], rfl, by simp [Record.Calm]⟩
      funext a b
      rw [policies_eq]
      exact same link policy a b
  | twice link first second _ policy =>
      refine ⟨?_, [_, _], rfl, by simp [Record.Calm]⟩
      funext a b
      rw [policies_eq]
      exact same link policy a b

/-- The policies are as they have been arranged. -/
def AsArranged (start : NodeId → NodeId → LinkPolicy) (sim : Sim W) : Prop :=
  sim.policies = arranged start sim.log

variable {start : NodeId → NodeId → LinkPolicy}

theorem AsArranged.still (as : AsArranged start sim) (still : Still sim next) :
    AsArranged start next := by
  rcases still.log with ⟨extra, isLog, calm⟩
  rw [AsArranged, still.policies, isLog, arranged_calm calm]
  exact as

end Sim

end SipxClstr.Simulation
