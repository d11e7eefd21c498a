import Mathlib.Logic.Function.Basic
import Mathlib.Logic.Relation
import SipxClstr.Reactive.Run

/-!
# Networks of sans-IO machines

Several machines exchange messages.  What one of them sends reaches another at any later time, more
than once, out of order or not at all, and strangers send messages of their own.  What holds of
every message on the way is shown one machine at a time.
-/

namespace Reactive

universe u v w

/-- A machine that takes messages in and sends messages out. -/
structure Party (μ : Type w) where
  State : Type u
  Input : Type u
  Effect : Type u
  machine : Machine State Input Effect
  start : State
  /-- The message an input brings, if it brings one. -/
  brings : Input → Option μ
  /-- The message an effect sends, if it sends one. -/
  sends : Effect → Option μ

namespace Party

variable {μ : Type w} (party : Party.{u, w} μ)

/-- The messages taken in over a history. -/
def taken (history : List party.Input) : List μ :=
  history.filterMap party.brings

/-- The messages sent over a history. -/
def sent (history : List party.Input) : List μ :=
  (party.machine.emitted party.start history).filterMap party.sends

/-- What the party sends when this input arrives after this history. -/
def sentBy (past : List party.Input) (input : party.Input) : List μ :=
  (party.machine (party.machine.after party.start past) input).2.filterMap party.sends

theorem sent_concat (past : List party.Input) (input : party.Input) :
    party.sent (past ++ [input]) = party.sent past ++ party.sentBy past input := by
  rw [sent, Machine.emitted_concat, List.filterMap_append]
  rfl

theorem taken_append (past later : List party.Input) :
    party.taken (past ++ later) = party.taken past ++ party.taken later :=
  List.filterMap_append

variable {party}

/-- What has been sent stays sent. -/
theorem sent_prefix {earlier later : List party.Input} (isPrefix : earlier <+: later) :
    party.sent earlier <+: party.sent later := by
  obtain ⟨rest, rfl⟩ := isPrefix
  rw [sent, sent, Machine.emitted_append, List.filterMap_append]
  exact List.prefix_append _ _

/-- A message that was sent was sent by some turn. -/
theorem exists_turn {history : List party.Input} {message : μ} (member : message ∈ party.sent history) :
    ∃ past input later, history = past ++ input :: later ∧ message ∈ party.sentBy past input := by
  induction history using List.reverseRecOn with
  | nil => exact absurd member List.not_mem_nil
  | append_singleton past input ih =>
      rw [sent_concat] at member
      rcases List.mem_append.mp member with earlier | now
      · obtain ⟨before, turn, later, rfl, sent⟩ := ih earlier
        exact ⟨before, turn, later ++ [input], by simp, sent⟩
      · exact ⟨past, input, [], rfl, now⟩

end Party

variable {ι : Type v} {μ : Type w} {parties : ι → Party.{u, w} μ}

/-- What has happened: what every party has taken in so far, and what strangers have sent. -/
structure World (parties : ι → Party.{u, w} μ) where
  history : (place : ι) → List (parties place).Input
  strays : List μ

namespace World

/-- Nothing has happened yet. -/
def start : World parties where
  history _ := []
  strays := []

/-- The message was sent by somebody. -/
def Carries (world : World parties) (message : μ) : Prop :=
  message ∈ world.strays ∨ ∃ place, message ∈ (parties place).sent (world.history place)

/-- The place takes one more input in. -/
def feed [DecidableEq ι] (world : World parties) (place : ι) (input : (parties place).Input) :
    World parties :=
  { world with history := Function.update world.history place (world.history place ++ [input]) }

/-- A stranger sends one more message. -/
def stray (world : World parties) (message : μ) : World parties :=
  { world with strays := world.strays ++ [message] }

/-- A party takes in what somebody sent, or what brings no message; or a stranger sends a message. -/
inductive Step [DecidableEq ι] (stranger : μ → Prop) : World parties → World parties → Prop where
  | takes {world : World parties} (place : ι) (input : (parties place).Input)
      (carried : ∀ message, (parties place).brings input = some message → world.Carries message) :
      Step stranger world (world.feed place input)
  | strays {world : World parties} (message : μ) (strange : stranger message) :
      Step stranger world (world.stray message)

/-- What can come to happen. -/
def Reached [DecidableEq ι] (stranger : μ → Prop) : World parties → Prop :=
  Relation.ReflTransGen (Step stranger) start

variable [DecidableEq ι] {stranger : μ → Prop} {world next : World parties}

theorem Reached.takes (reached : Reached stranger world) (place : ι)
    (input : (parties place).Input)
    (carried : ∀ message, (parties place).brings input = some message → world.Carries message) :
    Reached stranger (world.feed place input) :=
  .tail reached (.takes place input carried)

theorem Reached.strays (reached : Reached stranger world) {message : μ}
    (strange : stranger message) : Reached stranger (world.stray message) :=
  .tail reached (.strays message strange)

theorem history_feed_self (place : ι) (input : (parties place).Input) :
    (world.feed place input).history place = world.history place ++ [input] :=
  Function.update_self _ _ _

theorem history_feed_of_ne {place other : ι} (different : other ≠ place)
    (input : (parties place).Input) : (world.feed place input).history other = world.history other :=
  Function.update_of_ne different _ _

theorem Step.grows (step : Step stranger world next) (place : ι) :
    world.history place <+: next.history place := by
  cases step with
  | takes taker input carried =>
      by_cases same : place = taker
      · subst same
        rw [history_feed_self]
        exact List.prefix_append _ _
      · have unchanged := world.history_feed_of_ne same input
        exact unchanged ▸ List.prefix_rfl
  | strays message strange => exact List.prefix_refl _

/-- What somebody sent stays sent. -/
theorem Step.carries (step : Step stranger world next) {message : μ}
    (carries : world.Carries message) : next.Carries message := by
  rcases carries with stray | ⟨place, sent⟩
  · cases step with
    | takes taker input carried => exact .inl stray
    | strays other strange => exact .inl (List.mem_append_left _ stray)
  · exact .inr ⟨place, (Party.sent_prefix (step.grows place)).subset sent⟩

/-- What a party has taken in after a step it had taken in before, or somebody had sent it. -/
theorem Step.taken (step : Step stranger world next) {place : ι} {message : μ}
    (taken : message ∈ (parties place).taken (next.history place)) :
    message ∈ (parties place).taken (world.history place) ∨ world.Carries message := by
  cases step with
  | takes taker input carried =>
      by_cases same : place = taker
      · subst same
        rw [history_feed_self, Party.taken_append] at taken
        rcases List.mem_append.mp taken with past | now
        · exact .inl past
        · obtain ⟨only, member, brings⟩ := List.mem_filterMap.mp now
          rw [List.mem_singleton.mp member] at brings
          exact .inr (carried message brings)
      · rw [history_feed_of_ne same] at taken
        exact .inl taken
  | strays other strange => exact .inl taken

/-- Whatever a party takes in was sent by somebody. -/
theorem Reached.carried (reached : Reached stranger world) {place : ι} {message : μ}
    (taken : message ∈ (parties place).taken (world.history place)) : world.Carries message := by
  induction reached with
  | refl => exact absurd taken List.not_mem_nil
  | tail earlier step ih =>
      rcases step.taken taken with past | sent
      · exact step.carries (ih past)
      · exact step.carries sent

/-- What holds of every message strangers send, and of every message a party sends that has only
taken in messages of which it holds, holds of every message anybody sends. -/
theorem Reached.carries_of (reached : Reached stranger world) {holds : μ → Prop}
    (strange : ∀ message, stranger message → holds message)
    (passes : ∀ place history, history <+: world.history place →
      (∀ message ∈ (parties place).taken history, holds message) →
        ∀ message ∈ (parties place).sent history, holds message) :
    ∀ message, world.Carries message → holds message := by
  -- Every world on the way has histories that those of this world go on from.
  have onTheWay : ∀ earlier : World parties, Reached stranger earlier →
      (∀ place, earlier.history place <+: world.history place) →
        ∀ message, earlier.Carries message → holds message := by
    intro earlier way
    induction way with
    | refl =>
        rintro - message (stray | ⟨place, sent⟩)
        · exact absurd stray List.not_mem_nil
        · exact absurd sent List.not_mem_nil
    | @tail middle later way step ih =>
        intro goesOn message carries
        have middleHolds := ih fun place => (step.grows place).trans (goesOn place)
        have takenHolds : ∀ place, ∀ message ∈ (parties place).taken (later.history place),
            holds message := by
          intro place message taken
          rcases step.taken taken with past | sent
          · exact middleHolds message (Reached.carried way past)
          · exact middleHolds message sent
        rcases carries with stray | ⟨place, sent⟩
        · cases step with
          | takes taker input carried => exact middleHolds message (.inl stray)
          | strays other strangeOther =>
              rcases List.mem_append.mp stray with past | now
              · exact middleHolds message (.inl past)
              · rw [List.mem_singleton.mp now]
                exact strange other strangeOther
        · exact passes place _ (goesOn place) (takenHolds place) message sent
  exact onTheWay world reached fun place => List.prefix_refl _

end World

end Reactive
