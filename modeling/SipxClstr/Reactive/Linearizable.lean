import Mathlib.Data.List.Nodup
import SipxClstr.Reactive.Run

/-!
# Linearizability

Calls run concurrently, one step of one call at a time.  Their run is linearizable when an
atomic object gives every call that is done the answer it got, for some order of the calls
that keeps the order of those that do not overlap.

The rule proved here is for calls that take effect in their last step: a simulation of
each step by the object, or by nothing.
-/

namespace Reactive

open Machine

universe u v w x y

variable {σ : Type u} {τ : Type v} {ι : Type w} {α : Type x} {ε : Type y}

/-- An atomic object as a machine: a call takes effect and is answered in one step. -/
def serial (object : τ → ι → τ × α) : Machine τ ι (ι × α) :=
  fun state call => ((object state call).1, [(call, (object state call).2)])

/-- The object gave every answer in some state of its own. -/
theorem exists_of_mem_emitted_serial {object : τ → ι → τ × α} {start : τ} {order : List ι}
    {call : ι} {result : α} (member : (call, result) ∈ emitted (serial object) start order) :
    ∃ state, result = (object state call).2 := by
  induction order generalizing start with
  | nil => contradiction
  | cons first rest ih =>
      rcases List.mem_append.mp member with now | later
      · obtain ⟨isFirst, isResult⟩ := Prod.mk.inj (List.mem_singleton.mp now)
        refine ⟨start, ?_⟩
        rw [isFirst]
        exact isResult
      · exact ih later

/-- The calls of a run could have taken effect one after the other. -/
def Linearizable (concurrent : Machine σ ι ε) (answer : σ → ι → Option α)
    (object : τ → ι → τ × α) (begin : σ) (start : τ) (inputs : List ι) : Prop :=
  ∃ order : List ι, order.Nodup ∧
    (∀ call result, answer (after concurrent begin inputs) call = some result →
      (call, result) ∈ emitted (serial object) start order) ∧
    ∀ past future first second, inputs = past ++ future →
      (answer (after concurrent begin past) first).isSome = true → second ∉ past →
        second ∈ order →
          ∃ earlier later, order = earlier ++ later ∧ first ∈ earlier ∧ second ∈ later

/-- A step of a call answers it, as the object would at once, or it answers nothing. -/
inductive Completes (answer : σ → ι → Option α) (object : τ → ι → τ × α)
    (represents : σ → τ → Prop) (state : σ) (atomic : τ) (call : ι) :
    σ × List (ι × α) → Prop where
  | silent {next : σ} (same : ∀ other, answer next other = answer state other)
      (represented : represents next atomic) :
      Completes answer object represents state atomic call (next, [])
  | completed {next : σ} (pending : answer state call = none)
      (answered : answer next call = some (object atomic call).2)
      (others : ∀ other, other ≠ call → answer next other = answer state other)
      (represented : represents next (object atomic call).1) :
      Completes answer object represents state atomic call
        (next, [(call, (object atomic call).2)])

section Rule

variable {concurrent : Machine σ ι (ι × α)} {answer : σ → ι → Option α}
  {object : τ → ι → τ × α} {represents : σ → τ → Prop} {begin : σ} {start : τ}

/-- The calls completed so far, in the order in which they were. -/
def completedOrder (concurrent : Machine σ ι (ι × α)) (begin : σ) (inputs : List ι) : List ι :=
  (emitted concurrent begin inputs).map Prod.fst

theorem completedOrder_append (first second : List ι) :
    completedOrder concurrent begin (first ++ second) =
      completedOrder concurrent begin first ++
        completedOrder concurrent (after concurrent begin first) second := by
  rw [completedOrder, emitted_append, List.map_append]
  rfl

/-- What a run amounts to, in the order of its completions. -/
structure Serialized (concurrent : Machine σ ι (ι × α)) (answer : σ → ι → Option α)
    (object : τ → ι → τ × α) (represents : σ → τ → Prop) (begin : σ) (start : τ)
    (inputs : List ι) : Prop where
  represented : represents (after concurrent begin inputs)
    (after (serial object) start (completedOrder concurrent begin inputs))
  answers : emitted (serial object) start (completedOrder concurrent begin inputs) =
    emitted concurrent begin inputs
  answered : ∀ call result, answer (after concurrent begin inputs) call = some result ↔
    (call, result) ∈ emitted concurrent begin inputs
  nodup : (completedOrder concurrent begin inputs).Nodup
  stepped : ∀ call ∈ completedOrder concurrent begin inputs, call ∈ inputs

/-- A step keeps a run serialized. -/
theorem Serialized.concat {past : List ι} {call : ι}
    (serialized : Serialized concurrent answer object represents begin start past)
    (completes : Completes answer object represents (after concurrent begin past)
      (after (serial object) start (completedOrder concurrent begin past)) call
      (concurrent (after concurrent begin past) call)) :
    Serialized concurrent answer object represents begin start (past ++ [call]) := by
  have next : ∀ effects, (concurrent (after concurrent begin past) call).2 = effects →
      completedOrder concurrent begin (past ++ [call]) =
        completedOrder concurrent begin past ++ effects.map Prod.fst := by
    rintro effects rfl
    rw [completedOrder, emitted_concat, List.map_append]
    rfl
  generalize reached : concurrent (after concurrent begin past) call = outcome at completes next
  cases completes with
  | @silent state same represented =>
      have order := next [] rfl
      rw [List.map_nil, List.append_nil] at order
      have emits : emitted concurrent begin (past ++ [call]) = emitted concurrent begin past := by
        rw [emitted_concat, reached, List.append_nil]
      constructor
      · rw [order, after_concat, reached]
        exact represented
      · rw [order, emits]
        exact serialized.answers
      · intro other result
        rw [after_concat, reached, emits, same]
        exact serialized.answered other result
      · rw [order]
        exact serialized.nodup
      · intro other member
        rw [order] at member
        exact List.mem_append_left _ (serialized.stepped other member)
  | @completed state pending answered others represented =>
      have order := next _ rfl
      rw [List.map_singleton] at order
      have emits : emitted concurrent begin (past ++ [call]) =
          emitted concurrent begin past ++ [(call, (object
            (after (serial object) start (completedOrder concurrent begin past)) call).2)] := by
        rw [emitted_concat, reached]
      have fresh : call ∉ completedOrder concurrent begin past := by
        intro member
        obtain ⟨⟨other, result⟩, event, rfl⟩ := List.mem_map.mp member
        have earlier := (serialized.answered other result).mpr event
        rw [pending] at earlier
        contradiction
      constructor
      · rw [order, after_concat, after_concat, reached]
        exact represented
      · rw [order, emitted_concat, emits, serialized.answers]
        rfl
      · intro other result
        rw [after_concat, reached, emits, List.mem_append, List.mem_singleton]
        by_cases same : other = call
        · subst other
          rw [answered]
          constructor
          · intro isResult
            rw [← Option.some.inj isResult]
            exact .inr rfl
          · rintro (earlier | now)
            · exact absurd (List.mem_map_of_mem earlier) fresh
            · exact congrArg some (Prod.ext_iff.mp now).2.symm
        · rw [others other same, serialized.answered]
          constructor
          · exact .inl
          · rintro (earlier | now)
            · exact earlier
            · exact absurd (Prod.ext_iff.mp now).1 same
      · rw [order, List.nodup_append]
        refine ⟨serialized.nodup, List.nodup_singleton _, ?_⟩
        rintro earlier member _ now rfl
        rw [List.mem_singleton.mp now] at member
        exact fresh member
      · intro other member
        rw [order] at member
        rcases List.mem_append.mp member with earlier | now
        · exact List.mem_append_left _ (serialized.stepped other earlier)
        · exact List.mem_append_right _ now

/-- A run whose steps the object simulates is serialized in the order of its completions. -/
theorem serialized_after {condition : σ → ι → Prop}
    (initial : ∀ call, answer begin call = none) (represented : represents begin start)
    (completes : ∀ state atomic call, represents state atomic → condition state call →
      Completes answer object represents state atomic call (concurrent state call))
    {inputs : List ι} (along : Along concurrent condition begin inputs) :
    Serialized concurrent answer object represents begin start inputs := by
  apply concurrent.history_induction _ _ _ along
  · constructor
    · exact represented
    · rfl
    · intro call result
      rw [after_nil, initial]
      simp
    · exact List.nodup_nil
    · intro call member
      contradiction
  · intro past call serialized holds
    exact serialized.concat (completes _ _ call serialized.represented holds)

/-- Such a run is linearizable. -/
theorem linearizable_of_completes {condition : σ → ι → Prop}
    (initial : ∀ call, answer begin call = none) (represented : represents begin start)
    (completes : ∀ state atomic call, represents state atomic → condition state call →
      Completes answer object represents state atomic call (concurrent state call))
    {inputs : List ι} (along : Along concurrent condition begin inputs) :
    Linearizable concurrent answer object begin start inputs := by
  have serialized := serialized_after initial represented completes along
  refine ⟨completedOrder concurrent begin inputs, serialized.nodup, ?_, ?_⟩
  · intro call result answered
    rw [serialized.answers]
    exact (serialized.answered call result).mp answered
  · rintro past future first second rfl done fresh member
    have before := serialized_after initial represented completes
      ((along_append concurrent condition begin past future).mp along).1
    obtain ⟨result, isResult⟩ := Option.isSome_iff_exists.mp done
    refine ⟨_, _, completedOrder_append past future, ?_, ?_⟩
    · exact List.mem_map_of_mem ((before.answered first result).mp isResult)
    · rw [completedOrder_append] at member
      rcases List.mem_append.mp member with earlier | later
      · exact absurd (before.stepped second earlier) fresh
      · exact later

end Rule

end Reactive
