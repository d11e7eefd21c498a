import SipxClstr.Registrar.Process
import SipxClstr.Registrar.Lookup
import Mathlib.Logic.Function.Basic

/-!
# The location store

The compare-and-swap contract of a store, the in-memory backend, and the loop that
applies a REGISTER: read, decide, commit, and on conflict do it again.
-/

namespace SipxClstr.Registrar

open SipxClstr.Sip

universe u

variable {K : Kernel}

/-- The commit lost a race: someone else wrote this address-of-record first. -/
structure CasConflict where
  expected : Revision
  current : Revision
  deriving DecidableEq

/-- Why an authoritative read could not answer. -/
inductive ReadFailure where
  | unavailable (detail : Text)
  | undecodable (detail : Text)
  deriving DecidableEq

/-- A change notification.  It carries no binding: a consumer reads again. -/
structure Change where
  tenant : Text
  aor : CanonicalAor
  revision : Revision
  deriving DecidableEq

/-- The serialization domain, and nothing wider. -/
abbrev RowKey := Text × CanonicalAor

/-- Where bindings live: what an operation does to a state of the store, and answers. -/
structure LocationStore (σ : Type u) where
  read : σ → Text → CanonicalAor → Except ReadFailure (BindingSet × Revision)
  commit : σ → Text → CanonicalAor → Revision → BindingSet → σ × Except CasConflict Revision
  lookup : σ → Text → CanonicalAor → Timestamp → Except ReadFailure (List Target)
  changes : σ → List Change

/-! ## The in-memory backend -/

/-- The in-memory backend, behind its lock. -/
structure InMemoryStore where
  rows : RowKey → Option (BindingSet × Revision)
  /-- A bounded change feed, oldest first. -/
  changes : List Change

/-- The most recent changes a store retains. -/
def changeFeedCapacity : Nat :=
  1024

namespace InMemoryStore

def new : InMemoryStore where
  rows := fun _ => none
  changes := []

/-- Absence is an answer: the empty set at the initial revision. -/
def read (store : InMemoryStore) (tenant : Text) (aor : CanonicalAor) :
    Except ReadFailure (BindingSet × Revision) :=
  .ok ((store.rows (tenant, aor)).getD ([], .initial))

/-- Install `set` if the stored revision is still `expected`. -/
def commit (store : InMemoryStore) (tenant : Text) (aor : CanonicalAor) (expected : Revision)
    (set : BindingSet) : InMemoryStore × Except CasConflict Revision :=
  let current := ((store.rows (tenant, aor)).map Prod.snd).getD .initial
  if current ≠ expected then
    (store, .error ⟨expected, current⟩)
  else
    let next := current.next
    let changes := store.changes ++ [⟨tenant, aor, next⟩]
    ({ rows := Function.update store.rows (tenant, aor) (some (set, next))
       changes := if changeFeedCapacity < changes.length then changes.drop 1 else changes },
      .ok next)

def lookup (store : InMemoryStore) (tenant : Text) (aor : CanonicalAor) (now : Timestamp) :
    Except ReadFailure (List Target) :=
  match store.rows (tenant, aor) with
  | none => .ok []
  | some (set, _) => .ok (orderTargets set now)

/-- `impl LocationStore for InMemoryStore`. -/
def locationStore : LocationStore InMemoryStore where
  read := read
  commit := commit
  lookup := lookup
  changes := changes

/-- What a row holds: the set, and the revision it is at. -/
def row (store : InMemoryStore) (key : RowKey) : BindingSet × Revision :=
  (store.rows key).getD ([], .initial)

theorem read_eq (store : InMemoryStore) (tenant : Text) (aor : CanonicalAor) :
    store.read tenant aor = .ok (store.row (tenant, aor)) :=
  rfl

theorem revision_eq (store : InMemoryStore) (key : RowKey) :
    ((store.rows key).map Prod.snd).getD .initial = (store.row key).2 := by
  rw [row]
  cases store.rows key <;> rfl

/-- The lookup reads the row. -/
theorem lookup_eq (store : InMemoryStore) (tenant : Text) (aor : CanonicalAor) (now : Timestamp) :
    store.lookup tenant aor now = .ok (orderTargets (store.row (tenant, aor)).1 now) := by
  rw [lookup, row]
  cases store.rows (tenant, aor) <;> rfl

/-- A commit under another revision than the row's leaves the store. -/
theorem commit_of_ne {store : InMemoryStore} {tenant : Text} {aor : CanonicalAor}
    {expected : Revision} (moved : (store.row (tenant, aor)).2 ≠ expected) (set : BindingSet) :
    store.commit tenant aor expected set =
      (store, .error ⟨expected, (store.row (tenant, aor)).2⟩) := by
  simp only [commit, revision_eq]
  rw [if_pos moved]

/-- A commit under the row's revision installs the set at the next one, and touches no
other row. -/
theorem commit_of_eq {store : InMemoryStore} {tenant : Text} {aor : CanonicalAor}
    {expected : Revision} (current : (store.row (tenant, aor)).2 = expected) (set : BindingSet) :
    (store.commit tenant aor expected set).2 = .ok expected.next ∧
      (store.commit tenant aor expected set).1.row =
        Function.update store.row (tenant, aor) (set, expected.next) := by
  simp only [commit, revision_eq, current]
  rw [if_neg (not_not_intro rfl)]
  refine ⟨rfl, ?_⟩
  funext key
  change (Function.update store.rows (tenant, aor) (some (set, expected.next)) key).getD _ = _
  by_cases same : key = (tenant, aor)
  · rw [same, Function.update_self, Function.update_self, Option.getD_some]
  · rw [Function.update_of_ne same, Function.update_of_ne same, row]

end InMemoryStore

/-! ## The driver loop -/

/-- What applying a command actually did. -/
structure Applied where
  outcome : Outcome
  /-- The revision the address-of-record ended at, when one was learned. -/
  revision : Option Revision
  /-- How many conflicts were absorbed on the way. -/
  conflicts : Nat
  deriving DecidableEq

/-- What one call of `apply` is given beside the store. -/
structure Task (K : Kernel) where
  cmd : RegisterCommand K
  policy : TenantPolicy
  retries : Nat

/-- The row a call is about. -/
def Task.key (task : Task K) : RowKey :=
  (task.cmd.tenant, task.cmd.aor)

section Apply

variable {σ : Type u} (R : ContactRules K) (store : LocationStore σ) (task : Task K)

/-- The loop, with `left` conflicts still to absorb. -/
def applyFrom : Nat → Nat → σ → σ × Applied
  | left, conflicts, state =>
      match store.read state task.cmd.tenant task.cmd.aor with
      | .error _ => (state, ⟨.reject .unavailable, none, conflicts⟩)
      | .ok (current, revision) =>
          match process R task.cmd current task.policy with
          | .commit set response =>
              match store.commit state task.cmd.tenant task.cmd.aor revision set with
              | (next, .ok committed) => (next, ⟨.commit set response, some committed, conflicts⟩)
              | (next, .error conflict) =>
                  match left with
                  | 0 => (next, ⟨.reject .unavailable, some conflict.current, conflicts + 1⟩)
                  | left + 1 => applyFrom left (conflicts + 1) next
          | outcome => (state, ⟨outcome, some revision, conflicts⟩)

/-- Apply a REGISTER: read, decide, commit, and on conflict do it again. -/
def apply (state : σ) : σ × Applied :=
  applyFrom R store task task.retries 0 state

/-- Where a call of `apply` stands between two operations of the store. -/
inductive Phase where
  /-- About to read. -/
  | reading (conflicts : Nat)
  /-- About to commit what it decided of the revision it read. -/
  | holding (set : BindingSet) (response : Accepted) (revision : Revision) (conflicts : Nat)
  | done (applied : Applied)
  deriving DecidableEq

/-- From one operation of the store to the next, and the changes committed on the way. -/
def advance (state : σ) : Phase → σ × Phase × List Change
  | .reading conflicts =>
      match store.read state task.cmd.tenant task.cmd.aor with
      | .error _ => (state, .done ⟨.reject .unavailable, none, conflicts⟩, [])
      | .ok (current, revision) =>
          match process R task.cmd current task.policy with
          | .commit set response => (state, .holding set response revision conflicts, [])
          | outcome => (state, .done ⟨outcome, some revision, conflicts⟩, [])
  | .holding set response revision conflicts =>
      match store.commit state task.cmd.tenant task.cmd.aor revision set with
      | (next, .ok committed) =>
          (next, .done ⟨.commit set response, some committed, conflicts⟩,
            [⟨task.cmd.tenant, task.cmd.aor, committed⟩])
      | (next, .error conflict) =>
          if task.retries < conflicts + 1 then
            (next, .done ⟨.reject .unavailable, some conflict.current, conflicts + 1⟩, [])
          else
            (next, .reading (conflicts + 1), [])
  | .done applied => (state, .done applied, [])

/-- A call that runs alone, operation by operation. -/
def alone : Nat → σ → Phase → σ × Phase
  | 0, state, phase => (state, phase)
  | steps + 1, state, phase =>
      alone steps (advance R store task state phase).1 (advance R store task state phase).2.1

/-- Operation by operation a call that runs alone does what the loop does. -/
theorem exists_alone_eq (left conflicts : Nat) (state : σ)
    (budget : conflicts + left = task.retries) :
    ∃ steps, alone R store task steps state (.reading conflicts) =
      ((applyFrom R store task left conflicts state).1,
        .done (applyFrom R store task left conflicts state).2) := by
  induction left using Nat.strong_induction_on generalizing conflicts state with
  | _ left ih =>
    unfold applyFrom
    cases found : store.read state task.cmd.tenant task.cmd.aor with
    | error failure => exact ⟨1, by simp [alone, advance, found]⟩
    | ok row =>
        obtain ⟨current, revision⟩ := row
        cases decided : process R task.cmd current task.policy with
        | noop response => exact ⟨1, by simp [alone, advance, found, decided]⟩
        | reject rejection => exact ⟨1, by simp [alone, advance, found, decided]⟩
        | commit set response =>
            rcases committed : store.commit state task.cmd.tenant task.cmd.aor revision set with
              ⟨next, conflict | installed⟩
            · cases left with
              | zero =>
                  have spent : task.retries < conflicts + 1 := by omega
                  refine ⟨2, ?_⟩
                  simp [alone, advance, found, decided, committed, spent]
              | succ left =>
                  have within : ¬ task.retries < conflicts + 1 := by omega
                  obtain ⟨steps, ends⟩ :=
                    ih left (Nat.lt_succ_self left) (conflicts + 1) next (by omega)
                  refine ⟨steps + 2, ?_⟩
                  simp [alone, advance, found, decided, committed, within, ends]
            · exact ⟨2, by simp [alone, advance, found, decided, committed]⟩

/-- A call that runs alone ends where the loop does. -/
theorem exists_alone_eq_apply (state : σ) :
    ∃ steps, alone R store task steps state (.reading 0) =
      ((apply R store task state).1, .done (apply R store task state).2) :=
  exists_alone_eq R store task task.retries 0 state (Nat.zero_add _)

end Apply

end SipxClstr.Registrar
