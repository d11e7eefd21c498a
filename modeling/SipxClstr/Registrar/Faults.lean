import SipxClstr.Reactive.Journal
import SipxClstr.Registrar.Drivers
import SipxClstr.Registrar.Retransmission

/-!
# A store that fails

Any number of calls of `apply` on one store, any operation of which may fail.  A read
that fails ends its call.  A commit that fails is reported as a conflict at the revision
it expected, whether or not it has changed the row, so the call goes round again.
-/

namespace SipxClstr.Registrar

open SipxClstr.Sip Reactive Reactive.Machine

universe u

variable {K : Kernel} {ι : Type u}

/-! ## Faults -/

/-- How an operation of the store fails. -/
inductive Fault where
  /-- It is not carried out. -/
  | before (failure : ReadFailure)
  /-- It is carried out, and nobody is told. -/
  | after (failure : ReadFailure)
  deriving DecidableEq

def Fault.failure : Fault → ReadFailure
  | .before failure => failure
  | .after failure => failure

/-- The store during one operation, as `PostgresStore` reports its failures. -/
def failing (fault : Option Fault) : LocationStore InMemoryStore where
  read store tenant aor :=
    match fault with
    | none => store.read tenant aor
    | some fault => .error fault.failure
  commit store tenant aor expected set :=
    match fault with
    | none => store.commit tenant aor expected set
    -- A failed write must never look like a successful one.
    | some (.before _) => (store, .error ⟨expected, expected⟩)
    | some (.after _) => ((store.commit tenant aor expected set).1, .error ⟨expected, expected⟩)
  lookup store tenant aor now :=
    match fault with
    | none => store.lookup tenant aor now
    | some fault => .error fault.failure
  changes := InMemoryStore.changes

/-- What a call has left in its row. -/
structure Install (ι : Type u) where
  driver : ι
  row : BindingSet × Revision
  /-- Whether the call was told. -/
  acknowledged : Bool
  deriving DecidableEq

/-- One call takes a step, and its operation may fail.  A row that has moved is put out. -/
def faultyDrivers [DecidableEq ι] (R : ContactRules K) (task : ι → Task K) :
    Machine (Drivers ι) (ι × Option Fault) (Install ι) :=
  fun state (driver, fault) =>
    let key := (task driver).key
    let stepped := advance R (failing fault) (task driver) state.store (state.phase driver)
    (⟨stepped.1, Function.update state.phase driver stepped.2.1⟩,
      if (stepped.1.row key).2 = (state.store.row key).2 then []
      else [⟨driver, stepped.1.row key, fault.isNone⟩])

/-- Where a commit that was refused leaves its call. -/
inductive Refused (task : Task K) (conflicts : Nat) : Phase → Prop where
  | again (left : conflicts < task.retries) : Refused task conflicts (.reading (conflicts + 1))
  | exhausted (current : Revision) (spent : task.retries ≤ conflicts) :
      Refused task conflicts (.done ⟨.reject .unavailable, some current, conflicts + 1⟩)

/-- How a step of a call goes. -/
inductive FaultyAdvance (R : ContactRules K) (task : Task K) (store : InMemoryStore) :
    Option Fault → Phase → InMemoryStore × Phase → Prop where
  /-- The set could not be read, and nothing is decided. -/
  | unread (fault : Fault) (conflicts : Nat) :
      FaultyAdvance R task store (some fault) (.reading conflicts)
        (store, .done ⟨.reject .unavailable, none, conflicts⟩)
  | answered (conflicts : Nat)
      (nothing : (process R task.cmd (store.row task.key).1 task.policy).committed = none) :
      FaultyAdvance R task store none (.reading conflicts)
        (store, .done ⟨process R task.cmd (store.row task.key).1 task.policy,
          some (store.row task.key).2, conflicts⟩)
  | decided (conflicts : Nat) (set : BindingSet) (response : Accepted)
      (decides : process R task.cmd (store.row task.key).1 task.policy = .commit set response) :
      FaultyAdvance R task store none (.reading conflicts)
        (store, .holding set response (store.row task.key).2 conflicts)
  | installed (set : BindingSet) (response : Accepted) (conflicts : Nat) (next : InMemoryStore)
      (installs : next.row =
        Function.update store.row task.key (set, (store.row task.key).2.next)) :
      FaultyAdvance R task store none (.holding set response (store.row task.key).2 conflicts)
        (next, .done ⟨.commit set response, some (store.row task.key).2.next, conflicts⟩)
  /-- The set is installed, and the call is told that it is not. -/
  | unacknowledged (set : BindingSet) (response : Accepted) (conflicts : Nat)
      (next : InMemoryStore) (failure : ReadFailure) (phase : Phase)
      (installs : next.row =
        Function.update store.row task.key (set, (store.row task.key).2.next))
      (refused : Refused task conflicts phase) :
      FaultyAdvance R task store (some (.after failure))
        (.holding set response (store.row task.key).2 conflicts) (next, phase)
  /-- The row has moved, or the commit was not carried out. -/
  | refused (fault : Option Fault) (set : BindingSet) (response : Accepted) (revision : Revision)
      (conflicts : Nat) (phase : Phase) (refused : Refused task conflicts phase) :
      FaultyAdvance R task store fault (.holding set response revision conflicts) (store, phase)
  | finished (fault : Option Fault) (applied : Applied) :
      FaultyAdvance R task store fault (.done applied) (store, .done applied)

section Step

variable (R : ContactRules K) (task : Task K) (store : InMemoryStore)

end Step

section Steps

variable {R : ContactRules K} {task : Task K} {store next : InMemoryStore} {fault : Option Fault}
  {phase ends : Phase}

/-- A step moves every row on. -/
theorem FaultyAdvance.movesOn (step : FaultyAdvance R task store fault phase (next, ends))
    (key : RowKey) : MovesOn store next key := by
  cases step with
  | installed _ _ _ _ installs => exact movesOn_of_update installs
  | unacknowledged _ _ _ _ _ _ installs _ => exact movesOn_of_update installs
  | unread _ _ => exact .inl rfl
  | answered _ _ => exact .inl rfl
  | decided _ _ _ _ => exact .inl rfl
  | refused _ _ _ _ _ _ _ => exact .inl rfl
  | finished _ _ => exact .inl rfl

theorem Refused.sound {conflicts : Nat} (refused : Refused task conflicts phase)
    (within : conflicts ≤ task.retries) (store : InMemoryStore) :
    PhaseSound R task store phase := by
  cases refused with
  | again left => exact left
  | exhausted current spent => exact Nat.succ_le_succ within

/-- A call keeps what is known of it, whatever fails. -/
theorem FaultyAdvance.sound (step : FaultyAdvance R task store fault phase (next, ends))
    (sound : PhaseSound R task store phase) : PhaseSound R task next ends := by
  cases step with
  | unread _ _ => exact Nat.le_succ_of_le sound
  | answered _ _ => exact Nat.le_succ_of_le sound
  | decided conflicts set response decides =>
      exact ⟨sound, Nat.le_refl _, _, decides, fun _ => rfl⟩
  | installed _ _ _ _ _ => exact Nat.le_succ_of_le sound.1
  | unacknowledged _ _ _ _ _ _ _ refused => exact refused.sound sound.1 _
  | refused _ _ _ _ _ _ refused => exact refused.sound sound.1 _
  | finished _ _ => exact sound

end Steps

/-! ## Runs -/

section Runs

variable [DecidableEq ι] {R : ContactRules K} {task : ι → Task K} {store : InMemoryStore}
  {state : Drivers ι} {driver : ι}

/-- Where a run has come. -/
def faulted (R : ContactRules K) (task : ι → Task K) (store : InMemoryStore)
    (inputs : List (ι × Option Fault)) : Drivers ι :=
  after (faultyDrivers R task) (.start store) inputs

/-- What the calls of a run have installed, in order. -/
def installs (R : ContactRules K) (task : ι → Task K) (store : InMemoryStore)
    (inputs : List (ι × Option Fault)) : List (Install ι) :=
  emitted (faultyDrivers R task) (.start store) inputs

/-- What one call has installed. -/
def installsOf (driver : ι) (effects : List (Install ι)) : List (Install ι) :=
  effects.filter fun install => install.driver = driver

/-- How many of the installs a call was not told of. -/
def lostOf (driver : ι) (effects : List (Install ι)) : Nat :=
  (installsOf driver effects).countP fun install => !install.acknowledged

theorem installsOf_append (driver : ι) (first second : List (Install ι)) :
    installsOf driver (first ++ second) = installsOf driver first ++ installsOf driver second :=
  List.filter_append ..

/-- A call that is not done has been told of nothing it installed, and one that is done
has been told of at most one. -/
def Told (driver : ι) (effects : List (Install ι)) : Phase → Prop
  | .done _ => (installsOf driver effects).length ≤ lostOf driver effects + 1
  | _ => (installsOf driver effects).length ≤ lostOf driver effects

theorem Told.le {effects : List (Install ι)} {phase : Phase} (told : Told driver effects phase) :
    (installsOf driver effects).length ≤ lostOf driver effects + 1 := by
  cases phase with
  | reading conflicts => exact Nat.le_succ_of_le told
  | holding set response revision conflicts => exact Nat.le_succ_of_le told
  | done applied => exact told

/-- An untold install, or none, before a call goes on. -/
theorem Told.of_le {effects : List (Install ι)} {phase : Phase}
    (balanced : (installsOf driver effects).length ≤ lostOf driver effects) :
    Told driver effects phase := by
  cases phase with
  | reading conflicts => exact balanced
  | holding set response revision conflicts => exact balanced
  | done applied => exact Nat.le_succ_of_le balanced

/-- A call reads its row here, and answers what was decided of the set it read. -/
def AnswersHere (R : ContactRules K) (task : ι → Task K) (store : InMemoryStore) (driver : ι)
    (applied : Applied) (past : List (ι × Option Fault)) (input : ι × Option Fault) : Prop :=
  input = (driver, none) ∧
    (faulted R task store past).phase driver = .reading applied.conflicts ∧
      applied.outcome.committed = none ∧
        applied.outcome = process R (task driver).cmd
          ((faulted R task store past).store.row (task driver).key).1 (task driver).policy

/-- A call commits here, and answers what it has installed and at which revision. -/
def CommitsHere (R : ContactRules K) (task : ι → Task K) (store : InMemoryStore) (driver : ι)
    (applied : Applied) (past : List (ι × Option Fault)) (input : ι × Option Fault) : Prop :=
  ∃ set response revision,
    input = (driver, none) ∧ applied.outcome = .commit set response ∧
      applied.revision = some revision ∧
        (faulted R task store (past ++ [input])).store.row (task driver).key = (set, revision) ∧
          ((faulted R task store past).store.row (task driver).key).2.next = revision ∧
            process R (task driver).cmd
              ((faulted R task store past).store.row (task driver).key).1 (task driver).policy =
                .commit set response

/-- How an answer came about. -/
def AnsweredFaulty (R : ContactRules K) (task : ι → Task K) (store : InMemoryStore)
    (inputs : List (ι × Option Fault)) (driver : ι) (applied : Applied) : Prop :=
  Happened (AnswersHere R task store driver applied) inputs ∨
    Happened (CommitsHere R task store driver applied) inputs ∨
      applied.outcome = .reject .unavailable

/-- An answer stays what it was. -/
theorem AnsweredFaulty.concat {inputs : List (ι × Option Fault)} {applied : Applied}
    (answered : AnsweredFaulty R task store inputs driver applied) (input : ι × Option Fault) :
    AnsweredFaulty R task store (inputs ++ [input]) driver applied := by
  unfold AnsweredFaulty
  rw [happened_concat_iff, happened_concat_iff]
  rcases answered with read | committed | unavailable
  · exact .inl (.inl read)
  · exact .inr (.inl (.inl committed))
  · exact .inr (.inr unavailable)

end Runs

/-! ## Recognition -/

section Recalled

variable {R : ContactRules K} {cmd : RegisterCommand K} {set current : BindingSet}
  {policy : TenantPolicy} {ops : List (ContactOp K)} {response : Accepted}

end Recalled

section Again

variable [DecidableEq ι] {R : ContactRules K} {task : ι → Task K} {store : InMemoryStore}
  {inputs : List (ι × Option Fault)} {driver : ι}

/-- The call holds no set. -/
def Phase.Free (phase : Phase) : Prop :=
  ∀ set response revision conflicts, phase ≠ .holding set response revision conflicts

theorem free_done (applied : Applied) : (Phase.done applied).Free :=
  fun _ _ _ _ => Phase.noConfusion

theorem Refused.free {task : Task K} {conflicts : Nat} {phase : Phase}
    (refused : Refused task conflicts phase) : phase.Free := by
  cases refused with
  | again _ => exact fun _ _ _ _ => Phase.noConfusion
  | exhausted _ _ => exact free_done _

/-- A call that holds a set has installed none, and no call has installed two. -/
structure Once (driver : ι) (effects : List (Install ι)) (phase : Phase) : Prop where
  single : (installsOf driver effects).length ≤ 1
  unspent : ∀ set response revision conflicts,
    phase = .holding set response revision conflicts → installsOf driver effects = []

/-- The first install of a call that holds a set. -/
theorem Once.install {effects : List (Install ι)} {set : BindingSet} {response : Accepted}
    {revision : Revision} {conflicts : Nat}
    (once : Once driver effects (.holding set response revision conflicts)) {phase : Phase}
    (free : phase.Free) (install : Install ι) : Once driver (effects ++ [install]) phase := by
  constructor
  · rw [installsOf_append, once.unspent set response revision conflicts rfl, List.nil_append]
    exact List.length_filter_le _ [install]
  · intro set response revision conflicts holds
    exact absurd holds (free set response revision conflicts)

end Again

/-! ## A lost acknowledgement -/

section Lost

open Reference Sip.Reference

end Lost

end SipxClstr.Registrar
