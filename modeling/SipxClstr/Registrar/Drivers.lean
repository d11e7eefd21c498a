import SipxClstr.Registrar.Store
import SipxClstr.Registrar.History

/-!
# Many drivers on one store

Any number of calls of `apply` on one in-memory store, interleaved in any order of
their reads and commits.  Each row of the store goes through the sets of the serial
history of the commands committed on it.
-/

namespace SipxClstr.Registrar

open SipxClstr.Sip Reactive Reactive.Machine

universe u

variable {K : Kernel} {ι : Type u}

/-- The store, and where each call stands. -/
structure Drivers (ι : Type u) where
  store : InMemoryStore
  phase : ι → Phase

/-- One call takes a step; what it commits is emitted beside its name. -/
def drivers [DecidableEq ι] (R : ContactRules K) (task : ι → Task K) :
    Machine (Drivers ι) ι (ι × Change) :=
  fun state driver =>
    let stepped :=
      advance R InMemoryStore.locationStore (task driver) state.store (state.phase driver)
    (⟨stepped.1, Function.update state.phase driver stepped.2.1⟩,
      stepped.2.2.map fun change => (driver, change))

/-- No call has read yet. -/
def Drivers.start (store : InMemoryStore) : Drivers ι :=
  ⟨store, fun _ => .reading 0⟩

/-- How a step of a call goes on the in-memory store. -/
inductive Advance (R : ContactRules K) (task : Task K) (store : InMemoryStore) :
    Phase → InMemoryStore × Phase × List Change → Prop where
  /-- Nothing is to be written: what was decided is the answer. -/
  | answered (conflicts : Nat)
      (nothing : (process R task.cmd (store.row task.key).1 task.policy).committed = none) :
      Advance R task store (.reading conflicts)
        (store, .done ⟨process R task.cmd (store.row task.key).1 task.policy,
          some (store.row task.key).2, conflicts⟩, [])
  | decided (conflicts : Nat) (set : BindingSet) (response : Accepted)
      (decides : process R task.cmd (store.row task.key).1 task.policy = .commit set response) :
      Advance R task store (.reading conflicts)
        (store, .holding set response (store.row task.key).2 conflicts, [])
  | installed (set : BindingSet) (response : Accepted) (conflicts : Nat) (next : InMemoryStore)
      (installs : next.row =
        Function.update store.row task.key (set, (store.row task.key).2.next)) :
      Advance R task store (.holding set response (store.row task.key).2 conflicts)
        (next, .done ⟨.commit set response, some (store.row task.key).2.next, conflicts⟩,
          [⟨task.cmd.tenant, task.cmd.aor, (store.row task.key).2.next⟩])
  /-- The row has moved, and no retry is left. -/
  | exhausted (set : BindingSet) (response : Accepted) (revision : Revision) (conflicts : Nat)
      (moved : (store.row task.key).2 ≠ revision) (spent : task.retries ≤ conflicts) :
      Advance R task store (.holding set response revision conflicts)
        (store, .done ⟨.reject .unavailable, some (store.row task.key).2, conflicts + 1⟩, [])
  /-- The row has moved, and the call reads again. -/
  | lost (set : BindingSet) (response : Accepted) (revision : Revision) (conflicts : Nat)
      (moved : (store.row task.key).2 ≠ revision) (left : conflicts < task.retries) :
      Advance R task store (.holding set response revision conflicts)
        (store, .reading (conflicts + 1), [])
  | finished (applied : Applied) :
      Advance R task store (.done applied) (store, .done applied, [])

theorem advance_step (R : ContactRules K) (task : Task K) (store : InMemoryStore) (phase : Phase) :
    Advance R task store phase (advance R InMemoryStore.locationStore task store phase) := by
  cases phase with
  | done applied => exact .finished applied
  | reading conflicts =>
      have found : InMemoryStore.locationStore.read store task.cmd.tenant task.cmd.aor =
          .ok (store.row task.key) := store.read_eq _ _
      have answered : ∀ outcome, process R task.cmd (store.row task.key).1 task.policy = outcome →
          outcome.committed = none → Advance R task store (.reading conflicts)
            (store, .done ⟨outcome, some (store.row task.key).2, conflicts⟩, []) := by
        rintro outcome rfl nothing
        exact .answered conflicts nothing
      simp only [advance, found]
      cases decided : process R task.cmd (store.row task.key).1 task.policy with
      | commit set response => exact .decided conflicts set response decided
      | noop response => exact answered _ decided rfl
      | reject rejection => exact answered _ decided rfl
  | holding set response revision conflicts =>
      by_cases current : (store.row task.key).2 = revision
      · obtain ⟨accepts, installs⟩ := InMemoryStore.commit_of_eq current set
        rcases committed : store.commit task.cmd.tenant task.cmd.aor revision set with ⟨next, result⟩
        rw [committed] at accepts installs
        have installed : InMemoryStore.locationStore.commit store task.cmd.tenant task.cmd.aor
            revision set = (next, .ok revision.next) := by
          rw [← accepts]
          exact committed
        simp only [advance, installed]
        subst current
        exact .installed set response conflicts next installs
      · have refused : InMemoryStore.locationStore.commit store task.cmd.tenant task.cmd.aor
            revision set = (store, .error ⟨revision, (store.row task.key).2⟩) :=
          InMemoryStore.commit_of_ne current set
        simp only [advance, refused]
        split
        · next spent => exact .exhausted set response revision conflicts current (by omega)
        · next left => exact .lost set response revision conflicts current (by omega)

/-! ## What a call relies on -/

/-- What is known of a call between two steps.  What it holds was made of the set its
row held at the revision it read; the row is at that revision still, or has moved on. -/
def PhaseSound (R : ContactRules K) (task : Task K) (store : InMemoryStore) : Phase → Prop
  | .reading conflicts => conflicts ≤ task.retries
  | .holding set response revision conflicts =>
      conflicts ≤ task.retries ∧ revision.count ≤ (store.row task.key).2.count ∧
        ∃ current, process R task.cmd current task.policy = .commit set response ∧
          ((store.row task.key).2 = revision → (store.row task.key).1 = current)
  | .done applied => applied.conflicts ≤ task.retries + 1

/-- A row stays, or moves on to a later revision. -/
def MovesOn (before next : InMemoryStore) (key : RowKey) : Prop :=
  next.row key = before.row key ∨ (before.row key).2.count < (next.row key).2.count

section Step

variable {R : ContactRules K} {task : Task K} {store next : InMemoryStore} {phase ends : Phase}
  {changes : List Change}

/-- What is known of a call outlasts the steps of others. -/
theorem PhaseSound.of_movesOn (sound : PhaseSound R task store phase)
    (moves : MovesOn store next task.key) : PhaseSound R task next phase := by
  cases phase with
  | reading conflicts => exact sound
  | done applied => exact sound
  | holding set response revision conflicts =>
      obtain ⟨within, notAhead, current, decides, fresh⟩ := sound
      rcases moves with same | later
      · refine ⟨within, ?_, current, decides, ?_⟩
        · rw [same]
          exact notAhead
        · rw [same]
          exact fresh
      · refine ⟨within, by omega, current, decides, ?_⟩
        intro isCurrent
        rw [isCurrent] at later
        omega

theorem movesOn_of_update {key other : RowKey} {set : BindingSet}
    (installs : next.row = Function.update store.row key (set, (store.row key).2.next)) :
    MovesOn store next other := by
  by_cases same : other = key
  · right
    rw [installs, same, Function.update_self]
    exact Nat.lt_succ_self _
  · left
    rw [installs, Function.update_of_ne same]

/-- A step moves every row on. -/
theorem Advance.movesOn (step : Advance R task store phase (next, ends, changes)) (key : RowKey) :
    MovesOn store next key := by
  cases step with
  | installed set response conflicts _ installs => exact movesOn_of_update installs
  | answered _ _ => exact .inl rfl
  | decided _ _ _ _ => exact .inl rfl
  | exhausted _ _ _ _ _ _ => exact .inl rfl
  | lost _ _ _ _ _ _ => exact .inl rfl
  | finished _ => exact .inl rfl

/-- A call keeps what is known of it. -/
theorem Advance.sound (step : Advance R task store phase (next, ends, changes))
    (sound : PhaseSound R task store phase) : PhaseSound R task next ends := by
  cases step with
  | answered conflicts _ => exact Nat.le_succ_of_le sound
  | decided conflicts set response decides =>
      exact ⟨sound, Nat.le_refl _, _, decides, fun _ => rfl⟩
  | installed set response conflicts _ _ => exact Nat.le_succ_of_le sound.1
  | exhausted set response revision conflicts _ _ => exact Nat.succ_le_succ sound.1
  | lost set response revision conflicts _ left => exact left
  | finished applied => exact sound

end Step

section Runs

variable [DecidableEq ι] {R : ContactRules K} {task : ι → Task K} {store : InMemoryStore}
  {state : Drivers ι} {driver : ι}

/-- The row a change is about. -/
def Change.key (change : Change) : RowKey :=
  (change.tenant, change.aor)

/-- What is known of every call. -/
def DriversSound (R : ContactRules K) (task : ι → Task K) (state : Drivers ι) : Prop :=
  ∀ driver, PhaseSound R (task driver) state.store (state.phase driver)

/-- The step of a call, with what it does to the phases. -/
theorem drivers_step (R : ContactRules K) (task : ι → Task K) (state : Drivers ι) (driver : ι) :
    ∃ next ends changes, Advance R (task driver) state.store (state.phase driver)
        (next, ends, changes) ∧
      drivers R task state driver = (⟨next, Function.update state.phase driver ends⟩,
        changes.map fun change => (driver, change)) :=
  ⟨_, _, _, advance_step R (task driver) state.store (state.phase driver), rfl⟩

theorem driversSound_step (state : Drivers ι) (driver : ι) (sound : DriversSound R task state) :
    DriversSound R task (drivers R task state driver).1 := by
  obtain ⟨next, ends, changes, step, stepped⟩ := drivers_step R task state driver
  rw [stepped]
  intro other
  by_cases same : other = driver
  · subst other
    simp only [Function.update_self]
    exact step.sound (sound driver)
  · simp only [Function.update_of_ne same]
    exact (sound other).of_movesOn (step.movesOn _)

theorem driversSound_after (R : ContactRules K) (task : ι → Task K) (store : InMemoryStore)
    (inputs : List ι) :
    DriversSound R task (after (drivers R task) (.start store) inputs) := by
  have initial : DriversSound R task (.start store) :=
    fun driver => Nat.zero_le (task driver).retries
  exact invariant_always (drivers R task) (DriversSound R task) driversSound_step initial inputs

/-- A step commits: it installs at the next revision what its command makes of the set
that is there, and leaves every other row. -/
def Commits (R : ContactRules K) (task : ι → Task K) (before : InMemoryStore) (driver : ι)
    (next : InMemoryStore) (effects : List (ι × Change)) : Prop :=
  ∃ set response,
    process R (task driver).cmd (before.row (task driver).key).1 (task driver).policy =
        .commit set response ∧
      next.row = Function.update before.row (task driver).key
        (set, (before.row (task driver).key).2.next) ∧
      effects = [(driver, ⟨(task driver).cmd.tenant, (task driver).cmd.aor,
        (before.row (task driver).key).2.next⟩)]

/-- A step commits, or leaves every row. -/
theorem drivers_rows (sound : DriversSound R task state) (driver : ι) :
    ((drivers R task state driver).1.store.row = state.store.row ∧
        (drivers R task state driver).2 = []) ∨
      Commits R task state.store driver (drivers R task state driver).1.store
        (drivers R task state driver).2 := by
  obtain ⟨next, ends, changes, step, stepped⟩ := drivers_step R task state driver
  rw [stepped]
  have mine := sound driver
  generalize state.phase driver = phase at step mine
  cases step with
  | answered _ _ => exact .inl ⟨rfl, rfl⟩
  | decided _ _ _ _ => exact .inl ⟨rfl, rfl⟩
  | exhausted _ _ _ _ _ _ => exact .inl ⟨rfl, rfl⟩
  | lost _ _ _ _ _ _ => exact .inl ⟨rfl, rfl⟩
  | finished _ => exact .inl ⟨rfl, rfl⟩
  | installed set response conflicts _ installs =>
      obtain ⟨-, -, current, decides, fresh⟩ := mine
      refine .inr ⟨set, response, ?_, installs, rfl⟩
      rw [fresh rfl]
      exact decides

/-! ## The serial history of a row -/

/-- The commands committed on a row, in the order of their commits. -/
def committedOn (task : ι → Task K) (key : RowKey) (effects : List (ι × Change)) :
    List (Registration K) :=
  (effects.filter fun effect => effect.2.key = key).map fun effect =>
    ((task effect.1).cmd, (task effect.1).policy)

/-- Where a row stands: its set is that of the serial history of what was committed on
it, and its revision counts the commits. -/
def AtSerial (R : ContactRules K) (task : ι → Task K) (store : InMemoryStore) (key : RowKey)
    (effects : List (ι × Change)) (row : BindingSet × Revision) : Prop :=
  row.1 = after (registrar R) (store.row key).1 (committedOn task key effects) ∧
    row.2.count = (store.row key).2.count + (committedOn task key effects).length

omit [DecidableEq ι] in
theorem committedOn_append (task : ι → Task K) (key : RowKey) (first second : List (ι × Change)) :
    committedOn task key (first ++ second) =
      committedOn task key first ++ committedOn task key second := by
  rw [committedOn, List.filter_append, List.map_append, committedOn, committedOn]

omit [DecidableEq ι] in
/-- A commit takes its row one command further. -/
theorem Commits.atSerial {before next : InMemoryStore} {effects : List (ι × Change)}
    (commits : Commits R task before driver next effects) {key : RowKey}
    {past : List (ι × Change)} (serial : AtSerial R task store key past (before.row key)) :
    AtSerial R task store key (past ++ effects) (next.row key) := by
  obtain ⟨set, response, decides, installs, rfl⟩ := commits
  unfold AtSerial at serial ⊢
  rw [committedOn_append, installs]
  by_cases same : key = (task driver).key
  · subst key
    have mine : committedOn task (task driver).key
        [(driver, (⟨(task driver).cmd.tenant, (task driver).cmd.aor,
          (before.row (task driver).key).2.next⟩ : Change))] =
          [((task driver).cmd, (task driver).policy)] := by
      simp [committedOn, Change.key, Task.key]
    rw [mine, Function.update_self, after_concat, ← serial.1, List.length_append,
      List.length_singleton]
    constructor
    · simp only [registrar, decides]
      rfl
    · change _ + 1 = _
      rw [serial.2, Nat.add_assoc]
  · have others : committedOn task key
        [(driver, (⟨(task driver).cmd.tenant, (task driver).cmd.aor,
          (before.row (task driver).key).2.next⟩ : Change))] = [] := by
      have differs : ((task driver).cmd.tenant, (task driver).cmd.aor) ≠ key :=
        fun isKey => same isKey.symm
      simp [committedOn, Change.key, differs]
    rw [others, List.append_nil, Function.update_of_ne same]
    exact serial

theorem atSerial_after (R : ContactRules K) (task : ι → Task K) (store : InMemoryStore)
    (inputs : List ι) (key : RowKey) :
    AtSerial R task store key (emitted (drivers R task) (.start store) inputs)
      ((after (drivers R task) (.start store) inputs).store.row key) := by
  have initial : DriversSound R task (.start store) :=
    fun driver => Nat.zero_le (task driver).retries
  refine (run_always (drivers R task)
    (fun _ effects state => DriversSound R task state ∧
      AtSerial R task store key effects (state.store.row key))
    ⟨initial, rfl, rfl⟩ ?_ inputs).2
  rintro _ effects state driver ⟨sound, serial⟩
  refine ⟨driversSound_step state driver sound, ?_⟩
  rcases drivers_rows sound driver with ⟨sameRows, nothing⟩ | commits
  · rw [sameRows, nothing, List.append_nil]
    exact serial
  · exact commits.atSerial serial

/-! ## What calls answer -/

/-- A call read its row here, and answers what was decided of the set it read. -/
def AnswersRead (R : ContactRules K) (task : ι → Task K) (store : InMemoryStore) (driver : ι)
    (applied : Applied) (past : List ι) (input : ι) : Prop :=
  let state := after (drivers R task) (.start store) past
  input = driver ∧ state.phase driver = .reading applied.conflicts ∧
    applied.outcome = process R (task driver).cmd (state.store.row (task driver).key).1
      (task driver).policy ∧
      applied.outcome.committed = none ∧
        applied.revision = some (state.store.row (task driver).key).2

/-- A call committed here, and answers what it has installed. -/
def AnswersCommit (R : ContactRules K) (task : ι → Task K) (store : InMemoryStore) (driver : ι)
    (applied : Applied) (past : List ι) (input : ι) : Prop :=
  let state := after (drivers R task) (.start store) past
  input = driver ∧
    applied.outcome = process R (task driver).cmd (state.store.row (task driver).key).1
      (task driver).policy ∧
      applied.revision = some (state.store.row (task driver).key).2.next ∧
        Commits R task state.store driver (drivers R task state driver).1.store
          (drivers R task state driver).2

/-- How an answer came about. -/
def Answered (R : ContactRules K) (task : ι → Task K) (store : InMemoryStore) (inputs : List ι)
    (driver : ι) (applied : Applied) : Prop :=
  Happened (AnswersRead R task store driver applied) inputs ∨
    Happened (AnswersCommit R task store driver applied) inputs ∨
      applied.outcome = .reject .unavailable ∧ applied.conflicts = (task driver).retries + 1

/-- An answer stays what it was. -/
theorem Answered.concat {inputs : List ι} {applied : Applied}
    (answered : Answered R task store inputs driver applied) (input : ι) :
    Answered R task store (inputs ++ [input]) driver applied := by
  unfold Answered
  rw [happened_concat_iff, happened_concat_iff]
  rcases answered with read | committed | exhausted
  · exact .inl (.inl read)
  · exact .inr (.inl (.inl committed))
  · exact .inr (.inr exhausted)

/-- Every answer was decided of the set that was there when the call read it or
committed, or says that the retries are exhausted. -/
theorem answered_after (R : ContactRules K) (task : ι → Task K) (store : InMemoryStore)
    (inputs : List ι) (driver : ι) (applied : Applied)
    (finished : (after (drivers R task) (.start store) inputs).phase driver = .done applied) :
    Answered R task store inputs driver applied := by
  induction inputs using List.reverseRecOn with
  | nil => contradiction
  | append_singleton past input ih =>
      have mine := driversSound_after R task store past driver
      obtain ⟨next, ends, changes, step, stepped⟩ :=
        drivers_step R task (after (drivers R task) (.start store) past) input
      rw [after_concat, stepped] at finished
      by_cases own : input = driver
      · subst input
        simp only [Function.update_self] at finished
        subst ends
        cases phase : (after (drivers R task) (.start store) past).phase driver with
        | done earlier =>
            rw [phase] at step
            cases step
            exact (ih phase).concat driver
        | reading conflicts =>
            rw [phase] at step
            cases step with
            | answered _ nothing =>
                exact .inl (happened_concat_iff.mpr (.inr ⟨rfl, phase, rfl, nothing, rfl⟩))
        | holding set response revision conflicts =>
            rw [phase] at step mine
            cases step with
            | installed _ _ _ _ installs =>
                obtain ⟨-, -, current, decides, fresh⟩ := mine
                rw [← fresh rfl] at decides
                refine .inr (.inl (happened_concat_iff.mpr (.inr
                  ⟨rfl, decides.symm, rfl, set, response, decides, ?_, ?_⟩)))
                · rw [stepped]
                  exact installs
                · rw [stepped]
                  rfl
            | exhausted _ _ _ _ _ spent =>
                refine .inr (.inr ⟨rfl, ?_⟩)
                rw [Nat.le_antisymm mine.1 spent]
      · simp only [Function.update_of_ne (Ne.symm own)] at finished
        exact (ih finished).concat input

/-! ## Termination -/

/-- How many steps a call that is not done has taken: two for every conflict, and one
when it holds a decision. -/
def StepsTaken (steps : Nat) : Phase → Prop
  | .reading conflicts => steps = 2 * conflicts
  | .holding _ _ _ conflicts => steps = 2 * conflicts + 1
  | .done _ => True

theorem Advance.stepsTaken {task : Task K} {store next : InMemoryStore} {phase ends : Phase}
    {changes : List Change} (step : Advance R task store phase (next, ends, changes))
    {steps : Nat} (taken : StepsTaken steps phase) : StepsTaken (steps + 1) ends := by
  cases step with
  | answered _ _ => trivial
  | installed _ _ _ _ _ => trivial
  | exhausted _ _ _ _ _ _ => trivial
  | finished _ => trivial
  | decided _ _ _ _ => exact congrArg (· + 1) taken
  | lost _ _ _ conflicts _ _ =>
      change steps = 2 * conflicts + 1 at taken
      change steps + 1 = 2 * (conflicts + 1)
      omega

theorem stepsTaken_after (R : ContactRules K) (task : ι → Task K) (store : InMemoryStore)
    (inputs : List ι) (driver : ι) :
    StepsTaken (inputs.count driver)
      ((after (drivers R task) (.start store) inputs).phase driver) := by
  induction inputs using List.reverseRecOn with
  | nil => rfl
  | append_singleton past input ih =>
      obtain ⟨next, ends, changes, step, stepped⟩ :=
        drivers_step R task (after (drivers R task) (.start store) past) input
      rw [after_concat, stepped, List.count_append]
      by_cases own : input = driver
      · subst input
        rw [List.count_singleton_self]
        simp only [Function.update_self]
        exact step.stepsTaken ih
      · rw [List.count_singleton, if_neg (by simpa using own), Nat.add_zero]
        simp only [Function.update_of_ne (Ne.symm own)]
        exact ih

/-- A call that has been given two steps for its first try and for every retry is done. -/
theorem done_after (R : ContactRules K) (task : ι → Task K) (store : InMemoryStore)
    (inputs : List ι) (driver : ι)
    (enough : 2 * ((task driver).retries + 1) ≤ inputs.count driver) :
    ∃ applied, (after (drivers R task) (.start store) inputs).phase driver = .done applied := by
  have sound := driversSound_after R task store inputs driver
  have taken := stepsTaken_after R task store inputs driver
  cases phase : (after (drivers R task) (.start store) inputs).phase driver with
  | done applied => exact ⟨applied, rfl⟩
  | reading conflicts =>
      rw [phase] at sound taken
      rw [StepsTaken] at taken
      rw [PhaseSound] at sound
      omega
  | holding set response revision conflicts =>
      rw [phase] at sound taken
      rw [StepsTaken] at taken
      have within := sound.1
      omega

/-! ## Serializability -/

/-- What a run of concurrent calls amounts to. -/
structure Serializable (R : ContactRules K) (task : ι → Task K) (store : InMemoryStore)
    (inputs : List ι) : Prop where
  /-- A step installs, at the next revision, what its command makes of the set that is
  there, or it leaves every row. -/
  steps : ∀ past driver future, inputs = past ++ driver :: future →
    let state := after (drivers R task) (.start store) past
    ((drivers R task state driver).1.store.row = state.store.row ∧
        (drivers R task state driver).2 = []) ∨
      Commits R task state.store driver (drivers R task state driver).1.store
        (drivers R task state driver).2
  /-- A row is at the set of its serial history, and its revision counts the commits. -/
  serial : ∀ key, AtSerial R task store key (emitted (drivers R task) (.start store) inputs)
    ((after (drivers R task) (.start store) inputs).store.row key)
  /-- An answer is that of the decision function on a set that was committed while the
  call ran, unless the retries are exhausted. -/
  answers : ∀ driver applied,
    (after (drivers R task) (.start store) inputs).phase driver = .done applied →
      Answered R task store inputs driver applied ∧
        applied.conflicts ≤ (task driver).retries + 1
  /-- A call ends. -/
  terminates : ∀ driver, 2 * ((task driver).retries + 1) ≤ inputs.count driver →
    ∃ applied, (after (drivers R task) (.start store) inputs).phase driver = .done applied

/-- Calls of `apply` on one store are serializable for each address-of-record, in any
interleaving. -/
theorem apply_serializable (R : ContactRules K) (task : ι → Task K) (store : InMemoryStore)
    (inputs : List ι) : Serializable R task store inputs where
  steps past driver _ _ := drivers_rows (driversSound_after R task store past) driver
  serial := atSerial_after R task store inputs
  answers driver applied finished := by
    have sound := driversSound_after R task store inputs driver
    rw [finished] at sound
    exact ⟨answered_after R task store inputs driver applied finished, sound⟩
  terminates := done_after R task store inputs

end Runs

end SipxClstr.Registrar
