import SipxClstr.Node.Postgres

/-!
# The PostgreSQL store refines the in-memory one

While no caller presents a revision its row has not reached, and revisions fit the column,
every run of calls is linearizable: each takes effect in its last statement, as the
in-memory store would do it at once.
-/

namespace SipxClstr.Node

open SipxClstr.Sip SipxClstr.Registrar Reactive Reactive.Machine

universe u

variable {C : BindingCodec} {ι : Type u} [DecidableEq ι]

/-! ## Rows -/

/-- A row of the table, or its absence, stands for a row of the in-memory store. -/
def RowMatches : Option (TableRow C) → BindingSet × Revision → Prop
  | none, row => row = ([], .initial)
  | some stored, row =>
      stored = ⟨(row.2.count : Int), C.toValue row.1⟩ ∧ row.2.count ≤ i64Max

theorem toI64_of_le {revision : Revision} (fits : revision.count ≤ i64Max) :
    toI64 revision = revision.count := by
  rw [toI64, Nat.min_eq_left fits]

theorem toI64_inj {first second : Revision} (firstFits : first.count ≤ i64Max)
    (secondFits : second.count ≤ i64Max) : toI64 first = toI64 second ↔ first = second := by
  rw [toI64_of_le firstFits, toI64_of_le secondFits]
  constructor
  · intro same
    cases first
    cases second
    congr
    exact Int.ofNat.inj same
  · rintro rfl
    rfl

section Rows

variable {table : Table C} {key : RowKey} {row : BindingSet × Revision}

/-- Reading a row gives what it stands for. -/
theorem RowMatches.readInner (isRow : RowMatches (table key) row) :
    table.readInner key = .ok row := by
  unfold Table.readInner
  cases stored : table key with
  | none =>
      rw [stored] at isRow
      rw [isRow]
  | some found =>
      rw [stored] at isRow
      rw [isRow.1]
      simp [C.fromValue_toValue, toRevision]

theorem RowMatches.revision (isRow : RowMatches (table key) row) :
    table.revision key = row.2 := by
  unfold Table.revision
  cases stored : table key with
  | none =>
      rw [stored] at isRow
      rw [isRow]
  | some found =>
      rw [stored] at isRow
      rw [isRow.1]
      rfl

/-- What an `INSERT` does to a row, by what it stands for. -/
theorem RowMatches.insert (isRow : RowMatches (table key) row) (written : TableRow C) :
    (row = ([], .initial) ∧
        table.insert key written = (Function.update table key (some written), 1)) ∨
      ((table key).isSome = true ∧ table.insert key written = (table, 0)) := by
  unfold Table.insert
  cases stored : table key with
  | none =>
      rw [stored] at isRow
      exact .inl ⟨isRow, rfl⟩
  | some found => exact .inr ⟨rfl, rfl⟩

/-- What an `UPDATE` does to a row there is, by what it stands for. -/
theorem RowMatches.update (isRow : RowMatches (table key) row) (present : (table key).isSome = true)
    {expected : Revision} (fits : expected.count ≤ i64Max) (written : TableRow C) :
    table.update key written (toI64 expected) =
      if row.2 = expected then (Function.update table key (some written), 1) else (table, 0) := by
  unfold Table.update
  cases stored : table key with
  | none =>
      rw [stored] at present
      contradiction
  | some found =>
      rw [stored] at isRow
      have isRevision : found.revision = toI64 row.2 := by
        rw [isRow.1, toI64_of_le isRow.2]
      simp only [isRevision, toI64_inj isRow.2 fits]

/-- A row that is written stands for what was committed. -/
theorem rowMatches_rowOf {expected : Revision} (fits : expected.count < i64Max) (set : BindingSet) :
    RowMatches (some (rowOf (C := C) expected set)) (set, expected.next) := by
  have next : expected.next.count ≤ i64Max := fits
  exact ⟨by rw [rowOf, toI64_of_le next], next⟩

end Rows

/-! ## Statements -/

/-- What is known of a call between two statements. -/
def CallSound (call : StoreCall) (table : Table C) (store : InMemoryStore) : CallPhase → Prop
  | .called => True
  | .refused => ∃ key set, call = .commit key .initial set ∧ (table key).isSome = true
  | .lost => ∃ key expected set, call = .commit key expected set ∧
      expected.count < (store.row key).2.count
  | .done _ => True

/-- A commit that begins presents a revision its row has reached, and one that the column
has a successor of. -/
def Informed (call : StoreCall) (table : Table C) (phase : CallPhase) : Prop :=
  match phase, call with
  | .called, .commit key expected _ =>
      expected.count ≤ (table.revision key).count ∧ expected.count < i64Max
  | _, _ => True

/-- What a statement of a call that is not done does, beside the in-memory store. -/
inductive StatementStep (call : StoreCall) (table : Table C) (store : InMemoryStore) :
    Table C × CallPhase → Prop where
  | continues {phase : CallPhase} (pending : phase.answer = none)
      (sound : CallSound call table store phase) :
      StatementStep call table store (table, phase)
  | completes {next : Table C}
      (rows : ∀ key, RowMatches (next key) ((atomically store call).1.row key))
      (present : ∀ key, (table key).isSome = true → (next key).isSome = true) :
      StatementStep call table store (next, .done (atomically store call).2)

section Statements

variable {table : Table C} {store : InMemoryStore} {key : RowKey} {expected : Revision}
  {set : BindingSet}

/-- A row written at the revision the commit expects is what the in-memory store installs. -/
theorem completes_of_written (rows : ∀ key, RowMatches (table key) (store.row key))
    (current : (store.row key).2 = expected) (fits : expected.count < i64Max) :
    StatementStep (.commit key expected set) table store
      (Function.update table key (some (rowOf expected set)),
        .done (.commit (.ok expected.next))) := by
  have atKey : (store.row (key.1, key.2)).2 = expected := current
  obtain ⟨succeeds, installs⟩ := InMemoryStore.commit_of_eq atKey set
  have answer : (atomically store (.commit key expected set)).2 = .commit (.ok expected.next) :=
    congrArg StoreAnswer.commit succeeds
  have installed : (atomically store (.commit key expected set)).1.row =
      Function.update store.row key (set, expected.next) := installs
  rw [← answer]
  apply StatementStep.completes
  · intro other
    rw [installed]
    by_cases same : other = key
    · rw [same, Function.update_self, Function.update_self]
      exact rowMatches_rowOf fits set
    · rw [Function.update_of_ne same, Function.update_of_ne same]
      exact rows other
  · intro other present
    by_cases same : other = key
    · rw [same, Function.update_self]
      rfl
    · rw [Function.update_of_ne same]
      exact present

/-- An `UPDATE` of a row there is, at a revision it has reached. -/
theorem statementStep_update (rows : ∀ key, RowMatches (table key) (store.row key))
    (present : (table key).isSome = true) (reached : expected.count ≤ (store.row key).2.count)
    (fits : expected.count < i64Max) :
    StatementStep (.commit key expected set) table store
      (afterUpdate expected (table.update key (rowOf expected set) (toI64 expected))) := by
  rw [(rows key).update present (Nat.le_of_lt fits)]
  split
  · next current => exact completes_of_written rows current fits
  · next moved =>
      apply StatementStep.continues rfl
      refine ⟨key, expected, set, rfl, Nat.lt_of_le_of_ne reached ?_⟩
      intro sameCount
      apply moved
      cases expected
      exact congrArg Revision.mk sameCount.symm

theorem statement_step (rows : ∀ key, RowMatches (table key) (store.row key)) {call : StoreCall}
    {phase : CallPhase} (pending : phase.answer = none)
    (sound : CallSound call table store phase) (informed : Informed call table phase) :
    StatementStep call table store (statement call table phase) := by
  cases call with
  | read key =>
      have stays : StatementStep (.read key) table store
          (table, .done (.read (table.readInner key))) := by
        rw [(rows key).readInner]
        exact .completes rows (fun _ present => present)
      cases phase with
      | done answer => contradiction
      | called => exact stays
      | refused => exact stays
      | lost => exact stays
  | commit key expected set =>
      cases phase with
      | done answer => contradiction
      | called =>
          obtain ⟨reached, fits⟩ := informed
          rw [(rows key).revision] at reached
          unfold statement
          by_cases first : expected = .initial
          · simp only [if_pos first]
            rcases (rows key).insert (rowOf expected set) with ⟨isNew, inserted⟩ | ⟨present, refused⟩
            · rw [inserted]
              apply completes_of_written rows _ fits
              rw [isNew, first]
            · rw [refused]
              subst first
              exact .continues rfl ⟨key, set, rfl, present⟩
          · simp only [if_neg first]
            apply statementStep_update rows _ reached fits
            have isRow := rows key
            cases stored : table key with
            | some _ => rfl
            | none =>
                rw [stored] at isRow
                rw [isRow] at reached
                apply absurd _ first
                cases expected
                exact congrArg Revision.mk (Nat.le_zero.mp reached)
      | refused =>
          obtain ⟨row, other, isCall, present⟩ := sound
          cases isCall
          exact statementStep_update rows present (Nat.zero_le _) (by decide)
      | lost =>
          obtain ⟨row, revision, other, isCall, moved⟩ := sound
          cases isCall
          have differs : (store.row (key.1, key.2)).2 ≠ expected := by
            intro same
            rw [← same] at moved
            exact Nat.lt_irrefl _ moved
          have refused := InMemoryStore.commit_of_ne differs set
          have stays : (atomically store (.commit key expected set)).1 = store :=
            congrArg Prod.fst refused
          have answer : (atomically store (.commit key expected set)).2 =
              .commit (.error ⟨expected, (store.row key).2⟩) :=
            congrArg StoreAnswer.commit (congrArg Prod.snd refused)
          simp only [statement, (rows key).readInner]
          rw [← answer]
          apply StatementStep.completes
          · rw [stays]
            exact rows
          · exact fun _ present => present

end Statements

/-! ## The simulation -/

/-- The table stands for a store, and every call for what is known of it. -/
structure Represents (calls : ι → StoreCall) (state : Nodes C ι) (store : InMemoryStore) :
    Prop where
  rows : ∀ key, RowMatches (state.table key) (store.row key)
  phases : ∀ call, CallSound (calls call) state.table store (state.phase call)

/-- The call that steps is informed. -/
def StepInformed (calls : ι → StoreCall) (state : Nodes C ι) (call : ι) : Prop :=
  Informed (calls call) state.table (state.phase call)

theorem atomically_row_le (store : InMemoryStore) (call : StoreCall) (key : RowKey) :
    (store.row key).2.count ≤ ((atomically store call).1.row key).2.count := by
  cases call with
  | read other => exact Nat.le_refl _
  | commit other expected set =>
      change _ ≤ (((store.commit other.1 other.2 expected set).1).row key).2.count
      by_cases current : (store.row (other.1, other.2)).2 = expected
      · rw [(InMemoryStore.commit_of_eq current set).2]
        by_cases same : key = (other.1, other.2)
        · rw [same, Function.update_self, current]
          exact Nat.le_succ _
        · rw [Function.update_of_ne same]
      · rw [InMemoryStore.commit_of_ne current]

/-- What is known of a call outlasts the statements of others. -/
theorem CallSound.of_advance {call : StoreCall} {table next : Table C}
    {store later : InMemoryStore} {phase : CallPhase} (sound : CallSound call table store phase)
    (present : ∀ key, (table key).isSome = true → (next key).isSome = true)
    (reached : ∀ key, (store.row key).2.count ≤ (later.row key).2.count) :
    CallSound call next later phase := by
  cases phase with
  | called => trivial
  | done answer => trivial
  | refused =>
      obtain ⟨key, set, isCall, isThere⟩ := sound
      exact ⟨key, set, isCall, present key isThere⟩
  | lost =>
      obtain ⟨key, expected, set, isCall, moved⟩ := sound
      exact ⟨key, expected, set, isCall, Nat.lt_of_lt_of_le moved (reached key)⟩

theorem answer_update (table : Table C) (phase : ι → CallPhase) (call other : ι) (next : CallPhase) :
    Nodes.answer ⟨table, Function.update phase call next⟩ other =
      if other = call then next.answer else (phase other).answer := by
  by_cases same : other = call
  · rw [if_pos same, same]
    simp only [Nodes.answer, Function.update_self]
  · rw [if_neg same]
    simp only [Nodes.answer, Function.update_of_ne same]

/-- What is known of the calls is known when one of them has stepped. -/
theorem callSound_update {calls : ι → StoreCall} {table : Table C} {store : InMemoryStore}
    {phase : ι → CallPhase} {call : ι} {next : CallPhase}
    (stepped : CallSound (calls call) table store next)
    (others : ∀ other, CallSound (calls other) table store (phase other)) (other : ι) :
    CallSound (calls other) table store (Function.update phase call next other) := by
  by_cases same : other = call
  · subst other
    rw [Function.update_self]
    exact stepped
  · rw [Function.update_of_ne same]
    exact others other

theorem completes_nodes (calls : ι → StoreCall) (state : Nodes C ι) (store : InMemoryStore)
    (call : ι) (represents : Represents calls state store)
    (informed : StepInformed calls state call) :
    Completes Nodes.answer (fun store call => atomically store (calls call)) (Represents calls)
      state store call (nodes C calls state call) := by
  cases phase : (state.phase call).answer with
  | some answer =>
      have isDone : state.phase call = .done answer := by
        cases isPhase : state.phase call <;> rw [isPhase] at phase <;> cases phase
        rfl
      have same : nodes C calls state call = (state, []) := by
        unfold nodes
        rw [isDone]
        simp only [statement, CallPhase.answer]
        rw [← isDone, Function.update_eq_self]
      rw [same]
      exact .silent (fun _ => rfl) represents
  | none =>
      have step := statement_step represents.rows phase (represents.phases call) informed
      unfold nodes
      simp only [phase]
      generalize statement (calls call) state.table (state.phase call) = ends at step ⊢
      cases step with
      | @continues next pending sound =>
          simp only [pending]
          apply Completes.silent
          · intro other
            rw [answer_update, pending]
            split
            · next same => rw [same, Nodes.answer, phase]
            · rfl
          · exact ⟨represents.rows, callSound_update sound represents.phases⟩
      | @completes next rows present =>
          apply Completes.completed
          · exact phase
          · rw [answer_update, if_pos rfl]
            rfl
          · intro other differs
            rw [answer_update, if_neg differs, Nodes.answer]
          · refine ⟨rows, callSound_update trivial fun other => ?_⟩
            exact (represents.phases other).of_advance present (atomically_row_le store _)

/-! ## Runs of calls -/

section Runs

variable {calls : ι → StoreCall} {table : Table C} {store : InMemoryStore} {inputs : List ι}

/-- The state after some statements. -/
def reached (calls : ι → StoreCall) (table : Table C) (inputs : List ι) : Nodes C ι :=
  after (nodes C calls) (.start table) inputs

theorem reached_concat (past : List ι) (call : ι) :
    reached calls table (past ++ [call]) = (nodes C calls (reached calls table past) call).1 :=
  after_concat _ _ _ _

/-- Every commit is informed when it begins. -/
def AllInformed (calls : ι → StoreCall) (table : Table C) (inputs : List ι) : Prop :=
  Along (nodes C calls) (StepInformed calls) (.start table) inputs

theorem AllInformed.prefix {past future : List ι}
    (informed : AllInformed calls table (past ++ future)) : AllInformed calls table past :=
  ((along_append _ _ _ past future).mp informed).1

theorem serialized_nodes (rows : ∀ key, RowMatches (table key) (store.row key))
    (informed : AllInformed calls table inputs) :
    Serialized (nodes C calls) Nodes.answer (fun store call => atomically store (calls call))
      (Represents calls) (.start table) store inputs :=
  serialized_after (fun _ => rfl) ⟨rows, fun _ => trivial⟩ (completes_nodes calls) informed

/-- A statement after a run: there is a store that the table stands for, and the statement
answers nothing and leaves it, or does what the call does to it at once. -/
theorem exists_store (rows : ∀ key, RowMatches (table key) (store.row key)) {past : List ι}
    {call : ι} (informed : AllInformed calls table (past ++ [call])) :
    ∃ current : InMemoryStore, Represents calls (reached calls table past) current ∧
      Completes Nodes.answer (fun store call => atomically store (calls call)) (Represents calls)
        (reached calls table past) current call (nodes C calls (reached calls table past) call) := by
  have serialized := serialized_nodes rows informed.prefix
  have step := ((along_append _ _ _ past [call]).mp informed).2.1
  exact ⟨_, serialized.represented, completes_nodes calls _ _ call serialized.represented step⟩

/-- An answer stays what it was. -/
theorem answer_concat (rows : ∀ key, RowMatches (table key) (store.row key)) {past : List ι}
    {call other : ι} (informed : AllInformed calls table (past ++ [call])) {answer : StoreAnswer}
    (answered : (reached calls table past).answer other = some answer) :
    (reached calls table (past ++ [call])).answer other = some answer := by
  obtain ⟨current, -, completes⟩ := exists_store rows informed
  rw [reached_concat]
  generalize nodes C calls (reached calls table past) call = outcome at completes ⊢
  cases completes with
  | silent same _ => exact (same other).trans answered
  | completed pending _ others _ =>
      by_cases isCall : other = call
      · rw [isCall, pending] at answered
        contradiction
      · exact (others other isCall).trans answered

/-- Revisions do not go backwards. -/
theorem revision_concat_le (rows : ∀ key, RowMatches (table key) (store.row key)) {past : List ι}
    {call : ι} (informed : AllInformed calls table (past ++ [call])) (key : RowKey) :
    ((reached calls table past).table.revision key).count ≤
      ((reached calls table (past ++ [call])).table.revision key).count := by
  obtain ⟨current, represents, completes⟩ := exists_store rows informed
  rw [reached_concat, (represents.rows key).revision]
  generalize nodes C calls (reached calls table past) call = outcome at completes ⊢
  cases completes with
  | silent _ represented => rw [(represented.rows key).revision]
  | completed _ _ _ represented =>
      rw [(represented.rows key).revision]
      exact atomically_row_le current (calls call) key

theorem revision_append_le (rows : ∀ key, RowMatches (table key) (store.row key))
    {past future : List ι} (informed : AllInformed calls table (past ++ future)) (key : RowKey) :
    ((reached calls table past).table.revision key).count ≤
      ((reached calls table (past ++ future)).table.revision key).count := by
  induction future using List.reverseRecOn with
  | nil => rw [List.append_nil]
  | append_singleton future call ih =>
      rw [← List.append_assoc] at informed ⊢
      exact (ih informed.prefix).trans (revision_concat_le rows informed key)

/-! ### When a call takes effect -/

/-- The statement at which a call takes effect, with its answer: what was read was there; a
commit succeeded on its expected revision, and installed its set; a conflict was met by a
row at another revision, which it reports. -/
def TakesEffect (calls : ι → StoreCall) (table : Table C) (call : ι) (answer : StoreAnswer)
    (past : List ι) (input : ι) : Prop :=
  input = call ∧
    match calls call, answer with
    | .read key, .read found =>
        found = (reached calls table past).table.readInner key ∧
          ∀ other, (reached calls table (past ++ [call])).table.readInner other =
            (reached calls table past).table.readInner other
    | .commit key expected set, .commit (.ok revision) =>
        (reached calls table past).table.revision key = expected ∧ revision = expected.next ∧
          ∀ other, (reached calls table (past ++ [call])).table.readInner other =
            if other = key then .ok (set, expected.next)
            else (reached calls table past).table.readInner other
    | .commit key expected _, .commit (.error conflict) =>
        conflict = ⟨expected, (reached calls table past).table.revision key⟩ ∧
          conflict.current ≠ expected ∧
            ∀ other, (reached calls table (past ++ [call])).table.readInner other =
              (reached calls table past).table.readInner other
    | _, _ => False

/-- What is done at once takes effect. -/
theorem takesEffect_of_completed {past : List ι} {call : ι} {current : InMemoryStore}
    (represents : Represents calls (reached calls table past) current)
    (represented : Represents calls (reached calls table (past ++ [call]))
      (atomically current (calls call)).1) :
    TakesEffect calls table call (atomically current (calls call)).2 past call := by
  refine ⟨rfl, ?_⟩
  have before : ∀ key, (reached calls table past).table.readInner key = .ok (current.row key) :=
    fun key => (represents.rows key).readInner
  have next : ∀ key, (reached calls table (past ++ [call])).table.readInner key =
      .ok ((atomically current (calls call)).1.row key) :=
    fun key => (represented.rows key).readInner
  cases isCall : calls call with
  | read key =>
      rw [isCall] at next
      refine ⟨(before key).symm, fun other => ?_⟩
      rw [next, before]
      rfl
  | commit key expected set =>
      rw [isCall] at next
      have isRevision := (represents.rows key).revision
      by_cases same : (current.row (key.1, key.2)).2 = expected
      · obtain ⟨succeeds, installs⟩ := InMemoryStore.commit_of_eq same set
        have answer : (atomically current (.commit key expected set)).2 =
            .commit (.ok expected.next) := congrArg StoreAnswer.commit succeeds
        have installed : (atomically current (.commit key expected set)).1.row =
            Function.update current.row key (set, expected.next) := installs
        rw [answer]
        refine ⟨isRevision.trans same, rfl, fun other => ?_⟩
        rw [next, installed]
        by_cases isKey : other = key
        · rw [if_pos isKey, isKey, Function.update_self]
        · rw [if_neg isKey, Function.update_of_ne isKey, before]
      · have refused := InMemoryStore.commit_of_ne same set
        have answer : (atomically current (.commit key expected set)).2 =
            .commit (.error ⟨expected, (current.row key).2⟩) :=
          congrArg StoreAnswer.commit (congrArg Prod.snd refused)
        have stays : (atomically current (.commit key expected set)).1 = current :=
          congrArg Prod.fst refused
        rw [answer]
        refine ⟨by rw [isRevision], same, fun other => ?_⟩
        rw [next, before, stays]

/-- A call that is done has taken effect, in a statement of its own. -/
theorem takesEffect_of_answered (rows : ∀ key, RowMatches (table key) (store.row key))
    (informed : AllInformed calls table inputs) {call : ι} {answer : StoreAnswer}
    (answered : (reached calls table inputs).answer call = some answer) :
    Happened (TakesEffect calls table call answer) inputs := by
  induction inputs using List.reverseRecOn with
  | nil => contradiction
  | append_singleton past input ih =>
      rw [happened_concat_iff]
      obtain ⟨current, represents, completes⟩ := exists_store rows informed
      have stepped : reached calls table (past ++ [input]) =
          (nodes C calls (reached calls table past) input).1 := reached_concat past input
      rw [stepped] at answered
      generalize nodes C calls (reached calls table past) input = outcome at completes stepped answered
      cases completes with
      | silent same _ =>
          left
          apply ih informed.prefix
          rw [← same]
          exact answered
      | completed pending isAnswer others represented =>
          by_cases isCall : call = input
          · subst call
            right
            rw [isAnswer] at answered
            rw [← Option.some.inj answered]
            apply takesEffect_of_completed represents
            rw [stepped]
            exact represented
          · left
            apply ih informed.prefix
            rw [← others call isCall]
            exact answered

/-! ### Commits of one row -/

theorem revision_of_readInner {key : RowKey} {set : BindingSet} {revision : Revision}
    (found : table.readInner key = .ok (set, revision)) : table.revision key = revision := by
  unfold Table.readInner at found
  unfold Table.revision
  cases stored : table key with
  | none =>
      rw [stored] at found
      exact (Prod.ext_iff.mp (Except.ok.inj found)).2
  | some row =>
      simp only [stored] at found
      split at found
      · exact (Prod.ext_iff.mp (Except.ok.inj found)).2
      · contradiction

/-- What is known of a commit that succeeded. -/
theorem exists_commit (rows : ∀ key, RowMatches (table key) (store.row key))
    (informed : AllInformed calls table inputs) {call : ι} {key : RowKey} {expected revision : Revision}
    {set : BindingSet} (isCall : calls call = .commit key expected set)
    (answered : (reached calls table inputs).answer call = some (.commit (.ok revision))) :
    ∃ past future, inputs = past ++ call :: future ∧ revision = expected.next ∧
      (reached calls table past).table.revision key = expected ∧
        (reached calls table (past ++ [call])).table.revision key = revision := by
  obtain ⟨past, input, future, isSplit, rfl, effect⟩ :=
    takesEffect_of_answered rows informed answered
  rw [isCall] at effect
  obtain ⟨isExpected, isNext, installed⟩ := effect
  refine ⟨past, future, isSplit, isNext, isExpected, ?_⟩
  have found := installed key
  rw [if_pos rfl] at found
  rw [revision_of_readInner found, isNext]

/-- A commit that succeeds after another of the row answers a later revision. -/
theorem commit_lt_of_later (rows : ∀ key, RowMatches (table key) (store.row key))
    {past between future : List ι} {first second : ι} {key : RowKey} {earlier later : Revision}
    (informed : AllInformed calls table (past ++ first :: between ++ second :: future))
    (atFirst : (reached calls table (past ++ [first])).table.revision key = earlier)
    (atSecond : (reached calls table (past ++ first :: between)).table.revision key = later) :
    earlier.count < later.next.count := by
  have upTo : AllInformed calls table ((past ++ [first]) ++ between) := by
    have whole := informed.prefix
    rwa [← List.singleton_append, ← List.append_assoc] at whole
  have monotone := revision_append_le rows upTo key
  rw [List.append_assoc, List.singleton_append, atFirst, atSecond] at monotone
  exact Nat.lt_succ_of_le monotone

/-- No two commits of a row answer the same revision. -/
theorem commit_unique (rows : ∀ key, RowMatches (table key) (store.row key))
    (informed : AllInformed calls table inputs) {first second : ι} {key : RowKey}
    {firstExpected secondExpected revision : Revision} {firstSet secondSet : BindingSet}
    (isFirst : calls first = .commit key firstExpected firstSet)
    (isSecond : calls second = .commit key secondExpected secondSet)
    (firstAnswered : (reached calls table inputs).answer first = some (.commit (.ok revision)))
    (secondAnswered : (reached calls table inputs).answer second = some (.commit (.ok revision))) :
    first = second := by
  obtain ⟨past, future, split, isNext, isExpected, installed⟩ :=
    exists_commit rows informed isFirst firstAnswered
  obtain ⟨past', future', split', isNext', isExpected', installed'⟩ :=
    exists_commit rows informed isSecond secondAnswered
  rcases List.append_eq_append_iff.mp (split.symm.trans split') with
    ⟨between, rfl, same⟩ | ⟨between, rfl, same⟩
  · cases between with
    | nil => exact (List.cons.inj same).1
    | cons call between =>
        obtain ⟨rfl, rfl⟩ := List.cons.inj same
        rw [split'] at informed
        have later := commit_lt_of_later rows informed installed isExpected'
        rw [← isNext'] at later
        exact absurd later (Nat.lt_irrefl _)
  · cases between with
    | nil => exact (List.cons.inj same).1.symm
    | cons call between =>
        obtain ⟨rfl, rfl⟩ := List.cons.inj same
        rw [split] at informed
        have later := commit_lt_of_later rows informed installed' isExpected
        rw [← isNext] at later
        exact absurd later (Nat.lt_irrefl _)

/-- A row that has left its first revision was taken from it by a commit. -/
theorem exists_first_commit (rows : ∀ key, RowMatches (table key) (store.row key))
    (informed : AllInformed calls table inputs) {key : RowKey}
    (left : (reached calls table inputs).table.revision key ≠ table.revision key) :
    ∃ call set, calls call = .commit key (table.revision key) set ∧
      (reached calls table inputs).answer call =
        some (.commit (.ok (table.revision key).next)) := by
  induction inputs using List.reverseRecOn with
  | nil => exact absurd rfl left
  | append_singleton past input ih =>
      by_cases before : (reached calls table past).table.revision key = table.revision key
      · obtain ⟨current, represents, completes⟩ := exists_store rows informed
        have isRevision := (represents.rows key).revision
        rw [reached_concat] at left ⊢
        generalize nodes C calls (reached calls table past) input = outcome at completes left ⊢
        cases completes with
        | silent _ represented =>
            rw [(represented.rows key).revision, ← isRevision] at left
            exact absurd before left
        | completed _ answered _ represented =>
            rw [(represented.rows key).revision] at left
            refine ⟨input, ?_⟩
            rw [answered]
            cases isCall : calls input with
            | read other =>
                rw [isCall] at left
                exact absurd (isRevision.symm.trans before) left
            | commit other expected set =>
                rw [isCall] at left
                change ((current.commit other.1 other.2 expected set).1.row key).2 ≠ _ at left
                by_cases same : (current.row (other.1, other.2)).2 = expected
                · obtain ⟨succeeds, installs⟩ := InMemoryStore.commit_of_eq same set
                  have isKey : key = other := by
                    by_contra differs
                    rw [installs, Function.update_of_ne differs, ← isRevision] at left
                    exact left before
                  subst key
                  have isExpected : expected = table.revision other := by
                    rw [← same, ← before, isRevision]
                  subst isExpected
                  exact ⟨set, rfl, congrArg (some ∘ StoreAnswer.commit) succeeds⟩
                · rw [InMemoryStore.commit_of_ne same, ← isRevision] at left
                  exact absurd before left
      · obtain ⟨call, set, isCall, answered⟩ := ih informed.prefix before
        exact ⟨call, set, isCall, answer_concat rows informed answered⟩

/-- What a run of calls amounts to beside an in-memory store. -/
structure RefinesInMemory (C : BindingCodec) (calls : ι → StoreCall) (table : Table C)
    (store : InMemoryStore) (inputs : List ι) : Prop where
  linearizable : Linearizable (nodes C calls) Nodes.answer
    (fun store call => atomically store (calls call)) (.start table) store inputs
  /-- A call takes effect, and is answered what it is, in a statement of its own. -/
  effect : ∀ call answer, (reached calls table inputs).answer call = some answer →
    Happened (TakesEffect calls table call answer) inputs
  /-- Of the first writers of a row one wins, once one of them is done. -/
  firstWriter : ∀ key call set, table.revision key = .initial →
    calls call = .commit key .initial set →
      ((reached calls table inputs).answer call).isSome = true →
        ∃! winner, (∃ set, calls winner = .commit key .initial set) ∧
          ∃ revision, (reached calls table inputs).answer winner = some (.commit (.ok revision))
  /-- Revisions do not repeat. -/
  unique : ∀ first second key firstExpected secondExpected firstSet secondSet revision,
    calls first = .commit key firstExpected firstSet →
      calls second = .commit key secondExpected secondSet →
        (reached calls table inputs).answer first = some (.commit (.ok revision)) →
          (reached calls table inputs).answer second = some (.commit (.ok revision)) →
            first = second
  /-- Revisions do not go backwards. -/
  monotone : ∀ past future key, inputs = past ++ future →
    ((reached calls table past).table.revision key).count ≤
      ((reached calls table inputs).table.revision key).count

theorem RefinesInMemory.exists_winner (rows : ∀ key, RowMatches (table key) (store.row key))
    (informed : AllInformed calls table inputs) {key : RowKey} {call : ι} {set : BindingSet}
    (isNew : table.revision key = .initial) (isCall : calls call = .commit key .initial set)
    (done : ((reached calls table inputs).answer call).isSome = true) :
    ∃ winner set, calls winner = .commit key .initial set ∧
      (reached calls table inputs).answer winner = some (.commit (.ok Revision.initial.next)) := by
  obtain ⟨answer, answered⟩ := Option.isSome_iff_exists.mp done
  obtain ⟨past, input, future, rfl, rfl, effect⟩ := takesEffect_of_answered rows informed answered
  rw [isCall] at effect
  cases answer with
  | read found => exact absurd effect id
  | commit outcome =>
      cases outcome with
      | ok revision =>
          rw [effect.2.1] at answered
          exact ⟨input, set, isCall, answered⟩
      | error conflict =>
          obtain ⟨rfl, moved, -⟩ := effect
          have left : (reached calls table (past ++ input :: future)).table.revision key ≠
              table.revision key := by
            have monotone := revision_append_le rows informed key
            intro same
            rw [same, isNew] at monotone
            apply moved
            have isZero := Nat.le_zero.mp monotone
            generalize (reached calls table past).table.revision key = found at isZero
            cases found
            exact congrArg Revision.mk isZero
          have first := exists_first_commit rows informed left
          rw [isNew] at first
          exact first

/-- The PostgreSQL store refines the in-memory one, in every run in which each commit
begins with a revision its row has reached, below the last one the column holds. -/
theorem refinesInMemory (rows : ∀ key, RowMatches (table key) (store.row key))
    (informed : AllInformed calls table inputs) :
    RefinesInMemory C calls table store inputs where
  linearizable :=
    linearizable_of_completes (fun _ => rfl) ⟨rows, fun _ => trivial⟩ (completes_nodes calls)
      informed
  effect _ _ answered := takesEffect_of_answered rows informed answered
  firstWriter key call set isNew isCall done := by
    obtain ⟨winner, winnerSet, isWinner, answered⟩ :=
      RefinesInMemory.exists_winner rows informed isNew isCall done
    refine ⟨winner, ⟨⟨winnerSet, isWinner⟩, _, answered⟩, ?_⟩
    rintro other ⟨⟨otherSet, isOther⟩, revision, otherAnswered⟩
    obtain ⟨-, -, -, rfl, -, -⟩ := exists_commit rows informed isOther otherAnswered
    exact commit_unique rows informed isOther isWinner otherAnswered answered
  unique _ _ _ _ _ _ _ _ isFirst isSecond firstAnswered secondAnswered :=
    commit_unique rows informed isFirst isSecond firstAnswered secondAnswered
  monotone past future key split := by
    rw [split] at informed ⊢
    exact revision_append_le rows informed key

end Runs

/-! ## Runs on an empty table -/

/-- Binding sets stored as they are. -/
def plainCodec : BindingCodec where
  Json := BindingSet
  toValue set := set
  fromValue set := some set
  fromValue_toValue _ := rfl
  describe _ := []

/-- A table with no row. -/
def emptyTable : Table plainCodec :=
  fun _ => none

theorem rowMatches_empty (key : RowKey) :
    RowMatches (emptyTable key) (InMemoryStore.new.row key) :=
  rfl

/-- The row of Bob. -/
def bobsRow : RowKey :=
  (text "t1", ⟨text "sip:bob@b.example"⟩)

instance (call : StoreCall) (table : Table C) (phase : CallPhase) :
    Decidable (Informed call table phase) :=
  match phase, call with
  | .called, .commit _ _ _ => inferInstanceAs (Decidable (_ ∧ _))
  | .called, .read _ => .isTrue trivial
  | .refused, _ => .isTrue trivial
  | .lost, _ => .isTrue trivial
  | .done _, _ => .isTrue trivial

instance (calls : ι → StoreCall) (state : Nodes C ι) (call : ι) :
    Decidable (StepInformed calls state call) :=
  inferInstanceAs (Decidable (Informed _ _ _))

/-- Two first writers of a row, the second of which is overtaken between its statements. -/
theorem refinesInMemory_firstWriters :
    RefinesInMemory plainCodec (fun _ : Bool => .commit bobsRow .initial []) emptyTable .new
      [false, true, true, true] := by
  apply refinesInMemory rowMatches_empty
  unfold AllInformed
  decide +kernel

/-- A commit that runs ahead of its row, and one that brings the row there before the first
has read it again. -/
def aheadCalls : Bool → StoreCall
  | true => .commit bobsRow ⟨1⟩ []
  | false => .commit bobsRow .initial []

/-- The one that ran ahead is told that the row is where it expected it: no store that is
asked at once says so. -/
theorem not_linearizable_ahead :
    ¬ Linearizable (nodes plainCodec aheadCalls) Nodes.answer
      (fun store call => atomically store (aheadCalls call)) (.start emptyTable) .new
        [true, false, true] := by
  rintro ⟨order, -, answers, -⟩
  have answered : Nodes.answer (after (nodes plainCodec aheadCalls) (.start emptyTable)
      [true, false, true]) true = some (.commit (.error ⟨⟨1⟩, ⟨1⟩⟩)) := rfl
  obtain ⟨store, isAnswer⟩ := exists_of_mem_emitted_serial (answers true _ answered)
  change StoreAnswer.commit _ = StoreAnswer.commit (store.commit bobsRow.1 bobsRow.2 ⟨1⟩ []).2
    at isAnswer
  have isOutcome := StoreAnswer.commit.inj isAnswer
  by_cases same : (store.row (bobsRow.1, bobsRow.2)).2 = ⟨1⟩
  · rw [(InMemoryStore.commit_of_eq same []).1] at isOutcome
    contradiction
  · rw [InMemoryStore.commit_of_ne same] at isOutcome
    exact same (congrArg CasConflict.current (Except.error.inj isOutcome)).symm

/-- Commits one after the other, each at the revision of the one before, as far as the
column goes. -/
def climbingCalls (call : Nat) : StoreCall :=
  .commit bobsRow ⟨min call i64Max⟩ []

/-- Where the climb has come after some commits. -/
structure Climbed (count : Nat) (state : Nodes plainCodec Nat) : Prop where
  row : state.table bobsRow =
    if count = 0 then none else some ⟨((min count i64Max : Nat) : Int), []⟩
  later : ∀ call, count ≤ call → state.phase call = .called
  earlier : ∀ call, call < count →
    state.answer call = some (.commit (.ok ⟨min call i64Max + 1⟩))

theorem climbed (count : Nat) :
    Climbed count (reached climbingCalls emptyTable (List.range count)) := by
  induction count with
  | zero => exact ⟨rfl, fun _ _ => rfl, fun _ below => absurd below (Nat.not_lt_zero _)⟩
  | succ count ih =>
      have statementEq : statement (climbingCalls count)
          (reached climbingCalls emptyTable (List.range count)).table
          ((reached climbingCalls emptyTable (List.range count)).phase count) =
            (Function.update (reached climbingCalls emptyTable (List.range count)).table bobsRow
              (some ⟨((min (count + 1) i64Max : Nat) : Int), []⟩),
              .done (.commit (.ok ⟨min count i64Max + 1⟩))) := by
        have isRow : (rowOf ⟨min count i64Max⟩ [] : TableRow plainCodec) =
            ⟨((min (count + 1) i64Max : Nat) : Int), []⟩ := by
          have climbs : min (min count i64Max + 1) i64Max = min (count + 1) i64Max := by omega
          simp only [rowOf, toI64, Revision.next, climbs]
          rfl
        have stored := ih.row
        rw [ih.later count (Nat.le_refl count)]
        simp only [statement, climbingCalls, isRow]
        by_cases first : count = 0
        · rw [if_pos first] at stored
          subst first
          rw [if_pos (by rfl)]
          simp only [Table.insert, stored]
          rfl
        · have later : (⟨min count i64Max⟩ : Revision) ≠ .initial := by
            intro isInitial
            have isZero : min count i64Max = 0 := congrArg Revision.count isInitial
            have positive : 0 < i64Max := by decide
            omega
          have current : ((min count i64Max : Nat) : Int) = toI64 ⟨min count i64Max⟩ := by
            simp [toI64]
          rw [if_neg first] at stored
          rw [if_neg later]
          simp only [Table.update, stored, if_pos current]
          rfl
      rw [List.range_succ, reached_concat]
      unfold nodes
      rw [statementEq]
      constructor
      · simp
      · intro call above
        have differs : call ≠ count := by omega
        simp only [Function.update_of_ne differs]
        exact ih.later call (by omega)
      · intro call below
        rw [answer_update]
        by_cases same : call = count
        · rw [if_pos same, same]
          rfl
        · rw [if_neg same]
          exact ih.earlier call (by omega)

/-- At the end of the column two commits answer one revision. -/
theorem not_refinesInMemory_climbed :
    ¬ RefinesInMemory plainCodec climbingCalls emptyTable .new (List.range (i64Max + 2)) := by
  intro refines
  have climb := climbed (i64Max + 2)
  have last := climb.earlier i64Max (by omega)
  have again := climb.earlier (i64Max + 1) (by omega)
  rw [Nat.min_eq_left (Nat.le_refl i64Max)] at last
  rw [Nat.min_eq_right (Nat.le_succ i64Max)] at again
  have same := refines.unique i64Max (i64Max + 1) bobsRow _ _ _ _ _ rfl rfl last again
  exact absurd same (Nat.succ_ne_self i64Max).symm

/-- Neither a commit that runs ahead of its row, nor one at the end of the column, is what
the in-memory store would do. -/
theorem not_refinesInMemory :
    (¬ RefinesInMemory plainCodec aheadCalls emptyTable .new [true, false, true]) ∧
      ¬ RefinesInMemory plainCodec climbingCalls emptyTable .new (List.range (i64Max + 2)) :=
  ⟨fun refines => not_linearizable_ahead refines.linearizable, not_refinesInMemory_climbed⟩

end SipxClstr.Node
