import SipxClstr.Data.Window
import SipxClstr.Registrar.Drivers

/-!
# The change feed

Whatever calls commit on a store and however their steps interleave, the feed shows the end of
what was committed.  A consumer that finds the last change it saw in the feed brings its copy of
the rows up to date by reading again the rows named behind it.
-/

namespace SipxClstr.Registrar

open SipxClstr.Sip SipxClstr.Data Reactive Reactive.Machine

universe u

variable {K : Kernel} {ι : Type u}

/-! ## One operation -/

/-- A commit adds its change, and the feed is cut down to its capacity. -/
theorem InMemoryStore.changes_commit_of_eq {store : InMemoryStore} {tenant : Text}
    {aor : CanonicalAor} {expected : Revision}
    (current : (store.row (tenant, aor)).2 = expected) (set : BindingSet)
    (bounded : store.changes.length ≤ changeFeedCapacity) :
    (store.commit tenant aor expected set).1.changes =
      (store.changes ++ [(⟨tenant, aor, expected.next⟩ : Change)]).rtake changeFeedCapacity := by
  simp only [commit, revision_eq, current]
  rw [if_neg (not_not_intro rfl)]
  simp only [List.rtake, List.length_append, List.length_singleton]
  split
  · next full =>
      have one : store.changes.length + 1 - changeFeedCapacity = 1 := by omega
      rw [one]
  · next within =>
      rw [Nat.sub_eq_zero_of_le (Nat.le_of_not_lt within), List.drop_zero]

/-- An operation of a call puts what it commits at the end of the feed. -/
theorem changes_advance (R : ContactRules K) (task : Task K) {store : InMemoryStore}
    (bounded : store.changes.length ≤ changeFeedCapacity) (phase : Phase) :
    (advance R InMemoryStore.locationStore task store phase).1.changes =
      (store.changes ++ (advance R InMemoryStore.locationStore task store phase).2.2).rtake
        changeFeedCapacity := by
  have unchanged : (store.changes ++ []).rtake changeFeedCapacity = store.changes := by
    rw [List.append_nil, rtake_of_length_le bounded]
  cases phase with
  | done applied =>
      simp only [advance]
      exact unchanged.symm
  | reading conflicts =>
      have found : InMemoryStore.locationStore.read store task.cmd.tenant task.cmd.aor =
          .ok (store.row task.key) := store.read_eq _ _
      cases decided : process R task.cmd (store.row task.key).1 task.policy with
      | commit set response =>
          simp only [advance, found, decided]
          exact unchanged.symm
      | noop response =>
          simp only [advance, found, decided]
          exact unchanged.symm
      | reject rejection =>
          simp only [advance, found, decided]
          exact unchanged.symm
  | holding set response revision conflicts =>
      by_cases current : (store.row task.key).2 = revision
      · have accepts := (InMemoryStore.commit_of_eq current set).1
        have feeds := InMemoryStore.changes_commit_of_eq current set bounded
        rcases committed : store.commit task.cmd.tenant task.cmd.aor revision set with ⟨next, result⟩
        rw [committed] at accepts feeds
        have installed : InMemoryStore.locationStore.commit store task.cmd.tenant task.cmd.aor
            revision set = (next, .ok revision.next) := by
          rw [← accepts]
          exact committed
        simp only [advance, installed]
        exact feeds
      · have refused : InMemoryStore.locationStore.commit store task.cmd.tenant task.cmd.aor
            revision set = (store, .error ⟨revision, (store.row task.key).2⟩) :=
          InMemoryStore.commit_of_ne current set
        simp only [advance, refused]
        split
        · exact unchanged.symm
        · exact unchanged.symm

/-! ## Runs -/

section Runs

variable [DecidableEq ι] {R : ContactRules K} {task : ι → Task K}

/-- What calls on an empty store have committed, in order. -/
def committed (R : ContactRules K) (task : ι → Task K) (inputs : List ι) : List Change :=
  (emitted (drivers R task) (.start .new) inputs).map Prod.snd

/-- The revisions that a list of changes names for a row, in order. -/
def revisionsOf (key : RowKey) (changes : List Change) : List Nat :=
  (changes.filter fun change => change.key = key).map fun change => change.revision.count

omit [DecidableEq ι] in
theorem revisionsOf_append (key : RowKey) (first second : List Change) :
    revisionsOf key (first ++ second) = revisionsOf key first ++ revisionsOf key second := by
  rw [revisionsOf, List.filter_append, List.map_append, revisionsOf, revisionsOf]

/-- Where no row names a revision twice, no change is there twice. -/
theorem nodup_of_revisionsOf {changes : List Change}
    (once : ∀ key, (revisionsOf key changes).Nodup) : changes.Nodup := by
  rw [List.nodup_iff_count_le_one]
  intro change
  have own : decide (change.key = change.key) = true := decide_eq_true rfl
  have counted := List.nodup_iff_count_le_one.mp (once change.key) change.revision.count
  calc changes.count change
      = (changes.filter fun other : Change => other.key = change.key).count change :=
        (List.count_filter (p := fun other : Change => decide (other.key = change.key)) own).symm
    _ ≤ (revisionsOf change.key changes).count change.revision.count :=
        List.count_le_count_map (f := fun other : Change => other.revision.count)
    _ ≤ 1 := counted

/-- Where the feed and the rows stand after what was committed. -/
structure Feeds (changes : List Change) (store : InMemoryStore) : Prop where
  feed : store.changes = changes.rtake changeFeedCapacity
  numbered : ∀ key, revisionsOf key changes = List.range' 1 (store.row key).2.count

/-- An empty store has committed nothing. -/
theorem feeds_new : Feeds [] .new where
  feed := (List.rtake_nil _).symm
  numbered _ := rfl

theorem Feeds.bounded {changes : List Change} {store : InMemoryStore}
    (feeds : Feeds changes store) : store.changes.length ≤ changeFeedCapacity := by
  rw [feeds.feed, length_rtake]
  exact Nat.min_le_left _ _

theorem Feeds.nodup {changes : List Change} {store : InMemoryStore}
    (feeds : Feeds changes store) : changes.Nodup := by
  apply nodup_of_revisionsOf
  intro key
  rw [feeds.numbered]
  exact List.nodup_range'

omit [DecidableEq ι] in
/-- A commit names the next revision of its row, and none of another's. -/
theorem Commits.numbered {store next : InMemoryStore} {driver : ι}
    {effects : List (ι × Change)} (commits : Commits R task store driver next effects)
    {changes : List Change} {key : RowKey}
    (numbered : revisionsOf key changes = List.range' 1 (store.row key).2.count) :
    revisionsOf key (changes ++ effects.map Prod.snd) =
      List.range' 1 (next.row key).2.count := by
  obtain ⟨set, response, -, installs, rfl⟩ := commits
  rw [revisionsOf_append, numbered, installs]
  by_cases same : key = (task driver).key
  · subst key
    rw [Function.update_self]
    change _ = List.range' 1 ((store.row (task driver).key).2.count + 1)
    rw [List.range'_1_concat]
    congr 1
    simp [revisionsOf, Change.key, Task.key, Revision.next, Nat.add_comm]
  · have differs : ((task driver).cmd.tenant, (task driver).cmd.aor) ≠ key :=
      fun isKey => same isKey.symm
    rw [Function.update_of_ne same]
    simp [revisionsOf, Change.key, differs]

theorem feeds_after (R : ContactRules K) (task : ι → Task K) (inputs : List ι) :
    Feeds (committed R task inputs) (after (drivers R task) (.start .new) inputs).store := by
  have initial : DriversSound R task (.start .new) := fun driver => Nat.zero_le (task driver).retries
  refine (run_always (drivers R task)
    (fun _ effects state => DriversSound R task state ∧ Feeds (effects.map Prod.snd) state.store)
    ⟨initial, feeds_new⟩ ?_ inputs).2
  rintro _ effects state driver ⟨sound, feeds⟩
  refine ⟨driversSound_step state driver sound, ?_, ?_⟩
  · have step := changes_advance R (task driver) feeds.bounded (state.phase driver)
    rw [feeds.feed, rtake_rtake_append] at step
    rw [List.map_append, drivers]
    simpa [Function.comp_def] using step
  · intro key
    rcases drivers_rows sound driver with ⟨sameRows, nothing⟩ | commits
    · rw [sameRows, nothing, List.append_nil]
      exact feeds.numbered key
    · rw [List.map_append]
      exact commits.numbered (feeds.numbered key)

/-- A row that no change names is as it was. -/
theorem row_eq_of_unnamed {state : Drivers ι} (sound : DriversSound R task state)
    (more : List ι) {key : RowKey}
    (unnamed : ∀ effect ∈ emitted (drivers R task) state more, effect.2.key ≠ key) :
    (after (drivers R task) state more).store.row key = state.store.row key := by
  induction more generalizing state with
  | nil => rfl
  | cons driver rest ih =>
      rw [emitted_cons] at unnamed
      rw [after_cons, ih (driversSound_step state driver sound)
        fun effect member => unnamed effect (List.mem_append_right _ member)]
      rcases drivers_rows sound driver with ⟨sameRows, -⟩ | ⟨set, response, -, installs, commits⟩
      · rw [sameRows]
      · have names := unnamed _ (List.mem_append_left _ (commits ▸ List.mem_singleton_self _))
        rw [installs, Function.update_of_ne]
        rintro rfl
        exact names rfl

/-- A consumer reads again the rows that changes name, and keeps its copy of the others. -/
def refresh (copy : RowKey → BindingSet × Revision) (changes : List Change)
    (store : InMemoryStore) : RowKey → BindingSet × Revision :=
  fun key => if changes.any fun change => change.key = key then store.row key else copy key

/-- Over every interleaving of calls on an empty store, the feed shows the end of what was
committed, and the changes of a row name its revisions one by one up to the one it is at.  A
consumer that remembers the last change it saw finds it in the feed exactly while fewer
changes than the capacity were committed since.  What stands behind it is then just what was
committed since, and reading those rows again brings the consumer's copy up to date. -/
theorem feed_resumes (R : ContactRules K) (task : ι → Task K) (past more : List ι) :
    let before := (after (drivers R task) (.start .new) past).store
    let now := (after (drivers R task) (.start .new) (past ++ more)).store
    let since := (committed R task (past ++ more)).drop (committed R task past).length
    now.changes = (committed R task (past ++ more)).rtake changeFeedCapacity ∧
      (∀ key, revisionsOf key (committed R task (past ++ more)) =
        List.range' 1 (now.row key).2.count) ∧
      ∀ seen, before.changes.getLast? = some seen →
        (seen ∈ now.changes ↔ since.length < changeFeedCapacity) ∧
          (seen ∈ now.changes → behind seen now.changes = since ∧
            refresh before.row (behind seen now.changes) now = now.row) := by
  intro before now since
  have earlier := feeds_after R task past
  have later := feeds_after R task (past ++ more)
  refine ⟨later.feed, later.numbered, ?_⟩
  intro seen isLast
  have grown : committed R task (past ++ more) = committed R task past ++
      (emitted (drivers R task) (after (drivers R task) (.start .new) past) more).map Prod.snd := by
    rw [committed, emitted_append, List.map_append, committed]
  have isSince : since =
      (emitted (drivers R task) (after (drivers R task) (.start .new) past) more).map Prod.snd := by
    change List.drop _ (committed R task (past ++ more)) = _
    rw [grown, List.drop_left]
  have ends : (committed R task past).getLast? = some seen := by
    rw [← getLast?_rtake (by decide : 0 < changeFeedCapacity), ← earlier.feed]
    exact isLast
  obtain ⟨front, isFront⟩ := List.getLast?_eq_some_iff.mp ends
  have shape : committed R task (past ++ more) = front ++ seen :: since := by
    rw [grown, ← isSince, isFront, List.append_assoc, List.singleton_append]
  have nodup := later.nodup
  rw [shape] at nodup
  have isFeed : now.changes = (front ++ seen :: since).rtake changeFeedCapacity := by
    rw [← shape]
    exact later.feed
  rw [isFeed]
  have found : seen ∈ (front ++ seen :: since).rtake changeFeedCapacity ↔
      since.length < changeFeedCapacity := mem_rtake_append_cons_iff nodup
  refine ⟨found, ?_⟩
  intro member
  have follows := behind_rtake nodup (found.mp member)
  refine ⟨follows, ?_⟩
  rw [follows]
  funext key
  unfold refresh
  split
  · rfl
  · next unnamed =>
      have others : ∀ effect ∈ emitted (drivers R task)
          (after (drivers R task) (.start .new) past) more, effect.2.key ≠ key := by
        intro effect member isKey
        apply unnamed
        rw [List.any_eq_true, isSince]
        exact ⟨effect.2, List.mem_map_of_mem member, decide_eq_true isKey⟩
      change before.row key = (after (drivers R task) (.start .new) (past ++ more)).store.row key
      rw [after_append]
      exact (row_eq_of_unnamed (driversSound_after R task .new past) more others).symm

end Runs

end SipxClstr.Registrar
