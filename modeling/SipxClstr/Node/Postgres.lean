import SipxClstr.Reactive.Linearizable
import SipxClstr.Registrar.Store

/-!
# The PostgreSQL location store

One row for each address-of-record, and a revision predicate in place of a lock.  A call
runs one statement after another, each of them atomic; statements of other calls may run
between any two.
-/

namespace SipxClstr.Node

open SipxClstr.Sip SipxClstr.Registrar Reactive Reactive.Machine

universe u

/-! ## The table -/

/-- `i64::MAX`. -/
def i64Max : Nat :=
  9223372036854775807

/-- `i64::try_from(revision).unwrap_or(i64::MAX)`. -/
def toI64 (revision : Revision) : Int :=
  (min revision.count i64Max : Nat)

/-- `u64::try_from(revision).unwrap_or(0)`. -/
def toRevision (revision : Int) : Revision :=
  ⟨revision.toNat⟩

/-- How a binding set is written to `jsonb` and read back. -/
structure BindingCodec where
  Json : Type
  /-- `serde_json::to_value`. -/
  toValue : BindingSet → Json
  /-- `serde_json::from_value`. -/
  fromValue : Json → Option BindingSet
  fromValue_toValue : ∀ set, fromValue (toValue set) = some set
  /-- What is said of a value that cannot be decoded. -/
  describe : Json → Text

/-- A row of `location_bindings`. -/
structure TableRow (C : BindingCodec) where
  revision : Int
  bindings : C.Json

/-- `location_bindings`, by its primary key. -/
abbrev Table (C : BindingCodec) :=
  RowKey → Option (TableRow C)

variable {C : BindingCodec}

namespace Table

/-- `SELECT revision, bindings`, and what is made of it: `read_inner`. -/
def readInner (table : Table C) (key : RowKey) : Except ReadFailure (BindingSet × Revision) :=
  match table key with
  | none => .ok ([], .initial)
  | some row =>
      match C.fromValue row.bindings with
      | some set => .ok (set, toRevision row.revision)
      | none =>
          .error (.undecodable
            (text "a stored binding set could not be decoded: " ++ C.describe row.bindings))

/-- `INSERT … ON CONFLICT DO NOTHING`, with the rows affected. -/
def insert (table : Table C) (key : RowKey) (row : TableRow C) : Table C × Nat :=
  match table key with
  | none => (Function.update table key (some row), 1)
  | some _ => (table, 0)

/-- `UPDATE … WHERE revision = expected`, with the rows affected. -/
def update (table : Table C) (key : RowKey) (row : TableRow C) (expected : Int) : Table C × Nat :=
  match table key with
  | none => (table, 0)
  | some stored =>
      if stored.revision = expected then (Function.update table key (some row), 1) else (table, 0)

/-- The revision a row is at. -/
def revision (table : Table C) (key : RowKey) : Revision :=
  match table key with
  | none => .initial
  | some row => toRevision row.revision

end Table

/-! ## Calls -/

/-- A call of the store. -/
inductive StoreCall where
  | read (key : RowKey)
  | commit (key : RowKey) (expected : Revision) (set : BindingSet)

/-- What a call answers. -/
inductive StoreAnswer where
  | read (answer : Except ReadFailure (BindingSet × Revision))
  | commit (answer : Except CasConflict Revision)

/-- Where a call stands between two statements. -/
inductive CallPhase where
  | called
  /-- The `INSERT` found a row. -/
  | refused
  /-- The `UPDATE` found no row at the revision. -/
  | lost
  | done (answer : StoreAnswer)

namespace CallPhase

def answer : CallPhase → Option StoreAnswer
  | .done answer => some answer
  | _ => none

end CallPhase

/-- The row a commit writes. -/
def rowOf (expected : Revision) (set : BindingSet) : TableRow C :=
  ⟨toI64 expected.next, C.toValue set⟩

/-- What follows an `UPDATE`. -/
def afterUpdate (expected : Revision) : Table C × Nat → Table C × CallPhase
  | (table, 0) => (table, .lost)
  | (table, _ + 1) => (table, .done (.commit (.ok expected.next)))

/-- The next statement of a call: `read`, or `commit` over `commit_inner`. -/
def statement (call : StoreCall) (table : Table C) : CallPhase → Table C × CallPhase
  | .done answer => (table, .done answer)
  | phase =>
      match call with
      | .read key => (table, .done (.read (table.readInner key)))
      | .commit key expected set =>
          match phase with
          | .lost =>
              match table.readInner key with
              | .ok (_, current) => (table, .done (.commit (.error ⟨expected, current⟩)))
              -- A failed write must never look like a successful one.
              | .error _ => (table, .done (.commit (.error ⟨expected, expected⟩)))
          | .refused => afterUpdate expected (table.update key (rowOf expected set) (toI64 expected))
          | _ =>
              if expected = .initial then
                match table.insert key (rowOf expected set) with
                | (table, 0) => (table, .refused)
                | (table, _ + 1) => (table, .done (.commit (.ok expected.next)))
              else
                afterUpdate expected (table.update key (rowOf expected set) (toI64 expected))

/-! ## Nodes -/

/-- The table, and where every call stands. -/
structure Nodes (C : BindingCodec) (ι : Type u) where
  table : Table C
  phase : ι → CallPhase

variable {ι : Type u} [DecidableEq ι]

def Nodes.start (table : Table C) : Nodes C ι :=
  ⟨table, fun _ => .called⟩

/-- The answer of a call that is done. -/
def Nodes.answer (state : Nodes C ι) (call : ι) : Option StoreAnswer :=
  (state.phase call).answer

/-- Nodes that call the store: one statement of one call at a time.  A call is put out
with its answer when it is done. -/
def nodes (C : BindingCodec) (calls : ι → StoreCall) :
    Machine (Nodes C ι) ι (ι × StoreAnswer) :=
  fun state call =>
    let ends := statement (calls call) state.table (state.phase call)
    (⟨ends.1, Function.update state.phase call ends.2⟩,
      match (state.phase call).answer, ends.2.answer with
      | none, some answer => [(call, answer)]
      | _, _ => [])

/-- What a call does to the in-memory store at once. -/
def atomically (store : InMemoryStore) : StoreCall → InMemoryStore × StoreAnswer
  | .read key => (store, .read (store.read key.1 key.2))
  | .commit key expected set =>
      ((store.commit key.1 key.2 expected set).1,
        .commit (store.commit key.1 key.2 expected set).2)

end SipxClstr.Node
