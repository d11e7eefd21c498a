import SipxClstr.Document.Value
import SipxClstr.Data.Sorted

/-!
# What a refusal says

A refusal names the place, in the document's own spelling, the rule, what was found and
what was expected.  A reader of the document carries on after a fault, so that every fault
is reported: it yields a value beside the errors, and beside the paths it recognised and
did not apply.
-/

namespace SipxClstr.Document

open SipxClstr.Sip

/-- A path into the document, as it is rendered. -/
structure Path where
  shown : Text
  deriving DecidableEq, Repr

namespace Path

def root : Path :=
  ⟨[]⟩

def field (path : Path) (key : Text) : Path :=
  if path.shown.isEmpty then ⟨key⟩ else ⟨path.shown ++ '.' :: key⟩

def index (path : Path) (index : Nat) : Path :=
  ⟨path.shown ++ '[' :: (decimal index ++ [']'])⟩

end Path

/-- One reason a document was refused. -/
structure ConfigError where
  path : Path
  /-- The rule, by the owning specification's id. -/
  rule : Text
  found : Option Text
  expected : Text
  deriving DecidableEq, Repr

def ConfigError.new (path : Path) (rule : String) (found : Option Text) (expected : Text) :
    ConfigError :=
  ⟨path, text rule, found, expected⟩

/-! ## The order of a report -/

instance : Ord Path :=
  ⟨compareOn Path.shown⟩

instance : Std.TransOrd Path :=
  inferInstanceAs (Std.TransCmp (compareOn Path.shown))

instance : Std.LawfulEqOrd Path := by
  constructor
  rintro ⟨first⟩ ⟨second⟩ same
  exact congrArg Path.mk (Std.LawfulEqOrd.compare_eq_iff_eq.mp same)

/-- The derived order: by path, then rule, then what was found, then what was expected. -/
instance : Ord ConfigError :=
  ⟨compareLex (compareOn ConfigError.path) <| compareLex (compareOn ConfigError.rule) <|
    compareLex (compareOn ConfigError.found) (compareOn ConfigError.expected)⟩

instance : Std.TransOrd ConfigError :=
  inferInstanceAs <| Std.TransCmp <|
    compareLex (compareOn ConfigError.path) <| compareLex (compareOn ConfigError.rule) <|
      compareLex (compareOn ConfigError.found) (compareOn ConfigError.expected)

instance : Std.LawfulEqOrd ConfigError := by
  constructor
  rintro ⟨path, rule, found, expected⟩ ⟨path', rule', found', expected'⟩ same
  obtain ⟨paths, rest⟩ := compareLex_eq_eq.mp same
  obtain ⟨rules, rest⟩ := compareLex_eq_eq.mp rest
  obtain ⟨founds, expecteds⟩ := compareLex_eq_eq.mp rest
  rw [compareOn] at paths rules founds expecteds
  congr
  · exact Std.LawfulEqOrd.compare_eq_iff_eq.mp paths
  · exact Std.LawfulEqOrd.compare_eq_iff_eq.mp rules
  · exact Std.LawfulEqOrd.compare_eq_iff_eq.mp founds
  · exact Std.LawfulEqOrd.compare_eq_iff_eq.mp expecteds

/-- Sort the errors and drop the repeated ones. -/
def ordered (errors : List ConfigError) : List ConfigError :=
  Data.sortedDistinct errors

/-! ## Readers -/

/-- What a reader makes of its part of the document. -/
structure Reading (α : Type) where
  value : α
  errors : List ConfigError
  unapplied : List Path

namespace Reading

variable {α β : Type}

instance : Monad Reading where
  pure value := ⟨value, [], []⟩
  bind first rest :=
    ⟨(rest first.value).value, first.errors ++ (rest first.value).errors,
      first.unapplied ++ (rest first.value).unapplied⟩

/-- Report one fault and carry on with a value. -/
def refuse (error : ConfigError) (value : α) : Reading α :=
  ⟨value, [error], []⟩

/-- Report faults. -/
def report (errors : List ConfigError) : Reading Unit :=
  ⟨(), errors, []⟩

/-- Record the keys of a mapping that are recognised and not applied. -/
def ignore (paths : List Path) : Reading Unit :=
  ⟨(), [], paths⟩

@[simp]
theorem value_pure (value : α) : (pure value : Reading α).value = value :=
  rfl

@[simp]
theorem errors_pure (value : α) : (pure value : Reading α).errors = [] :=
  rfl

@[simp]
theorem unapplied_pure (value : α) : (pure value : Reading α).unapplied = [] :=
  rfl

@[simp]
theorem value_bind (first : Reading α) (rest : α → Reading β) :
    (first >>= rest).value = (rest first.value).value :=
  rfl

@[simp]
theorem errors_bind (first : Reading α) (rest : α → Reading β) :
    (first >>= rest).errors = first.errors ++ (rest first.value).errors :=
  rfl

@[simp]
theorem unapplied_bind (first : Reading α) (rest : α → Reading β) :
    (first >>= rest).unapplied = first.unapplied ++ (rest first.value).unapplied :=
  rfl

@[simp]
theorem value_refuse (error : ConfigError) (value : α) : (refuse error value).value = value :=
  rfl

@[simp]
theorem errors_refuse (error : ConfigError) (value : α) : (refuse error value).errors = [error] :=
  rfl

@[simp]
theorem unapplied_refuse (error : ConfigError) (value : α) : (refuse error value).unapplied = [] :=
  rfl

@[simp]
theorem errors_report (errors : List ConfigError) : (report errors).errors = errors :=
  rfl

@[simp]
theorem unapplied_report (errors : List ConfigError) : (report errors).unapplied = [] :=
  rfl

@[simp]
theorem errors_ignore (paths : List Path) : (ignore paths).errors = [] :=
  rfl

@[simp]
theorem unapplied_ignore (paths : List Path) : (ignore paths).unapplied = paths :=
  rfl

/-- Two readings are the same when they agree in all three parts. -/
theorem ext_of {first second : Reading α} (value : first.value = second.value)
    (errors : first.errors = second.errors) (unapplied : first.unapplied = second.unapplied) :
    first = second := by
  cases first
  cases second
  simp_all

/-- A reading without a fault, and what it read. -/
def Reads (reading : Reading α) (value : α) : Prop :=
  reading.errors = [] ∧ reading.value = value

@[simp]
theorem reads_pure {found value : α} : (pure found : Reading α).Reads value ↔ found = value := by
  simp [Reads]

@[simp]
theorem reads_refuse {error : ConfigError} {found value : α} :
    (refuse error found).Reads value ↔ False := by
  simp [Reads]

@[simp]
theorem reads_report {errors : List ConfigError} {done : Unit} :
    (report errors).Reads done ↔ errors = [] := by
  simp [Reads]

@[simp]
theorem reads_ignore {paths : List Path} {done : Unit} : (ignore paths).Reads done ↔ True := by
  simp [Reads]

theorem reads_bind {first : Reading α} {rest : α → Reading β} {value : β} :
    (first >>= rest).Reads value ↔ ∃ found, first.Reads found ∧ (rest found).Reads value := by
  simp only [Reads, errors_bind, value_bind, List.append_eq_nil_iff]
  constructor
  · rintro ⟨⟨noFirst, noRest⟩, read⟩
    exact ⟨first.value, ⟨noFirst, rfl⟩, noRest, read⟩
  · rintro ⟨_, ⟨noFirst, rfl⟩, noRest, read⟩
    exact ⟨⟨noFirst, noRest⟩, read⟩

/-! ## Sequences -/

/-- Read the items of a sequence in order.  Each is read beside those read before it, and
one that is too broken to carry on with is left out. -/
def each (read : List α → Nat → Value → Reading (Option α)) :
    List α → Nat → List Value → Reading (List α)
  | held, _, [] => pure held
  | held, index, item :: rest => do
      let found ← read held index item
      each read (held ++ found.toList) (index + 1) rest

variable {read : List α → Nat → Value → Reading (Option α)}

/-- Where no item is left out of an accepted sequence, the items read are those written, in
order, and each was read beside those before it. -/
theorem reads_each (complete : ∀ held index item found,
    (read held index item).Reads found → found.isSome) {held values : List α} {index : Nat}
    {items : List Value} (accepted : (each read held index items).Reads values) :
    values.length = held.length + items.length ∧ held <+: values ∧
      ∀ place item, items[place]? = some item → ∃ found, values[held.length + place]? = some found ∧
        (read (values.take (held.length + place)) (index + place) item).Reads (some found) := by
  induction items generalizing held index with
  | nil =>
      rw [each, reads_pure] at accepted
      subst accepted
      simp
  | cons item rest ih =>
      rw [each, reads_bind] at accepted
      obtain ⟨found, first, others⟩ := accepted
      obtain ⟨found, rfl⟩ := Option.isSome_iff_exists.mp (complete _ _ _ _ first)
      obtain ⟨length, isPrefix, later⟩ := ih others
      have heldPrefix : held <+: values := (List.prefix_append _ _).trans isPrefix
      refine ⟨?_, heldPrefix, ?_⟩
      · rw [length, List.length_append, Option.toList_some, List.length_singleton, List.length_cons]
        omega
      · rintro (_ | place) other isItem
        · obtain rfl : item = other := by simpa using isItem
          refine ⟨found, ?_, ?_⟩
          · obtain ⟨after, rfl⟩ := isPrefix
            simp
          · rw [Nat.add_zero, Nat.add_zero, ← List.prefix_iff_eq_take.mp heldPrefix]
            exact first
        · have isLater : rest[place]? = some other := by simpa using isItem
          have shifted := later place other isLater
          rw [Option.toList_some, List.length_append, List.length_singleton] at shifted
          rwa [Nat.add_assoc, Nat.add_comm 1 place, Nat.add_assoc, Nat.add_comm 1 place] at shifted

/-- Where what is kept of an item is its own, so is what is kept of a sequence. -/
theorem value_each {kept : Value → Option α}
    (own : ∀ held index item, (read held index item).value = kept item) (held : List α)
    (index : Nat) (items : List Value) :
    (each read held index items).value = held ++ items.filterMap kept := by
  induction items generalizing held index with
  | nil => simp [each]
  | cons item rest ih =>
      rw [each, value_bind, ih, own]
      cases isKept : kept item <;> simp [isKept]

/-- What is wrong with a sequence is what is wrong with some item, beside those kept before it. -/
theorem mem_errors_each {kept : Value → Option α}
    (own : ∀ held index item, (read held index item).value = kept item) {error : ConfigError}
    {held : List α} {index : Nat} {items : List Value} :
    error ∈ (each read held index items).errors ↔ ∃ place item, items[place]? = some item ∧
      error ∈ (read (held ++ (items.take place).filterMap kept) (index + place) item).errors := by
  induction items generalizing held index with
  | nil => simp [each]
  | cons first rest ih =>
      have later : ∀ place, held ++ ((first :: rest).take (place + 1)).filterMap kept =
          held ++ (kept first).toList ++ (rest.take place).filterMap kept := by
        intro place
        cases isKept : kept first <;> simp [isKept]
      rw [each, errors_bind, List.mem_append, ih, own]
      constructor
      · rintro (atFirst | ⟨place, item, isItem, reported⟩)
        · exact ⟨0, first, rfl, by simpa using atFirst⟩
        · refine ⟨place + 1, item, isItem, ?_⟩
          rwa [later, Nat.add_comm place, ← Nat.add_assoc]
      · rintro ⟨_ | place, item, isItem, reported⟩
        · cases isItem
          exact .inl (by simpa using reported)
        · refine .inr ⟨place, item, isItem, ?_⟩
          rwa [later, Nat.add_comm place, ← Nat.add_assoc] at reported

/-- A sequence read as its items are read. -/
theorem each_map {transform : Value → Value}
    (same : ∀ held index item, read held index (transform item) = read held index item)
    (held : List α) (index : Nat) (items : List Value) :
    each read held index (items.map transform) = each read held index items := by
  induction items generalizing held index with
  | nil => rfl
  | cons item rest ih =>
      rw [List.map_cons, each, each, same]
      simp only [ih]

end Reading

end SipxClstr.Document
