import SipxClstr.Document.Members
import SipxClstr.Document.Rules

/-!
# Repetitions

An entry of a list is compared with the entries before it that were kept.  An entry with a fault of
its own may not be kept, and may not come to be compared.
-/

namespace SipxClstr.Document

open SipxClstr.Sip Reading

/-! ## Distinctions -/

/-- What no two entries of a list may both write, and how it is reported. -/
structure Distinction (α : Type) where
  field : String
  rule : String
  /-- What an entry writes, where that is well-typed. -/
  written : Value → Option α
  shown : α → Text
  clashes : α → α → Bool
  /-- Whether an entry is read as far as the comparison. -/
  reaches : Value → Bool
  /-- Whether an entry is kept for those after it. -/
  keeps : Value → Bool
  opening : String
  closing : String

namespace Distinction

variable {α : Type} (kind : Distinction α)

/-- The fault of an entry that repeats what a holder wrote. -/
def fault (here : Path) (value : α) (holder : Text) : ConfigError :=
  .new (here.field (text kind.field)) kind.rule (some (kind.shown value))
    (text kind.opening ++ holder ++ text kind.closing)

def Reported (errors : List ConfigError) (here : Path) (value : α) : Prop :=
  ∃ holder, kind.fault here value holder ∈ errors

/-- One of these entries writes the same. -/
def Repeats (before : List Value) (value : α) : Prop :=
  ∃ other ∈ before, ∃ held, kind.written other = some held ∧ kind.clashes held value = true

/-- Every repetition is reported at the entry that repeats. -/
def ReportsAll (errors : List ConfigError) (path : Path) (items : List Value) : Prop :=
  ∀ place item value, items[place]? = some item → kind.written item = some value →
    kind.Repeats (items.take place) value → kind.Reported errors (path.index place) value

/-- Every repetition is one of an entry that was kept, in an entry that is compared. -/
def Compares (items : List Value) : Prop :=
  ∀ place item value, items[place]? = some item → kind.written item = some value →
    kind.Repeats (items.take place) value →
      kind.reaches item = true ∧ kind.Repeats ((items.take place).filter kind.keeps) value

/-- The repetitions that are reported are those of the entries that were kept, by the entries that
are compared. -/
def Reports (errors : List ConfigError) (path : Path) (items : List Value) : Prop :=
  ∀ place item value, items[place]? = some item → kind.written item = some value →
    (kind.Reported errors (path.index place) value ↔
      kind.reaches item = true ∧ kind.Repeats ((items.take place).filter kind.keeps) value)

variable {kind}

theorem Reports.reportsAll_iff {errors : List ConfigError} {path : Path} {items : List Value}
    (reports : kind.Reports errors path items) :
    kind.ReportsAll errors path items ↔ kind.Compares items := by
  constructor
  · intro all place item value isItem written repeated
    exact (reports place item value isItem written).mp (all place item value isItem written repeated)
  · intro compares place item value isItem written repeated
    exact (reports place item value isItem written).mpr
      (compares place item value isItem written repeated)

/-- Where every entry is kept and compared, so is every repetition. -/
theorem compares_of_forall {items : List Value}
    (complete : ∀ item ∈ items, kind.reaches item = true ∧ kind.keeps item = true) :
    kind.Compares items := by
  intro place item value isItem _ repeated
  have all : (items.take place).filter kind.keeps = items.take place := by
    rw [List.filter_eq_self]
    intro other member
    exact (complete other (List.mem_of_mem_take member)).2
  rw [all]
  exact ⟨(complete item (List.mem_of_getElem? isItem)).1, repeated⟩

/-- What is kept of the entries, where a view of it is what a kept entry writes. -/
theorem repeats_filter_iff {β : Type} {kept : Value → Option β} {view : β → Option α}
    (own : ∀ item held, (kind.keeps item = true ∧ kind.written item = some held) ↔
      ∃ entry, kept item = some entry ∧ view entry = some held) {before : List Value} {value : α} :
    kind.Repeats (before.filter kind.keeps) value ↔
      ∃ entry ∈ before.filterMap kept, ∃ held, view entry = some held ∧
        kind.clashes held value = true := by
  constructor
  · rintro ⟨other, member, held, written, clash⟩
    rcases List.mem_filter.mp member with ⟨isBefore, keeps⟩
    rcases (own other held).mp ⟨keeps, written⟩ with ⟨entry, isKept, isHeld⟩
    exact ⟨entry, List.mem_filterMap.mpr ⟨other, isBefore, isKept⟩, held, isHeld, clash⟩
  · rintro ⟨entry, member, held, isHeld, clash⟩
    rcases List.mem_filterMap.mp member with ⟨other, isBefore, isKept⟩
    rcases (own other held).mpr ⟨entry, isKept, isHeld⟩ with ⟨keeps, written⟩
    exact ⟨other, List.mem_filter.mpr ⟨isBefore, keeps⟩, held, written, clash⟩

/-- An entry is kept, and writes a value, exactly where what is kept of it has that value. -/
theorem viewed_of_kept {β : Type} {kept : Value → Option β} {keeps : Value → Bool}
    {written : Value → Option α} {view : β → Option α}
    (isSome : ∀ {item}, (kept item).isSome = keeps item)
    (same : ∀ item entry, kept item = some entry → written item = view entry) (item : Value)
    (value : α) :
    (keeps item = true ∧ written item = some value) ↔
      ∃ entry, kept item = some entry ∧ view entry = some value := by
  rw [← isSome, Option.isSome_iff_exists]
  constructor
  · rintro ⟨⟨entry, isKept⟩, isWritten⟩
    exact ⟨entry, isKept, (same item entry isKept).symm.trans isWritten⟩
  · rintro ⟨entry, isKept, isView⟩
    exact ⟨⟨entry, isKept⟩, (same item entry isKept).trans isView⟩

/-- A fault is reported exactly where the search among the entries held finds one. -/
theorem exists_fault_iff {β : Type} {held : List β} {test : β → Bool} {named : β → Text}
    {here : Path} {value : α} {errors : List ConfigError}
    (quiet : held.find? test = none → ∀ holder, kind.fault here value holder ∉ errors)
    (said : ∀ other, held.find? test = some other → kind.fault here value (named other) ∈ errors) :
    (∃ holder, kind.fault here value holder ∈ errors) ↔ ∃ other ∈ held, test other = true := by
  rw [← List.find?_isSome]
  cases found : held.find? test with
  | none =>
      constructor
      · rintro ⟨holder, reported⟩
        exact absurd reported (quiet found holder)
      · simp
  | some other =>
      constructor
      · simp
      · rintro -
        exact ⟨named other, said other found⟩

end Distinction

/-! ## Places -/

theorem decimal_inj {first second : Nat} : decimal first = decimal second ↔ first = second := by
  constructor
  · intro same
    rw [← digitsValue_decimal first, same, digitsValue_decimal]
  · rintro rfl
    rfl

namespace Path

variable {path below : Path}

/-- No path is at or below two entries of one list. -/
theorem index_unique {first second : Nat} (isFirst : (path.index first).Covers below)
    (isSecond : (path.index second).Covers below) : first = second := by
  rcases isFirst with ⟨rest, same⟩
  rcases isSecond with ⟨rest', same'⟩
  rw [← same', index, index, List.append_assoc, List.append_assoc, List.append_cancel_left_eq,
    List.cons_append, List.cons_append, List.cons.injEq, List.append_assoc, List.append_assoc] at same
  have closes : ∀ index, ']' ∉ decimal index := by
    intro index member
    exact absurd (isDigit_of_mem_decimal member) (by decide)
  have split := Node.splitOnce_eq_some_iff.mpr ⟨same.2, closes second⟩
  have split' : Node.splitOnce ']' (decimal first ++ ([']'] ++ rest)) = some (decimal first, rest) :=
    Node.splitOnce_eq_some_iff.mpr ⟨rfl, closes first⟩
  exact decimal_inj.mp (Prod.mk.inj (Option.some.inj (split'.symm.trans split))).1

theorem field_inj {key other : Text} : path.field key = path.field other ↔ key = other := by
  constructor
  · intro same
    unfold field at same
    split at same
    · exact congrArg shown same
    · rw [mk.injEq, List.append_cancel_left_eq, List.cons.injEq] at same
      exact same.2
  · rintro rfl
    rfl

/-- One key's path goes on from another's exactly where its spelling does. -/
theorem covers_field_field {key other : Text} :
    (path.field key).Covers (path.field other) ↔ key <+: other := by
  unfold Covers field
  split
  · rfl
  · rw [List.prefix_append_right_inj, List.cons_prefix_cons]
    simp

end Path

/-- A fault at an entry is a fault of that entry, read beside those kept before it. -/
theorem mem_errors_each_at {α : Type} {read : List α → Nat → Value → Reading (Option α)}
    {kept : Value → Option α} {path : Path} {rules : List String}
    (own : ∀ held index item, (read held index item).value = kept item)
    (within : ∀ held index item, Within (path.index index) rules (read held index item).errors)
    {items : List Value} {place : Nat} {item : Value} {error : ConfigError}
    (isItem : items[place]? = some item) (covers : (path.index place).Covers error.path) :
    error ∈ (each read [] 0 items).errors ↔
      error ∈ (read ((items.take place).filterMap kept) place item).errors := by
  rw [mem_errors_each own]
  constructor
  · rintro ⟨other, found, isFound, reported⟩
    rw [Nat.zero_add] at reported
    cases Path.index_unique covers (within _ _ _ error reported).1
    cases isItem.symm.trans isFound
    exact reported
  · intro reported
    refine ⟨place, item, isItem, ?_⟩
    rwa [Nat.zero_add]

/-- What a sequence reports of a distinction, from what each entry does. -/
theorem Distinction.reports_of_each {α β : Type} {kind : Distinction α}
    {read : List β → Nat → Value → Reading (Option β)} {kept : Value → Option β}
    {view : β → Option α} {path : Path} {rules : List String} {items : List Value}
    (own : ∀ held index item, (read held index item).value = kept item)
    (within : ∀ held index item, Within (path.index index) rules (read held index item).errors)
    (viewed : ∀ item held, (kind.keeps item = true ∧ kind.written item = some held) ↔
      ∃ entry, kept item = some entry ∧ view entry = some held)
    (entries : ∀ held place item value, kind.written item = some value →
      (kind.Reported (read held place item).errors (path.index place) value ↔
        kind.reaches item = true ∧ ∃ entry ∈ held, ∃ other, view entry = some other ∧
          kind.clashes other value = true)) :
    kind.Reports (each read [] 0 items).errors path items := by
  intro place item value isItem written
  rw [kind.repeats_filter_iff viewed, ← entries _ _ _ _ written]
  unfold Distinction.Reported
  apply exists_congr
  intro holder
  exact mem_errors_each_at own within isItem (Path.covers_field Path.covers_self)

/-! ## What entries write -/

def writtenUint (max : Nat) (name : String) (item : Value) : Option Nat :=
  (item.asMapping.bind fun map => map.get (text name)).bind (uintOf max)

def writtenName (name : String) (item : Value) : Option Text :=
  (item.asMapping.bind fun map => map.get (text name)).bind strOf

theorem asMapping_of_written {α : Type} {name : String} {item : Value} {typed : Value → Option α} {value : α}
    (written : (item.asMapping.bind fun map => map.get (text name)).bind typed = some value) :
    ∃ map, item.asMapping = some map ∧ (map.get (text name)).bind typed = some value := by
  cases isMapping : item.asMapping with
  | none => simp [isMapping] at written
  | some map =>
      rw [isMapping] at written
      exact ⟨map, rfl, written⟩

section Shared

variable {map : Mapping} {key : Text} {path : Path} {rule : String}

theorem value_requiredStr : (requiredStr map key path rule).value = (map.get key).bind strOf := by
  unfold requiredStr strOf
  cases map.get key with
  | none => rfl
  | some value =>
      dsimp only [Option.bind_some]
      cases value.asStr with
      | none => rfl
      | some name => cases name <;> rfl

theorem value_requiredUint {max : Nat} :
    (requiredUint map key path rule max).value = (map.get key).bind (uintOf max) := by
  unfold requiredUint uintOf
  cases map.get key with
  | none => rfl
  | some value =>
      dsimp only [Option.bind_some]
      cases value.asU64 with
      | none => rfl
      | some number =>
          by_cases fits : number ≤ max
          · simp [fits, Option.filter]
          · simp [fits, Option.filter]

end Shared

/-- The roles of an entry, as far as they are read. -/
def rolesRead (written : Option Value) : Roles :=
  (((written.bind Value.asSequence).getD []).filterMap roleOf).toFinset

theorem value_readRoles {written : Option Value} {path : Path} :
    (readRoles written path).value = rolesRead written := by
  have own : ∀ (held : List Role) index item, (readRole path index item).value = roleOf item := by
    intro held index item
    unfold readRole roleOf
    cases item.asStr.bind Role.parse <;> rfl
  unfold readRoles rolesRead
  cases written with
  | none => rfl
  | some value =>
      dsimp only [Option.bind_some]
      cases value.asSequence with
      | none => rfl
      | some items => rw [value_bind, value_each own, value_pure, List.nil_append, Option.getD_some]

end SipxClstr.Document
