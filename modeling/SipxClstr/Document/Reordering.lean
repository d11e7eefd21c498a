import SipxClstr.Data.Separated
import SipxClstr.Document.Canonical
import SipxClstr.Registrar.AddressText

/-!
# Trees up to the order of their mappings

Reordering the entries of mappings does not change how a tree is rendered.  Of the trees the formats
write, those that are rendered alike are reorderings of each other: the rendering of a tree is told
from what follows it.
-/

namespace SipxClstr.Document

open SipxClstr.Sip SipxClstr.Data

namespace Value

/-- A tree without tags and floating-point numbers, whose mappings have strings for keys, each
once. -/
inductive IsPlain : Value → Prop where
  | null : IsPlain .null
  | bool (flag : Bool) : IsPlain (.bool flag)
  | posInt (value : UInt64) : IsPlain (.number (.posInt value))
  | negInt (below : Nat) : IsPlain (.number (.negInt below))
  | string (text : Text) : IsPlain (.string text)
  | sequence {items : List Value} (all : ∀ item ∈ items, IsPlain item) : IsPlain (.sequence items)
  | mapping {entries : List (Value × Value)} (named : ∀ entry ∈ entries, ∃ name, entry.1 = .string name)
      (once : (entries.map Prod.fst).Nodup) (all : ∀ entry ∈ entries, IsPlain entry.2) :
      IsPlain (.mapping entries)

/-- One tree is the other with the entries of mappings in another order. -/
inductive Reorders : Value → Value → Prop where
  | refl (value : Value) : Reorders value value
  | trans {first second third : Value} : Reorders first second → Reorders second third →
      Reorders first third
  | item (before after : List Value) {item other : Value} : Reorders item other →
      Reorders (.sequence (before ++ item :: after)) (.sequence (before ++ other :: after))
  | entry (before after : List (Value × Value)) (key : Value) {item other : Value} :
      Reorders item other →
      Reorders (.mapping (before ++ (key, item) :: after)) (.mapping (before ++ (key, other) :: after))
  | mapping {entries others : List (Value × Value)} : entries.Perm others →
      Reorders (.mapping entries) (.mapping others)

end Value

open Value

variable {lib : Libraries}

/-! ## Reorderings are rendered alike -/

/-- One entry of a mapping, rendered. -/
def canonicalEntry (lib : Libraries) (entry : Value × Value) : Text :=
  canonical lib entry.1 ++ ':' :: canonical lib entry.2

theorem canonicalItems_eq_map (items : List Value) :
    canonicalItems lib items = items.map (canonical lib) := by
  induction items with
  | nil => rfl
  | cons item rest ih => rw [canonicalItems, ih, List.map_cons]

theorem canonicalEntries_eq_map (entries : List (Value × Value)) :
    canonicalEntries lib entries = entries.map (canonicalEntry lib) := by
  induction entries with
  | nil => rfl
  | cons entry rest ih => rw [canonicalEntries, ih, List.map_cons, canonicalEntry]

theorem canonical_sequence (items : List Value) :
    canonical lib (.sequence items) =
      '[' :: (separated ',' (canonical lib) items ++ [']']) := by
  rw [canonical, canonicalItems_eq_map, commaJoined, intercalate_eq_separated]

/-- A mapping is rendered as one of its reorderings is written. -/
theorem canonical_mapping (lib : Libraries) (entries : List (Value × Value)) :
    ∃ others, others.Perm entries ∧ canonical lib (.mapping entries) =
      '\x7b' :: (separated ',' (canonicalEntry lib) others ++ ['\x7d']) := by
  rcases exists_perm_of_perm_map (Data.sorted_perm (entries.map (canonicalEntry lib))) with
    ⟨others, perm, same⟩
  refine ⟨others, perm, ?_⟩
  rw [canonical, canonicalEntries_eq_map, commaJoined, same, intercalate_eq_separated]

theorem canonical_eq_of_reorders {value other : Value} (reorders : value.Reorders other) :
    canonical lib value = canonical lib other := by
  induction reorders with
  | refl value => rfl
  | trans _ _ first second => exact first.trans second
  | item before after _ same =>
      simp only [canonical, canonicalItems_eq_map, List.map_append, List.map_cons, same]
  | entry before after key _ same =>
      simp only [canonical, canonicalEntries_eq_map, List.map_append, List.map_cons,
        canonicalEntry, same]
  | mapping perm =>
      simp only [canonical, canonicalEntries_eq_map]
      rw [Data.sorted_eq_of_perm (perm.map _)]

/-! ## Strings -/

/-- The character an escape of two stands for. -/
def unmark : Char → Option Char
  | '0' => some '\x00'
  | 't' => some '\t'
  | 'r' => some '\r'
  | 'n' => some '\n'
  | '"' => some '"'
  | '\\' => some '\\'
  | _ => none

/-- How a character is written in a debug form. -/
theorem escapeDebug_cases (lib : Libraries) (c : Char) :
    escapeDebug lib c = [c] ∧ c ≠ '"' ∧ c ≠ '\\' ∨
      (∃ mark, escapeDebug lib c = ['\\', mark] ∧ unmark mark = some c) ∨
      escapeDebug lib c = '\\' :: 'u' :: '\x7b' :: (Nat.toDigits 16 c.toNat ++ ['\x7d']) := by
  unfold escapeDebug
  split
  · next isC => exact .inr (.inl ⟨_, rfl, by rw [isC]; rfl⟩)
  split
  · next isC => exact .inr (.inl ⟨_, rfl, by rw [isC]; rfl⟩)
  split
  · next isC => exact .inr (.inl ⟨_, rfl, by rw [isC]; rfl⟩)
  split
  · next isC => exact .inr (.inl ⟨_, rfl, by rw [isC]; rfl⟩)
  split
  · next isC => exact .inr (.inl ⟨_, rfl, by rw [isC]; rfl⟩)
  split
  · next isC => exact .inr (.inl ⟨_, rfl, by rw [isC]; rfl⟩)
  next notQuote notSlash =>
  split
  · exact .inl ⟨rfl, notQuote, notSlash⟩
  · exact .inr (.inr rfl)

theorem brace_notMem_hex (value : Nat) : '\x7d' ∉ Nat.toDigits 16 value := by
  intro member
  have isAlphanum := Registrar.isAlphanum_of_mem_toDigits (by decide) (by decide) member
  exact absurd isAlphanum (by decide)

/-- An escape is told from what follows it. -/
theorem escapeDebug_delimits {c other : Char} {rest rest' : Text}
    (same : escapeDebug lib c ++ rest = escapeDebug lib other ++ rest') :
    c = other ∧ rest = rest' := by
  rcases escapeDebug_cases lib c with
    ⟨isC, -, notSlash⟩ | ⟨mark, isC, isMark⟩ | isC <;>
    rcases escapeDebug_cases lib other with
      ⟨isOther, -, notSlash'⟩ | ⟨mark', isOther, isMark'⟩ | isOther <;>
    rw [isC, isOther] at same <;>
    simp only [List.cons_append, List.nil_append, List.cons.injEq, List.append_assoc] at same
  · exact same
  · exact absurd same.1 notSlash
  · exact absurd same.1 notSlash
  · exact absurd same.1.symm notSlash'
  · obtain ⟨-, rfl, sameRest⟩ := same
    exact ⟨Option.some.inj (isMark.symm.trans isMark'), sameRest⟩
  · obtain ⟨-, rfl, -⟩ := same
    exact absurd isMark (by simp [unmark])
  · exact absurd same.1.symm notSlash'
  · obtain ⟨-, rfl, -⟩ := same
    exact absurd isMark' (by simp [unmark])
  · obtain ⟨-, -, -, digits⟩ := same
    obtain ⟨sameDigits, sameRest⟩ := Registrar.append_cons_inj (brace_notMem_hex _)
      (brace_notMem_hex _) digits
    have codes := Registrar.toDigits_injective (by decide) (by decide) sameDigits
    exact ⟨Char.toNat_inj.mp codes, sameRest⟩

theorem escapeDebug_ne_quote (c : Char) (rest rest' : Text) :
    escapeDebug lib c ++ rest ≠ '"' :: rest' := by
  intro same
  rcases escapeDebug_cases lib c with ⟨isC, notQuote, -⟩ | ⟨mark, isC, -⟩ | isC <;>
    rw [isC] at same <;>
    simp only [List.cons_append, List.nil_append, List.cons.injEq] at same
  · exact notQuote same.1
  · exact absurd same.1 (by decide)
  · exact absurd same.1 (by decide)

/-- A string in its debug form is told from what follows it. -/
theorem debugText_delimits {value other : Text} {rest rest' : Text}
    (same : debugText lib value ++ rest = debugText lib other ++ rest') :
    value = other ∧ rest = rest' := by
  simp only [debugText, List.cons_append, List.append_assoc, List.nil_append, List.cons.injEq,
    true_and] at same
  induction value generalizing other with
  | nil =>
      cases other with
      | nil => exact ⟨rfl, (List.cons.inj same).2⟩
      | cons c other =>
          rw [List.flatMap_cons, List.append_assoc] at same
          exact absurd same.symm (escapeDebug_ne_quote c _ _)
  | cons c value ih =>
      cases other with
      | nil =>
          rw [List.flatMap_cons, List.append_assoc] at same
          exact absurd same (escapeDebug_ne_quote c _ _)
      | cons c' other =>
          rw [List.flatMap_cons, List.flatMap_cons, List.append_assoc, List.append_assoc] at same
          obtain ⟨rfl, later⟩ := escapeDebug_delimits same
          obtain ⟨rfl, sameRest⟩ := ih later
          exact ⟨rfl, sameRest⟩

/-! ## Trees that are rendered alike -/

/-- What ends a value inside a sequence or a mapping. -/
def ClosesValue (c : Char) : Prop :=
  c = ',' ∨ c = ']' ∨ c = '\x7d'

theorem not_isDigit_of_closesValue {c : Char} (closes : ClosesValue c) : c.isDigit = false := by
  rcases closes with rfl | rfl | rfl <;> decide

/-- A number is told from what follows it, where that is no digit. -/
theorem decimal_delimits {value other : Nat} {rest rest' : Text} (closes : Closes ClosesValue rest)
    (closes' : Closes ClosesValue rest') (same : decimal value ++ rest = decimal other ++ rest') :
    value = other ∧ rest = rest' := by
  have digits : ∀ {value : Nat} {rest : Text}, Closes ClosesValue rest →
      (decimal value ++ rest).takeWhile Char.isDigit = decimal value := by
    intro value rest closes
    have none : rest.takeWhile Char.isDigit = [] := by
      rcases rest with _ | ⟨c, rest⟩
      · rfl
      · rw [List.takeWhile_cons, not_isDigit_of_closesValue (closes c rfl)]
        rfl
    rw [List.takeWhile_append_of_pos (fun c member => isDigit_of_mem_decimal member), none,
      List.append_nil]
  have sameDigits : decimal value = decimal other := by
    rw [← digits closes, same, digits closes']
  rw [sameDigits] at same
  exact ⟨Registrar.decimal_injective sameDigits, List.append_cancel_left same⟩

/-- The kinds of values, as their renderings begin. -/
inductive Kind where
  | null
  | bool
  | posInt
  | negInt
  | string
  | sequence
  | mapping
  | other

def kindOf : Value → Kind
  | .null => .null
  | .bool _ => .bool
  | .number (.posInt _) => .posInt
  | .number (.negInt _) => .negInt
  | .string _ => .string
  | .sequence _ => .sequence
  | .mapping _ => .mapping
  | _ => .other

/-- The kind of the value whose rendering begins with this. -/
def beginning (c : Char) : Kind :=
  if c = '~' then .null
  else if c = 't' ∨ c = 'f' then .bool
  else if c.isDigit then .posInt
  else if c = '-' then .negInt
  else if c = '"' then .string
  else if c = '[' then .sequence
  else if c = '\x7b' then .mapping
  else .other

theorem beginning_of_isDigit {c : Char} (isDigit : c.isDigit = true) : beginning c = .posInt := by
  have differ : ∀ other, other.isDigit = false → c ≠ other := by
    rintro other notDigit rfl
    rw [notDigit] at isDigit
    contradiction
  rw [beginning, if_neg (differ '~' rfl), if_neg, if_pos isDigit]
  rintro (same | same)
  · exact differ 't' rfl same
  · exact differ 'f' rfl same

/-- A rendering is not empty, and begins as its kind does. -/
theorem canonical_begins (lib : Libraries) {value : Value} (isPlain : value.IsPlain) :
    ∃ c rest, canonical lib value = c :: rest ∧ beginning c = kindOf value := by
  cases isPlain with
  | null => exact ⟨_, _, rfl, rfl⟩
  | bool flag =>
      cases flag
      · exact ⟨'f', ['a', 'l', 's', 'e'], rfl, rfl⟩
      · exact ⟨'t', ['r', 'u', 'e'], rfl, rfl⟩
  | posInt value =>
      cases written : decimal value.toNat with
      | nil => exact absurd written (decimal_ne_nil _)
      | cons c rest =>
          refine ⟨c, rest, written, beginning_of_isDigit ?_⟩
          exact isDigit_of_mem_decimal (written ▸ List.mem_cons_self)
  | negInt below => exact ⟨_, _, rfl, rfl⟩
  | string value => exact ⟨_, _, rfl, rfl⟩
  | sequence all => exact ⟨_, _, rfl, rfl⟩
  | mapping named once all => exact ⟨_, _, rfl, rfl⟩

theorem kindOf_eq {value other : Value} (isPlain : value.IsPlain) (isPlain' : other.IsPlain)
    {rest rest' : Text} (same : canonical lib value ++ rest = canonical lib other ++ rest') :
    kindOf value = kindOf other := by
  rcases canonical_begins lib isPlain with ⟨c, tail, written, begins⟩
  rcases canonical_begins lib isPlain' with ⟨c', tail', written', begins'⟩
  rw [written, written', List.cons_append, List.cons_append] at same
  rw [← begins, ← begins', (List.cons.inj same).1]

/-- A closing symbol begins no value. -/
theorem opens_canonical {value : Value} (isPlain : value.IsPlain) {close : Char}
    (closes : ClosesValue close) : Opens close (canonical lib) value := by
  rcases canonical_begins lib isPlain with ⟨c, rest, written, begins⟩
  refine ⟨c, rest, written, ?_⟩
  rintro rfl
  have noKind : beginning c = .other := by
    rcases closes with rfl | rfl | rfl <;> rfl
  rw [noKind] at begins
  cases isPlain <;> cases begins

/-- Items that reorder each other make sequences that do. -/
theorem reorders_sequence {items others : List Value} (all : List.Forall₂ Reorders items others)
    (before : List Value) :
    Reorders (.sequence (before ++ items)) (.sequence (before ++ others)) := by
  induction all generalizing before with
  | nil => exact .refl _
  | @cons item other items others reorders _ ih =>
      have later := ih (before ++ [other])
      rw [List.append_assoc, List.append_assoc] at later
      exact (Reorders.item before items reorders).trans later

/-- Entries with the same keys whose items reorder each other make mappings that do. -/
theorem reorders_mapping {entries others : List (Value × Value)}
    (all : List.Forall₂ (fun entry other => entry.1 = other.1 ∧ entry.2.Reorders other.2) entries others)
    (before : List (Value × Value)) :
    Reorders (.mapping (before ++ entries)) (.mapping (before ++ others)) := by
  induction all generalizing before with
  | nil => exact .refl _
  | @cons entry other entries others reorders _ ih =>
      rcases entry with ⟨key, item⟩
      rcases other with ⟨key', item'⟩
      obtain ⟨rfl, reorders⟩ := reorders
      have later := ih (before ++ [(key, item')])
      rw [List.append_assoc, List.append_assoc] at later
      exact (Reorders.entry before entries key reorders).trans later

/-- The rendering of a tree is told from what follows it, up to a reordering. -/
theorem canonical_delimits (lib : Libraries) {value : Value} (isPlain : value.IsPlain) {other : Value}
    (isPlain' : other.IsPlain) : Delimited ClosesValue (canonical lib) Reorders value other := by
  induction isPlain generalizing other with
  | null =>
      intro rest rest' _ _ same
      have kinds := kindOf_eq .null isPlain' same
      cases isPlain' <;> cases kinds
      exact ⟨.refl _, (List.cons.inj same).2⟩
  | bool flag =>
      intro rest rest' _ _ same
      have kinds := kindOf_eq (.bool flag) isPlain' same
      cases isPlain' <;> cases kinds
      next flag' =>
      cases flag <;> cases flag'
      · exact ⟨.refl _, List.append_cancel_left same⟩
      · exact absurd (List.cons.inj same).1 (by decide)
      · exact absurd (List.cons.inj same).1 (by decide)
      · exact ⟨.refl _, List.append_cancel_left same⟩
  | posInt number =>
      intro rest rest' closes closes' same
      have kinds := kindOf_eq (.posInt number) isPlain' same
      cases isPlain' <;> cases kinds
      obtain ⟨numbers, sameRest⟩ := decimal_delimits closes closes' same
      rw [UInt64.toNat_inj.mp numbers]
      exact ⟨.refl _, sameRest⟩
  | negInt below =>
      intro rest rest' closes closes' same
      have kinds := kindOf_eq (.negInt below) isPlain' same
      cases isPlain' <;> cases kinds
      obtain ⟨numbers, sameRest⟩ := decimal_delimits closes closes' (List.cons.inj same).2
      rw [Nat.succ.inj numbers]
      exact ⟨.refl _, sameRest⟩
  | string written =>
      intro rest rest' _ _ same
      have kinds := kindOf_eq (.string written) isPlain' same
      cases isPlain' <;> cases kinds
      obtain ⟨rfl, sameRest⟩ := debugText_delimits same
      exact ⟨.refl _, sameRest⟩
  | @sequence items all ih =>
      intro rest rest' _ _ same
      have kinds := kindOf_eq (.sequence all) isPlain' same
      cases isPlain' <;> cases kinds
      next items' all' =>
      rw [canonical_sequence, canonical_sequence] at same
      simp only [List.cons_append, List.append_assoc, List.nil_append, List.cons.injEq,
        true_and] at same
      obtain ⟨areReordered, sameRest⟩ := forall₂_of_separated
        (show ClosesValue ',' from .inl rfl) (.inr (.inl rfl)) (by decide)
        (fun item member => opens_canonical (all item member) (.inr (.inl rfl)))
        (fun item member => opens_canonical (all' item member) (.inr (.inl rfl)))
        (fun item member other member' => ih item member (all' other member')) same
      exact ⟨reorders_sequence areReordered [], sameRest⟩
  | @mapping entries named once all ih =>
      intro rest rest' _ _ same
      have kinds := kindOf_eq (.mapping named once all) isPlain' same
      cases isPlain' <;> cases kinds
      next entries' named' once' all' =>
      rcases canonical_mapping lib entries with ⟨others, perm, written⟩
      rcases canonical_mapping lib entries' with ⟨others', perm', written'⟩
      rw [written, written'] at same
      simp only [List.cons_append, List.append_assoc, List.nil_append, List.cons.injEq,
        true_and] at same
      have opens : ∀ entry : Value × Value, (∃ name, entry.1 = .string name) →
          Opens '\x7d' (canonicalEntry lib) entry := by
        rintro ⟨_, item⟩ ⟨name, rfl⟩
        exact ⟨_, _, rfl, by decide⟩
      have delimited : ∀ entry ∈ others, ∀ other ∈ others', Delimited ClosesValue
          (canonicalEntry lib) (fun entry other => entry.1 = other.1 ∧ entry.2.Reorders other.2)
            entry other := by
        intro entry member other member' rest rest' closes closes' same
        have member := perm.mem_iff.mp member
        have member' := perm'.mem_iff.mp member'
        have reads := ih entry member (all' other member')
        rcases named entry member with ⟨name, isName⟩
        rcases named' other member' with ⟨name', isName'⟩
        simp only [canonicalEntry, isName, isName', canonical, List.append_assoc,
          List.cons_append] at same
        obtain ⟨rfl, later⟩ := debugText_delimits same
        obtain ⟨reorders, sameRest⟩ := reads _ _ closes closes' (List.cons.inj later).2
        exact ⟨⟨isName.trans isName'.symm, reorders⟩, sameRest⟩
      obtain ⟨areReordered, sameRest⟩ := forall₂_of_separated
        (show ClosesValue ',' from .inl rfl) (.inr (.inr rfl)) (by decide)
        (fun entry member => opens entry (named entry (perm.mem_iff.mp member)))
        (fun entry member => opens entry (named' entry (perm'.mem_iff.mp member)))
        delimited same
      refine ⟨?_, sameRest⟩
      exact ((Reorders.mapping perm.symm).trans (reorders_mapping areReordered [])).trans
        (.mapping perm')

/-- Two trees are rendered alike exactly when one is a reordering of the other. -/
theorem canonical_eq_iff {value other : Value} (isPlain : value.IsPlain) (isPlain' : other.IsPlain) :
    canonical lib value = canonical lib other ↔ value.Reorders other := by
  constructor
  · intro same
    have nothing : Closes ClosesValue [] := by
      intro c isFirst
      contradiction
    refine (canonical_delimits lib isPlain isPlain' [] [] nothing nothing ?_).1
    rw [List.append_nil, List.append_nil, same]
  · exact canonical_eq_of_reorders

/-- Two entries, one of which holds a sequence. -/
def twoEntries : List (Value × Value) :=
  [(.string ['a'], .sequence [.null, .string ['b']]), (.string ['b'], .number (.negInt 0))]

theorem isPlain_twoEntries : (Value.mapping twoEntries).IsPlain := by
  apply IsPlain.mapping
  · simp [twoEntries]
  · simp [twoEntries]
  · simp only [twoEntries, List.forall_mem_cons, List.not_mem_nil, false_implies, implies_true,
      and_true]
    refine ⟨.sequence ?_, .negInt 0⟩
    simp only [List.forall_mem_cons, List.not_mem_nil, false_implies, implies_true, and_true]
    exact ⟨.null, .string _⟩

/-- Written in either order, they are rendered alike. -/
theorem canonical_eq_twoEntries :
    canonical ⟨fun _ => .error [], fun _ => .error [], fun _ => [], fun _ => true⟩
        (.mapping twoEntries) =
      canonical ⟨fun _ => .error [], fun _ => .error [], fun _ => [], fun _ => true⟩
        (.mapping twoEntries.reverse) := by
  apply (canonical_eq_iff isPlain_twoEntries _).mpr
  · exact .mapping (List.reverse_perm twoEntries).symm
  · cases isPlain_twoEntries with
    | mapping named once all =>
        apply IsPlain.mapping
        · simpa using named
        · rwa [List.map_reverse, List.nodup_reverse]
        · simpa using all

end SipxClstr.Document
