import SipxClstr.Registrar.Reconcile
import Mathlib.Data.List.Nodup

/-!
# What the operations of a request match

Which entries a contact matches while the operations of a request are applied one
after another.  Equivalence of URIs is not transitive; where the operations tell the
contacts they meet apart, an operation changes what the operations equivalent to it
match and nothing else.
-/

namespace SipxClstr.Registrar

open SipxClstr.Sip

variable {K : Kernel}

/-- Every entry behind an operation stood before it, or was written by it. -/
theorem OpStep.origin {R : ContactRules K} {cmd : RegisterCommand K}
    {state next : Reconciliation K} {op : ContactOp K} {granted : Nat}
    (step : OpStep R cmd state op granted (.ok next)) {entry : Entry K}
    (member : entry ∈ next.view.entries) :
    entry ∈ state.view.entries ∨
      (∃ registeredAt, entry.1 = bindingFor op cmd granted registeredAt) ∧
        entry.2.uri = some op.uri ∧ entry.2.writtenHere = true := by
  cases step with
  | ignored _ _ => exact .inl member
  | retried _ _ _ _ _ _ => exact .inl member
  | deferred _ _ _ _ _ _ => exact .inl member
  | added _ _ =>
      rw [Reconciling.entries_insert] at member
      rcases List.mem_append.mp member with before | rest
      · exact .inl (List.mem_of_mem_take before)
      rcases List.mem_cons.mp rest with rfl | after
      · exact .inr ⟨⟨_, rfl⟩, rfl, rfl⟩
      · exact .inl (List.mem_of_mem_drop after)
  | removed before gone after first _ _ =>
      left
      rw [Reconciling.entries_remove first.split] at member
      rw [first.split]
      exact List.mem_append.mpr ((List.mem_append.mp member).imp_right (List.mem_cons_of_mem gone))
  | replaced before old after first _ _ =>
      rw [Reconciling.entries_replace first.split] at member
      rw [first.split]
      rcases List.mem_append.mp member with earlier | rest
      · exact .inl (List.mem_append_left _ earlier)
      rcases List.mem_cons.mp rest with rfl | later
      · exact .inr ⟨⟨_, rfl⟩, rfl, rfl⟩
      · exact .inl (List.mem_append_right _ (List.mem_cons_of_mem _ later))

theorem OpStep.mem_entries {R : ContactRules K} {cmd : RegisterCommand K}
    {state next : Reconciliation K} {op : ContactOp K} {granted : Nat}
    (step : OpStep R cmd state op granted (.ok next)) {entry : Entry K}
    (member : entry ∈ next.view.entries) :
    entry ∈ state.view.entries ∨
      entry.1.contact = op.verbatim ∧ entry.2.uri = some op.uri ∧ entry.2.writtenHere = true := by
  rcases step.origin member with stood | ⟨⟨registeredAt, written⟩, uri, here⟩
  · exact .inl stood
  · exact .inr ⟨congrArg Binding.contact written, uri, here⟩

/-! ## What slots hold -/

/-- Each slot holds what its binding's contact parses to. -/
def Parsed (view : Reconciling K) : Prop :=
  ∀ entry ∈ view.entries, entry.2.uri = K.parseUri entry.1.contact

theorem parsed_new (set : BindingSet) : Parsed (Reconciling.new set : Reconciling K) := by
  intro entry member
  rw [Reconciling.entries_new] at member
  obtain ⟨index, bound, rfl⟩ := List.mem_mapIdx.mp member
  rfl

theorem OpStep.parsed {R : ContactRules K} {cmd : RegisterCommand K}
    {state next : Reconciliation K} {op : ContactOp K} {granted : Nat}
    (step : OpStep R cmd state op granted (.ok next)) (parsed : Parsed state.view) :
    Parsed next.view := by
  intro entry member
  rcases step.mem_entries member with stood | ⟨contact, uri, -⟩
  · exact parsed entry stood
  · rw [contact, uri, op.spells]

/-- The ids of the slots are distinct, and behind the next one. -/
structure Named (view : Reconciling K) : Prop where
  distinct : (view.entries.map fun entry => entry.2.id).Nodup
  used : ∀ entry ∈ view.entries, entry.2.id < view.nextId

theorem Named.entry_eq {view : Reconciling K} (named : Named view) {first second : Entry K}
    (firstMember : first ∈ view.entries) (secondMember : second ∈ view.entries)
    (same : first.2.id = second.2.id) : first = second :=
  List.inj_on_of_nodup_map named.distinct firstMember secondMember same

theorem named_new (set : BindingSet) : Named (Reconciling.new set : Reconciling K) := by
  constructor
  · have ids : ((Reconciling.new set : Reconciling K).entries.map fun entry => entry.2.id) =
        List.range set.length := by
      rw [Reconciling.entries_new]
      apply List.ext_getElem
      · simp
      · intro index _ _
        simp
    rw [ids]
    exact List.nodup_range
  · intro entry member
    rw [Reconciling.entries_new] at member
    obtain ⟨index, bound, rfl⟩ := List.mem_mapIdx.mp member
    exact bound

theorem OpStep.named {R : ContactRules K} {cmd : RegisterCommand K}
    {state next : Reconciliation K} {op : ContactOp K} {granted : Nat}
    (step : OpStep R cmd state op granted (.ok next)) (named : Named state.view) :
    Named next.view := by
  obtain ⟨distinct, used⟩ := named
  cases step with
  | ignored _ _ => exact ⟨distinct, used⟩
  | retried _ _ _ _ _ _ => exact ⟨distinct, used⟩
  | deferred _ _ _ _ _ _ => exact ⟨distinct, used⟩
  | added _ _ =>
      constructor
      · rw [Reconciling.entries_insert, List.map_append, List.map_cons, List.nodup_middle,
          ← List.map_append, List.take_append_drop, List.nodup_cons]
        refine ⟨?_, distinct⟩
        intro taken
        obtain ⟨entry, member, same⟩ := List.mem_map.mp taken
        exact Nat.ne_of_lt (used entry member) same
      · intro entry member
        rw [Reconciling.entries_insert] at member
        change entry.2.id < state.view.nextId + 1
        rcases List.mem_append.mp member with before | rest
        · exact Nat.lt_succ_of_lt (used entry (List.mem_of_mem_take before))
        rcases List.mem_cons.mp rest with rfl | after
        · exact Nat.lt_succ_self _
        · exact Nat.lt_succ_of_lt (used entry (List.mem_of_mem_drop after))
  | removed before gone after first _ _ =>
      rw [first.split] at distinct used
      constructor
      · rw [Reconciling.entries_remove first.split]
        exact distinct.sublist
          (((List.Sublist.refl _).append (List.sublist_cons_self _ _)).map _)
      · intro entry member
        rw [Reconciling.entries_remove first.split] at member
        rw [Reconciling.nextId_remove]
        exact used entry (List.mem_append.mpr
          ((List.mem_append.mp member).imp_right (List.mem_cons_of_mem gone)))
  | replaced before old after first _ _ =>
      rw [first.split] at distinct used
      constructor
      · rw [Reconciling.entries_replace first.split]
        simpa only [List.map_append, List.map_cons] using distinct
      · intro entry member
        rw [Reconciling.entries_replace first.split] at member
        rw [Reconciling.nextId_replace]
        rcases List.mem_append.mp member with earlier | rest
        · exact used entry (List.mem_append_left _ earlier)
        rcases List.mem_cons.mp rest with rfl | later
        · exact used old (List.mem_append_right _ List.mem_cons_self)
        · exact used entry (List.mem_append_right _ (List.mem_cons_of_mem _ later))

/-! ## Which entries a contact matches -/

/-- An element that a filter drops leaves no trace. -/
theorem filter_middle {α : Type*} {predicate : α → Bool} {before after : List α} {middle : α}
    (drops : predicate middle = false) :
    (before ++ middle :: after).filter predicate =
      before.filter predicate ++ after.filter predicate := by
  rw [List.filter_append, List.filter_cons_of_neg (ne_true_of_eq_false drops)]

/-- The entries a URI matches, in creation order. -/
def held (R : ContactRules K) (uri : K.Uri) (view : Reconciling K) : List (Entry K) :=
  view.entries.filter (Entry.isMatch R uri)

/-- Whatever an operation matches matches the operations that are equivalent to that
one, and no other. -/
def Unambiguous (R : ContactRules K) (known ops : List K.Uri) : Prop :=
  ∀ uri ∈ known, ∀ first ∈ ops, ∀ second ∈ ops, R.equivalent uri first = true →
    R.equivalent uri second = R.equivalent first second

/-- The contacts of the entries are among these. -/
def Known (known : List K.Uri) (view : Reconciling K) : Prop :=
  ∀ entry ∈ view.entries, ∀ uri, entry.2.uri = some uri → uri ∈ known

theorem OpStep.known {R : ContactRules K} {cmd : RegisterCommand K}
    {state next : Reconciliation K} {op : ContactOp K} {granted : Nat} {uris : List K.Uri}
    (step : OpStep R cmd state op granted (.ok next)) (known : Known uris state.view)
    (member : op.uri ∈ uris) : Known uris next.view := by
  intro entry entryMember uri holds
  rcases step.mem_entries entryMember with stood | ⟨-, written, -⟩
  · exact known entry stood uri holds
  · rw [written, Option.some.injEq] at holds
    rwa [← holds]

section Held

variable {R : ContactRules K} {known ops : List K.Uri} {view : Reconciling K}
  {before after : List (Entry K)} {entry : Entry K} {uri other : K.Uri}

/-- What matches one operation matches another exactly if the two are equivalent. -/
theorem Unambiguous.isMatch_eq (unambiguous : Unambiguous R known ops) (within : Known known view)
    (uriOp : uri ∈ ops) (otherOp : other ∈ ops) (member : entry ∈ view.entries)
    (isMatch : Entry.isMatch R uri entry = true) :
    Entry.isMatch R other entry = R.equivalent uri other := by
  unfold Entry.isMatch at isMatch ⊢
  cases stored : entry.2.uri with
  | none =>
      rw [stored, Option.any_none] at isMatch
      contradiction
  | some contact =>
      rw [stored, Option.any_some] at isMatch
      rw [Option.any_some]
      exact unambiguous contact (within entry member contact stored) uri uriOp other otherOp isMatch

/-- Equivalent operations match the same entries. -/
theorem Unambiguous.held_eq (unambiguous : Unambiguous R known ops) (within : Known known view)
    (uriOp : uri ∈ ops) (otherOp : other ∈ ops) (equivalent : R.equivalent uri other = true) :
    held R uri view = held R other view := by
  apply List.filter_congr
  intro entry member
  cases first : Entry.isMatch R uri entry with
  | true => rw [unambiguous.isMatch_eq within uriOp otherOp member first, equivalent]
  | false =>
      cases second : Entry.isMatch R other entry with
      | false => rfl
      | true =>
          have back := unambiguous.isMatch_eq within otherOp uriOp member second
          rw [first, R.equivalent_symm _ _ equivalent] at back
          contradiction

theorem held_eq_nil_iff :
    held R uri view = [] ↔ ∀ entry ∈ view.entries, entry.isMatch R uri = false := by
  simp only [held, List.filter_eq_nil_iff, Bool.not_eq_true]

/-- The first match is the first of the matches. -/
theorem FirstMatch.held_eq (first : FirstMatch R uri view.entries before entry after) :
    held R uri view = entry :: after.filter (Entry.isMatch R uri) := by
  have noneEarlier : before.filter (Entry.isMatch R uri) = [] := by
    simpa only [List.filter_eq_nil_iff, Bool.not_eq_true] using first.earlier
  rw [held, first.split, List.filter_append, noneEarlier, List.nil_append,
    List.filter_cons_of_pos first.isMatch]

theorem FirstMatch.mem (first : FirstMatch R uri view.entries before entry after) :
    entry ∈ view.entries := by
  rw [first.split]
  exact List.mem_append_right _ List.mem_cons_self

/-- A change of entries that do not match leaves the matches. -/
theorem held_insert_of_not_match {binding : Binding} {contact : K.Uri}
    (differs : R.equivalent contact uri = false) :
    held R uri (view.insert R binding contact) = held R uri view := by
  rw [held, Reconciling.entries_insert, List.filter_append, List.filter_cons_of_neg,
    ← List.filter_append, List.take_append_drop, held]
  simpa only [Entry.isMatch, Option.any_some, Bool.not_eq_true] using differs

theorem held_insert_of_match (binding : Binding) {contact : K.Uri}
    (equivalent : R.equivalent contact uri = true) (empty : held R uri view = []) :
    held R uri (view.insert R binding contact) =
      [(binding, ⟨view.nextId, some contact, true⟩)] := by
  rw [held, ← List.take_append_drop (view.set.position R binding) view.entries, List.filter_append,
    List.append_eq_nil_iff] at empty
  rw [held, Reconciling.entries_insert, List.filter_append, List.filter_cons_of_pos, empty.1,
    empty.2, List.nil_append]
  simpa only [Entry.isMatch, Option.any_some] using equivalent

theorem held_remove_of_not_match (split : view.entries = before ++ entry :: after)
    (differs : Entry.isMatch R uri entry = false) :
    held R uri (view.remove before.length) = held R uri view := by
  rw [held, held, Reconciling.entries_remove split, split, List.filter_append, List.filter_append,
    List.filter_cons_of_neg (by simpa only [Bool.not_eq_true] using differs)]

theorem held_remove_of_first (first : FirstMatch R uri view.entries before entry after) :
    held R uri (view.remove before.length) = after.filter (Entry.isMatch R uri) := by
  have noneEarlier : before.filter (Entry.isMatch R uri) = [] := by
    simpa only [List.filter_eq_nil_iff, Bool.not_eq_true] using first.earlier
  rw [held, Reconciling.entries_remove first.split, List.filter_append, noneEarlier,
    List.nil_append]

theorem held_replace_of_not_match {binding : Binding} {contact : K.Uri}
    (split : view.entries = before ++ entry :: after)
    (differs : Entry.isMatch R uri entry = false) (newDiffers : R.equivalent contact uri = false) :
    held R uri (view.replace before.length binding contact) = held R uri view := by
  have newUnmatched : Entry.isMatch R uri
      (binding, { entry.2 with uri := some contact, writtenHere := true }) = false := newDiffers
  rw [held, held, Reconciling.entries_replace split, split, List.filter_append, List.filter_append,
    List.filter_cons_of_neg (ne_true_of_eq_false newUnmatched),
    List.filter_cons_of_neg (ne_true_of_eq_false differs)]

theorem held_replace_of_first (binding : Binding) {contact : K.Uri}
    (first : FirstMatch R uri view.entries before entry after)
    (equivalent : R.equivalent contact uri = true) :
    held R uri (view.replace before.length binding contact) =
      (binding, { entry.2 with uri := some contact, writtenHere := true }) ::
        after.filter (Entry.isMatch R uri) := by
  have noneEarlier : before.filter (Entry.isMatch R uri) = [] := by
    simpa only [List.filter_eq_nil_iff, Bool.not_eq_true] using first.earlier
  rw [held, Reconciling.entries_replace first.split, List.filter_append, noneEarlier,
    List.nil_append, List.filter_cons_of_pos]
  simpa only [Entry.isMatch, Option.any_some] using equivalent

/-- An operation leaves what the operations that are not equivalent to it match. -/
theorem OpStep.held_eq {cmd : RegisterCommand K} {state next : Reconciliation K}
    {op : ContactOp K} {granted : Nat} (step : OpStep R cmd state op granted (.ok next))
    (unambiguous : Unambiguous R known ops) (within : Known known state.view) (isOp : op.uri ∈ ops)
    (otherOp : other ∈ ops) (differs : R.equivalent op.uri other = false) :
    held R other next.view = held R other state.view := by
  have unmatched : ∀ {before entry after},
      FirstMatch R op.uri state.view.entries before entry after →
        Entry.isMatch R other entry = false := by
    intro before entry after first
    rw [unambiguous.isMatch_eq within isOp otherOp first.mem first.isMatch, differs]
  cases step with
  | ignored _ _ => rfl
  | retried _ _ _ _ _ _ => rfl
  | deferred _ _ _ _ _ _ => rfl
  | added _ _ => exact held_insert_of_not_match differs
  | removed before entry after first _ _ =>
      exact held_remove_of_not_match first.split (unmatched first)
  | replaced before entry after first _ _ =>
      exact held_replace_of_not_match first.split (unmatched first) differs

end Held

end SipxClstr.Registrar
