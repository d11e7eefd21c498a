import SipxClstr.Registrar.CreationOrder
import SipxClstr.Registrar.Lookup
import SipxClstr.Registrar.Matching

/-!
# Distinct contacts

A contact that is added is equivalent to none that is stored, and so is spelled
differently from all of them.  A refresh writes its own spelling over the first
binding it matches, whatever the bindings behind that one are spelled.
-/

namespace SipxClstr.Registrar

open SipxClstr.Sip Reactive Reactive.Machine

variable {K : Kernel}

/-- Whether no binding but the one an operation replaces is spelled as the operation
spells its contact. -/
def keepsApart (R : ContactRules K) (cmd : RegisterCommand K) (state : Reconciliation K)
    (op : ContactOp K) (granted : Nat) : Bool :=
  (replaces R cmd state op granted).all fun (index, _) =>
    (state.view.set.take index ++ state.view.set.drop (index + 1)).all fun other =>
      other.contact ≠ op.verbatim

/-- Every refresh of this request spells the contact of no other binding. -/
def KeepsApart (R : ContactRules K) : BindingSet → Registration K → Prop :=
  AlongRequest R fun cmd state op granted => keepsApart R cmd state op granted = true

instance (R : ContactRules K) (set : BindingSet) (registration : Registration K) :
    Decidable (KeepsApart R set registration) :=
  inferInstanceAs (Decidable (AlongRequest R _ set registration))

/-- No two bindings are spelled the same. -/
def BindingSet.Apart (set : BindingSet) : Prop :=
  (set.map Binding.contact).Nodup

instance (set : BindingSet) : Decidable set.Apart :=
  inferInstanceAs (Decidable (List.Nodup _))

theorem BindingSet.Apart.sublist {set smaller : BindingSet} (apart : set.Apart)
    (sublist : smaller.Sublist set) : smaller.Apart :=
  List.Nodup.sublist (sublist.map Binding.contact) apart

/-- A binding goes in between others, in place of none or of one. -/
theorem BindingSet.apart_middle {before after : BindingSet} {binding : Binding}
    (others : BindingSet.Apart (before ++ after))
    (unlike : ∀ other ∈ before ++ after, other.contact ≠ binding.contact) :
    BindingSet.Apart (before ++ binding :: after) := by
  unfold BindingSet.Apart at others ⊢
  rw [List.map_append, List.map_cons, List.nodup_middle, ← List.map_append, List.nodup_cons]
  refine ⟨?_, others⟩
  rintro spelled
  obtain ⟨other, member, same⟩ := List.mem_map.mp spelled
  exact unlike other member same

/-- A contact that matches no entry is spelled like none. -/
theorem Parsed.unlike_of_absent {R : ContactRules K} {view : Reconciling K} (parsed : Parsed view)
    {op : ContactOp K}
    (absent : ∀ entry ∈ view.entries, entry.isMatch R op.uri = false) :
    ∀ other ∈ view.set, other.contact ≠ op.verbatim := by
  intro other member same
  rw [← view.map_fst_entries] at member
  obtain ⟨entry, entryMember, rfl⟩ := List.mem_map.mp member
  have uri : entry.2.uri = some op.uri := by
    rw [parsed entry entryMember, same, op.spells]
  have isMatch : Entry.isMatch R op.uri entry = true := by
    rw [Entry.isMatch, uri, Option.any_some]
    exact R.equivalent_refl op.uri
  rw [absent entry entryMember] at isMatch
  contradiction

/-- An operation that keeps contacts apart leaves them apart. -/
theorem OpStep.apart {R : ContactRules K} {cmd : RegisterCommand K}
    {state next : Reconciliation K} {op : ContactOp K} {granted : Nat}
    (step : OpStep R cmd state op granted (.ok next)) (parsed : Parsed state.view)
    (apart : state.view.set.Apart) (keeps : keepsApart R cmd state op granted = true) :
    next.view.set.Apart := by
  cases step with
  | ignored _ _ => exact apart
  | retried _ _ _ _ _ _ => exact apart
  | deferred _ _ _ _ _ _ => exact apart
  | added absent _ =>
      change BindingSet.Apart (_ ++ _ :: _)
      apply BindingSet.apart_middle
      · rw [List.take_append_drop]
        exact apart
      · rw [List.take_append_drop]
        exact parsed.unlike_of_absent absent
  | removed before entry after first _ _ =>
      rw [Reconciling.set_eq_of_split first.split] at apart
      rw [Reconciling.set_remove first.split]
      exact apart.sublist ((List.Sublist.refl _).append (List.sublist_cons_self _ _))
  | replaced before entry after first applies positive =>
      rw [keepsApart, replaces_of_firstMatch first applies positive, Option.all_some] at keeps
      simp only [Reconciling.take_set first.split, Reconciling.drop_set first.split,
        List.all_eq_true, decide_eq_true_eq] at keeps
      rw [Reconciling.set_eq_of_split first.split] at apart
      rw [Reconciling.set_replace first.split]
      exact BindingSet.apart_middle
        (apart.sublist ((List.Sublist.refl _).append (List.sublist_cons_self _ _))) keeps

/-- In a history whose refreshes keep contacts apart no two active bindings share a
contact, and no lookup yields one contact twice. -/
theorem apart_of_keepsApart {R : ContactRules K} {history : List (Registration K)}
    (keeps : Along (registrar R) (KeepsApart R) [] history) (now : Timestamp) :
    ((after (registrar R) [] history).active now).Pairwise
        (fun first second => first.contact ≠ second.contact) ∧
      ((orderTargets (after (registrar R) [] history) now).map Target.contact).Nodup := by
  have apart : (after (registrar R) [] history).Apart :=
    registrar_invariant BindingSet.Apart
      (fun state => Parsed state.view ∧ state.view.set.Apart) List.nodup_nil
      (fun _ _ apart => ⟨parsed_new _, apart.sublist List.filter_sublist⟩)
      (fun _ _ _ _ _ holds keeps step => ⟨step.parsed holds.1, step.apart holds.1 holds.2 keeps⟩)
      (fun _ holds => holds.2) keeps
  have activeApart : (((after (registrar R) [] history).active now).map Binding.contact).Nodup :=
    apart.sublist List.filter_sublist
  constructor
  · exact List.pairwise_map.mp activeApart
  · exact (map_contact_orderTargets_perm _ now).nodup_iff.mpr activeApart

section Refreshes

open Reference Sip.Reference

/-- Two tagged contacts, refreshed one after the other by the same device. -/
def refreshedBy (first second : ContactOp kernel) : List (Registration kernel) :=
  [(registerAt 0 "a" 1 (.explicit [opLine1 3600, opLine2 3600]), .default),
    (registerAt 60 "a" 2 (.explicit [first]), .default),
    (registerAt 120 "a" 3 (.explicit [second]), .default)]

theorem apart_own_spellings :
    ((after (registrar rules) [] (refreshedBy (opLine1 3600) (opLine2 3600))).active 0).Pairwise
        (fun first second => first.contact ≠ second.contact) ∧
      ((orderTargets (after (registrar rules) []
        (refreshedBy (opLine1 3600) (opLine2 3600))) 0).map Target.contact).Nodup :=
  apart_of_keepsApart (by decide +kernel) 0

/-- A refresh in the bare spelling goes to the first contact.  The second contact then
goes there too, and is bound twice. -/
theorem not_apart_bare_spelling :
    ¬ ((after (registrar rules) [] (refreshedBy (opBare 3600) (opLine2 3600))).active
        (180 * nanosPerSecond)).Pairwise (fun first second => first.contact ≠ second.contact) ∧
      ¬ ((orderTargets (after (registrar rules) [] (refreshedBy (opBare 3600) (opLine2 3600)))
        (180 * nanosPerSecond)).map Target.contact).Nodup := by
  decide +kernel

end Refreshes

end SipxClstr.Registrar
