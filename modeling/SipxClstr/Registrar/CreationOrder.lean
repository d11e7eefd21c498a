import SipxClstr.Registrar.History
import SipxClstr.Registrar.Reference

/-!
# Creation order

A set stands in creation order: by when its bindings were created, then by the bytes
of their contacts.  Adding, removing and reaping keep the order; a refresh keeps the
time of creation and may change the bytes.
-/

namespace SipxClstr.Registrar

open SipxClstr.Sip Reactive Reactive.Machine

variable {K : Kernel}

/-- Whether what an operation replaces a binding by stands in order between the
bindings around it. -/
def keepsPlace (R : ContactRules K) (cmd : RegisterCommand K) (state : Reconciliation K)
    (op : ContactOp K) (granted : Nat) : Bool :=
  (replaces R cmd state op granted).all fun (index, stored) =>
    let key := (bindingFor op cmd granted stored.registeredAt).creationKey
    (state.view.set.take index).all (fun earlier => earlier.creationKey ≤ key) &&
      (state.view.set.drop (index + 1)).all fun later => key ≤ later.creationKey

/-- Every refresh of this request keeps the place of the binding it goes to. -/
def KeepsPlaces (R : ContactRules K) : BindingSet → Registration K → Prop :=
  AlongRequest R fun cmd state op granted => keepsPlace R cmd state op granted = true

instance (R : ContactRules K) (set : BindingSet) (registration : Registration K) :
    Decidable (KeepsPlaces R set registration) :=
  inferInstanceAs (Decidable (AlongRequest R _ set registration))

/-- A binding changed between its neighbours keeps the order when it stands in order
with them. -/
theorem inCreationOrder_replace {before after : BindingSet} {old new : Binding}
    (ordered : BindingSet.InCreationOrder (before ++ old :: after))
    (low : ∀ earlier ∈ before, earlier.creationKey ≤ new.creationKey)
    (high : ∀ later ∈ after, new.creationKey ≤ later.creationKey) :
    BindingSet.InCreationOrder (before ++ new :: after) := by
  obtain ⟨beforeOrdered, restOrdered, across⟩ := List.pairwise_append.mp ordered
  obtain ⟨-, afterOrdered⟩ := List.pairwise_cons.mp restOrdered
  apply List.pairwise_append.mpr
  refine ⟨beforeOrdered, List.pairwise_cons.mpr ⟨high, afterOrdered⟩, ?_⟩
  intro earlier member other otherMember
  rcases List.mem_cons.mp otherMember with rfl | later
  · exact low earlier member
  · exact across earlier member other (List.mem_cons_of_mem _ later)

/-- An operation that keeps places keeps creation order. -/
theorem OpStep.inCreationOrder {R : ContactRules K} {cmd : RegisterCommand K}
    {state next : Reconciliation K} {op : ContactOp K} {granted : Nat}
    (step : OpStep R cmd state op granted (.ok next)) (ordered : state.view.set.InCreationOrder)
    (keeps : keepsPlace R cmd state op granted = true) : next.view.set.InCreationOrder := by
  cases step with
  | ignored _ _ => exact ordered
  | added _ _ => exact ordered.insertAt _
  | retried _ _ _ _ _ _ => exact ordered
  | deferred _ _ _ _ _ _ => exact ordered
  | removed before entry after first _ _ =>
      rw [Reconciling.set_eq_of_split first.split] at ordered
      rw [Reconciling.set_remove first.split]
      exact ordered.sublist ((List.Sublist.refl _).append (List.sublist_cons_self _ _))
  | replaced before entry after first applies positive =>
      rw [keepsPlace, replaces_of_firstMatch first applies positive, Option.all_some] at keeps
      simp only [Reconciling.take_set first.split, Reconciling.drop_set first.split,
        Bool.and_eq_true, List.all_eq_true, decide_eq_true_eq] at keeps
      rw [Reconciling.set_eq_of_split first.split] at ordered
      rw [Reconciling.set_replace first.split]
      exact inCreationOrder_replace ordered keeps.1 keeps.2

/-- In a history whose refreshes keep their places the set stands in creation order. -/
theorem inCreationOrder_of_keepsPlaces {R : ContactRules K} {history : List (Registration K)}
    (keeps : Along (registrar R) (KeepsPlaces R) [] history) :
    (after (registrar R) [] history).InCreationOrder :=
  registrar_invariant BindingSet.InCreationOrder (fun state => state.view.set.InCreationOrder)
    List.Pairwise.nil (fun _ now ordered => ordered.dropExpired now)
    (fun _ _ _ _ _ ordered keeps step => step.inCreationOrder ordered keeps)
    (fun _ ordered => ordered) keeps

section Refreshes

open Reference Sip.Reference

/-- A contact on another host. -/
def opOther (expires : Nat) : ContactOp kernel :=
  Reference.contactOp "sip:x@g" (uri "sip:x@g") (by decide +kernel) expires

/-- The bare contact with its host in upper case. -/
def opShout (expires : Nat) : ContactOp kernel :=
  Reference.contactOp "sip:x@H" (uri "sip:x@H") (by decide +kernel) expires

/-- Two contacts are bound by one REGISTER, and the second one is refreshed. -/
def refreshedAs (op : ContactOp kernel) : List (Registration kernel) :=
  [(registerAt 0 "a" 1 (.explicit [opOther 3600, opBare 3600]), .default),
    (registerAt 60 "a" 2 (.explicit [op]), .default)]

theorem inCreationOrder_same_spelling :
    (after (registrar rules) [] (refreshedAs (opBare 3600))).InCreationOrder :=
  inCreationOrder_of_keepsPlaces (by decide +kernel)

/-- A refresh in another spelling of the host leaves the set out of order. -/
theorem not_inCreationOrder_other_spelling :
    ¬ (after (registrar rules) [] (refreshedAs (opShout 3600))).InCreationOrder := by
  decide +kernel

end Refreshes

end SipxClstr.Registrar
