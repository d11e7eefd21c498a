import SipxClstr.Registrar.Frame

/-!
# The plain semantics of a request

The rules for several contacts in one REGISTER, as a walk over a bare list of bindings.
Nothing is parsed ahead: every stored contact is parsed again at every step.  A binding has
a name for the length of the request, and the walk writes down what each operation resolved
to, so that what the request asks of a binding in the end is read off when it is over.
-/

namespace SipxClstr.Registrar

open SipxClstr.Sip

variable {K : Kernel} (R : ContactRules K)

namespace Plain

/-- A binding, as the walk holds it. -/
structure Held where
  name : Nat
  binding : Binding
  /-- Whether this request wrote it. -/
  written : Bool

/-- What an operation resolved to, and the lifetime it was granted. -/
structure Resolution where
  name : Nat
  granted : Nat
  /-- The binding, where the operation presents its spent token again and is left unapplied. -/
  spent : Option Binding

structure Walk where
  held : List Held
  /-- How many bindings were given a name. -/
  named : Nat
  resolved : List Resolution
  mutated : Bool

def Walk.start (set : List Binding) : Walk where
  held := set.mapIdx fun name binding => ⟨name, binding, false⟩
  named := set.length
  resolved := []
  mutated := false

def Held.isMatch (uri : K.Uri) (item : Held) : Bool :=
  (K.parseUri item.binding.contact).any fun stored => R.equivalent stored uri

/-- The token of this binding is this request's or a newer one, and not of this request's
making. -/
def Held.Holds (cmd : RegisterCommand K) (item : Held) : Prop :=
  item.written = false ∧ item.binding.callId = cmd.callId ∧ cmd.cseq ≤ item.binding.cseq

instance (cmd : RegisterCommand K) (item : Held) : Decidable (item.Holds cmd) :=
  inferInstanceAs (Decidable (_ ∧ _))

/-- B1: the binding takes its place in creation order. -/
def Walk.add (walk : Walk) (binding : Binding) : Walk where
  held :=
    let place := BindingSet.position R (walk.held.map Held.binding) binding
    walk.held.take place ++ ⟨walk.named, binding, true⟩ :: walk.held.drop place
  named := walk.named + 1
  resolved := walk.resolved
  mutated := true

/-- B2, B3 and B7: the binding is removed, or replaced under its name. -/
def Walk.apply (cmd : RegisterCommand K) (walk : Walk) (place : Nat) (item : Held)
    (op : ContactOp K) (granted : Nat) : Walk where
  held :=
    if granted = 0 then walk.held.eraseIdx place
    else walk.held.set place
      ⟨item.name, bindingFor op cmd granted item.binding.registeredAt, true⟩
  named := walk.named
  resolved := walk.resolved ++ [⟨item.name, granted, none⟩]
  mutated := true

/-- One operation, against the bindings as the ones before it left them; nothing where the
matched binding carries a newer token. -/
def step (cmd : RegisterCommand K) (walk : Walk) (op : ContactOp K) (granted : Nat) : Option Walk :=
  match walk.held.findIdx? (Held.isMatch R op.uri) with
  | none => some (if granted = 0 then walk else walk.add R (bindingFor op cmd granted cmd.now))
  | some place =>
      match walk.held[place]? with
      | none => some walk
      | some item =>
          if item.Holds cmd then
            if cmd.cseq < item.binding.cseq then
              none
            else
              some { walk with
                resolved := walk.resolved ++ [⟨item.name, granted, some item.binding⟩] }
          else
            some (walk.apply cmd place item op granted)

/-- The operations in their order. -/
def steps (cmd : RegisterCommand K) : Walk → List (ContactOp K × Nat) → Option Walk
  | walk, [] => some walk
  | walk, (op, granted) :: rest => (step R cmd walk op granted).bind fun next => steps cmd next rest

/-- What the last operation that resolved to this binding was granted. -/
def asked (name : Nat) (resolved : List Resolution) : Option Nat :=
  (resolved.filter fun resolution => resolution.name = name).getLast?.map Resolution.granted

/-- B8: an operation was left unapplied, and the binding does not hold what the request asks
of it. -/
def unmet (cmd : RegisterCommand K) (resolved : List Resolution) : Bool :=
  resolved.any fun resolution => resolution.spent.any fun stored =>
    (asked resolution.name resolved).any fun net => !alreadyHolds stored cmd net

/-- Explicit `Contact` values, by B1 to B9. -/
def explicit (cmd : RegisterCommand K) (current : BindingSet) (policy : TenantPolicy)
    (ops : List (ContactOp K)) : Outcome :=
  if ops = [] then
    .noop (describe current cmd.now)
  else
    match grantedExpiries cmd policy ops with
    | .error rejection => .reject rejection
    | .ok grants =>
        match steps R cmd (.start (current.active cmd.now)) (ops.zip grants) with
        | none => .reject .staleSequence
        | some walk =>
            let set := walk.held.map Held.binding
            if unmet cmd walk.resolved then
              .reject .staleSequence
            else if policy.maxBindingsPerAor < BindingSet.activeCount set cmd.now then
              .reject
                (.forbidden (text "the address-of-record already holds its maximum bindings"))
            -- B9: what is committed differs from what was read.
            else if walk.mutated = true ∧ (current.active cmd.now ≠ current ∨ set ≠ current) then
              .commit set (describe set cmd.now)
            else
              .noop (describe set cmd.now)

/-! ## Names and resolutions -/

section Asked

variable {name granted : Nat} {resolved : List Resolution} {resolution : Resolution}

theorem asked_concat (resolved : List Resolution) (resolution : Resolution) :
    asked resolution.name (resolved ++ [resolution]) = some resolution.granted := by
  simp [asked, List.filter_append]

theorem asked_concat_of_ne (differs : resolution.name ≠ name) :
    asked name (resolved ++ [resolution]) = asked name resolved := by
  simp [asked, List.filter_append, differs]

end Asked

/-! ## The walk follows the reconciliation -/

variable {R}

def Held.of (entry : Entry K) : Held :=
  ⟨entry.2.id, entry.1, entry.2.writtenHere⟩

/-- The walk holds what the reconciliation's view holds, under the names of its slots, and
has written down what its deferred decisions wait for. -/
structure Follows (cmd : RegisterCommand K) (state : Reconciliation K) (walk : Walk) : Prop where
  held : walk.held = state.view.entries.map Held.of
  named : walk.named = state.view.nextId
  mutated : walk.mutated = state.changed
  parsed : Parsed state.view
  distinct : Named state.view
  /-- What was left unapplied stands as it was. -/
  spent : ∀ resolution ∈ walk.resolved, ∀ stored, resolution.spent = some stored →
    ∃ entry ∈ state.view.entries, entry.2.id = resolution.name ∧ entry.1 = stored ∧
      Retries cmd entry
  /-- A deferred decision is one of these, re-based on what is asked. -/
  pending : ∀ deferred ∈ state.pending, asked deferred.slot walk.resolved = some deferred.net ∧
    ∃ resolution ∈ walk.resolved, resolution.name = deferred.slot ∧
      resolution.spent = some deferred.stored
  /-- What was left unapplied is met, or its decision is deferred. -/
  decided : ∀ resolution ∈ walk.resolved, ∀ stored, resolution.spent = some stored →
    (∃ net, asked resolution.name walk.resolved = some net ∧ alreadyHolds stored cmd net = true) ∨
      ∃ deferred ∈ state.pending, deferred.slot = resolution.name ∧ deferred.stored = stored

/-- The walk refuses with the reconciliation, or follows it. -/
def Agrees (cmd : RegisterCommand K) : Except Rejection (Reconciliation K) → Option Walk → Prop
  | .error rejection, walked => rejection = .staleSequence ∧ walked = none
  | .ok state, walked => ∃ walk, walked = some walk ∧ Follows cmd state walk

section Step

variable {cmd : RegisterCommand K} {state : Reconciliation K} {walk : Walk} {op : ContactOp K}
  {granted : Nat} {before after : List (Entry K)} {entry : Entry K}

theorem Follows.bindings (follows : Follows cmd state walk) :
    walk.held.map Held.binding = state.view.set := by
  rw [follows.held, List.map_map, ← state.view.map_fst_entries]
  rfl

/-- An entry matches as it does when its contact is parsed again. -/
theorem isMatch_of (parsed : Parsed state.view) {uri : K.Uri} (member : entry ∈ state.view.entries) :
    Held.isMatch R uri (Held.of entry) = Entry.isMatch R uri entry := by
  rw [Entry.isMatch, parsed entry member]
  rfl

theorem Follows.findIdx?_eq_none (follows : Follows cmd state walk) {uri : K.Uri}
    (absent : ∀ entry ∈ state.view.entries, Entry.isMatch R uri entry = false) :
    walk.held.findIdx? (Held.isMatch R uri) = none := by
  rw [List.findIdx?_eq_none_iff, follows.held]
  intro item member
  rcases List.mem_map.mp member with ⟨entry, isEntry, rfl⟩
  rw [isMatch_of follows.parsed isEntry]
  exact absent entry isEntry

theorem Follows.findIdx?_eq (follows : Follows cmd state walk) {uri : K.Uri}
    (first : FirstMatch R uri state.view.entries before entry after) :
    walk.held.findIdx? (Held.isMatch R uri) = some before.length := by
  have earlier : (before.map Held.of).findIdx? (Held.isMatch R uri) = none := by
    rw [List.findIdx?_eq_none_iff]
    intro item member
    rcases List.mem_map.mp member with ⟨other, isOther, rfl⟩
    rw [isMatch_of follows.parsed (by rw [first.split]; exact List.mem_append_left _ isOther)]
    exact first.earlier other isOther
  have isMatch : Held.isMatch R uri (Held.of entry) = true := by
    rw [isMatch_of follows.parsed first.mem]
    exact first.isMatch
  rw [follows.held, first.split, List.map_append, List.map_cons, List.findIdx?_append, earlier,
    List.findIdx?_cons, isMatch]
  simp

theorem Follows.getElem?_eq (follows : Follows cmd state walk)
    (split : state.view.entries = before ++ entry :: after) :
    walk.held[before.length]? = some (Held.of entry) := by
  rw [follows.held, split, List.map_append, List.map_cons, List.getElem?_append_right (by simp)]
  simp

/-- A binding whose token the request presents again is one it neither retries nor may not. -/
theorem holds_of_iff : (Held.of entry).Holds cmd ↔ ¬ Applies cmd entry := by
  simp only [Held.Holds, Held.of, Applies, not_or, Bool.not_eq_true, not_not, not_lt]

theorem holds_of_retries (retries : Retries cmd entry) : (Held.of entry).Holds cmd := by
  apply holds_of_iff.mpr
  intro applies
  exact applies.not_retries retries

theorem not_older_of_retries (retries : Retries cmd entry) :
    ¬ cmd.cseq < (Held.of entry).binding.cseq :=
  Nat.not_lt_of_ge (Nat.le_of_eq retries.2.2)

/-- Re-basing keeps the deferred decisions, with what is asked of them now. -/
theorem mem_rebase (slot granted : Nat) {deferred : Pending} {pending : List Pending}
    (member : deferred ∈ pending) :
    ∃ rebased ∈ rebase slot granted pending,
      rebased.slot = deferred.slot ∧ rebased.stored = deferred.stored := by
  refine ⟨_, List.mem_map_of_mem member, ?_, ?_⟩ <;> split <;> rfl

theorem Follows.pending_rebase (follows : Follows cmd state walk) (resolution : Resolution) :
    ∀ deferred ∈ rebase resolution.name resolution.granted state.pending,
      asked deferred.slot (walk.resolved ++ [resolution]) = some deferred.net ∧
        ∃ other ∈ walk.resolved ++ [resolution], other.name = deferred.slot ∧
          other.spent = some deferred.stored := by
  intro deferred member
  rcases List.mem_map.mp member with ⟨earlier, isEarlier, rfl⟩
  rcases follows.pending earlier isEarlier with ⟨net, other, isOther, name, spent⟩
  by_cases same : earlier.slot = resolution.name
  · rw [if_pos same]
    constructor
    · change asked earlier.slot _ = _
      rw [same]
      exact asked_concat _ _
    · exact ⟨other, List.mem_append_left _ isOther, name, spent⟩
  · rw [if_neg same]
    constructor
    · rw [asked_concat_of_ne (Ne.symm same)]
      exact net
    · exact ⟨other, List.mem_append_left _ isOther, name, spent⟩

/-- What was left unapplied of another binding stays met or deferred. -/
theorem Follows.decided_of_ne (follows : Follows cmd state walk) (resolution : Resolution)
    {other : Resolution}
    (member : other ∈ walk.resolved) (differs : resolution.name ≠ other.name) {stored : Binding}
    (spent : other.spent = some stored) :
    (∃ net, asked other.name (walk.resolved ++ [resolution]) = some net ∧
        alreadyHolds stored cmd net = true) ∨
      ∃ deferred ∈ rebase resolution.name resolution.granted state.pending,
        deferred.slot = other.name ∧ deferred.stored = stored := by
  rw [asked_concat_of_ne differs]
  rcases follows.decided other member stored spent with met | ⟨deferred, isDeferred, name, found⟩
  · exact .inl met
  · right
    rcases mem_rebase resolution.name resolution.granted isDeferred with
      ⟨rebased, isRebased, sameSlot, sameStored⟩
    exact ⟨rebased, isRebased, sameSlot.trans name, sameStored.trans found⟩

/-- An operation that applies resolves to no binding of which something was left unapplied. -/
theorem Follows.ne_of_applies (follows : Follows cmd state walk) (applies : Applies cmd entry)
    (isEntry : entry ∈ state.view.entries) {other : Resolution} (member : other ∈ walk.resolved)
    {stored : Binding} (spent : other.spent = some stored) : entry.2.id ≠ other.name := by
  intro same
  rcases follows.spent other member stored spent with ⟨found, isFound, name, -, retries⟩
  have identical := follows.distinct.entry_eq isEntry isFound (same.trans name.symm)
  rw [identical] at applies
  exact applies.not_retries retries

/-- An operation that presents a spent token again. -/
theorem Follows.retry (follows : Follows cmd state walk) (isEntry : entry ∈ state.view.entries)
    (retries : Retries cmd entry) {pending : List Pending}
    (rebased : ∀ deferred ∈ rebase entry.2.id granted state.pending, deferred ∈ pending)
    (origin : ∀ deferred ∈ pending, deferred ∈ rebase entry.2.id granted state.pending ∨
      deferred = ⟨entry.2.id, entry.1, granted⟩)
    (settled : alreadyHolds entry.1 cmd granted = true ∨ ⟨entry.2.id, entry.1, granted⟩ ∈ pending) :
    Follows cmd ⟨state.view, state.changed, pending⟩
      { walk with resolved := walk.resolved ++ [⟨entry.2.id, granted, some entry.1⟩] } := by
  refine ⟨follows.held, follows.named, follows.mutated, follows.parsed, follows.distinct, ?_, ?_,
    ?_⟩
  · intro resolution member stored spent
    rcases List.mem_append.mp member with earlier | last
    · exact follows.spent resolution earlier stored spent
    · rw [List.mem_singleton] at last
      rw [last] at spent ⊢
      exact ⟨entry, isEntry, rfl, Option.some.inj spent, retries⟩
  · intro deferred member
    rcases origin deferred member with earlier | rfl
    · exact follows.pending_rebase ⟨entry.2.id, granted, some entry.1⟩ deferred earlier
    · constructor
      · exact asked_concat _ ⟨entry.2.id, granted, some entry.1⟩
      · exact ⟨_, List.mem_append_right _ (List.mem_singleton.mpr rfl), rfl, rfl⟩
  · -- What is asked of this binding now is this operation's grant.
    have ofEntry : (∃ net, asked entry.2.id
          (walk.resolved ++ [⟨entry.2.id, granted, some entry.1⟩]) = some net ∧
            alreadyHolds entry.1 cmd net = true) ∨
        ∃ deferred ∈ pending, deferred.slot = entry.2.id ∧ deferred.stored = entry.1 := by
      rcases settled with holds | isDeferred
      · exact .inl ⟨granted, asked_concat _ ⟨entry.2.id, granted, some entry.1⟩, holds⟩
      · exact .inr ⟨_, isDeferred, rfl, rfl⟩
    intro resolution member stored spent
    rcases List.mem_append.mp member with earlier | last
    · by_cases same : entry.2.id = resolution.name
      · rcases follows.spent resolution earlier stored spent with ⟨found, isFound, name, rfl, -⟩
        have identical := follows.distinct.entry_eq isEntry isFound (same.trans name.symm)
        rw [← same, ← identical]
        exact ofEntry
      · rcases follows.decided_of_ne ⟨entry.2.id, granted, some entry.1⟩ earlier
          same spent with met | ⟨deferred, isDeferred, found⟩
        · exact .inl met
        · exact .inr ⟨deferred, rebased deferred isDeferred, found⟩
    · rw [List.mem_singleton] at last
      rw [last] at spent ⊢
      obtain rfl := Option.some.inj spent
      exact ofEntry

/-- An operation that applies, once the entries are what the walk holds. -/
theorem Follows.apply (follows : Follows cmd state walk) (isEntry : entry ∈ state.view.entries)
    (applies : Applies cmd entry) {view : Reconciling K} {next : Walk}
    (held : next.held = view.entries.map Held.of) (named : next.named = view.nextId)
    (mutated : next.mutated = true)
    (resolved : next.resolved = walk.resolved ++ [⟨entry.2.id, granted, none⟩])
    (parsed : Parsed view) (distinct : Named view)
    (stand : ∀ other ∈ state.view.entries, other ≠ entry → other ∈ view.entries) :
    Follows cmd ⟨view, true, rebase entry.2.id granted state.pending⟩ next := by
  refine ⟨held, named, mutated, parsed, distinct, ?_, ?_, ?_⟩
  · intro resolution member stored spent
    rw [resolved] at member
    rcases List.mem_append.mp member with earlier | last
    · rcases follows.spent resolution earlier stored spent with ⟨found, isFound, name, holds, retries⟩
      refine ⟨found, stand found isFound ?_, name, holds, retries⟩
      intro same
      rw [same] at retries
      exact applies.not_retries retries
    · rw [List.mem_singleton] at last
      rw [last] at spent
      contradiction
  · rw [resolved]
    exact follows.pending_rebase ⟨entry.2.id, granted, none⟩
  · intro resolution member stored spent
    rw [resolved] at member ⊢
    rcases List.mem_append.mp member with earlier | last
    · exact follows.decided_of_ne ⟨entry.2.id, granted, none⟩ earlier
        (follows.ne_of_applies applies isEntry earlier spent) spent
    · rw [List.mem_singleton] at last
      rw [last] at spent
      contradiction

/-- A new binding is nothing an operation resolved to before. -/
theorem Follows.add (follows : Follows cmd state walk) (binding : Binding)
    {uri : K.Uri} (parsed : Parsed (state.view.insert R binding uri))
    (distinct : Named (state.view.insert R binding uri)) :
    Follows cmd ⟨state.view.insert R binding uri, true, state.pending⟩ (walk.add R binding) := by
  refine ⟨?_, ?_, rfl, parsed, distinct, ?_, follows.pending, follows.decided⟩
  · rw [Reconciling.entries_insert, List.map_append, List.map_cons, List.map_take, List.map_drop,
      ← follows.held, ← follows.bindings]
    unfold Walk.add
    simp only [Held.of, follows.named]
  · exact congrArg (· + 1) follows.named
  · intro resolution member stored spent
    rcases follows.spent resolution member stored spent with ⟨found, isFound, holds⟩
    refine ⟨found, ?_, holds⟩
    rw [Reconciling.entries_insert]
    rw [← List.take_append_drop (state.view.set.position R binding) state.view.entries] at isFound
    rcases List.mem_append.mp isFound with before | behind
    · exact List.mem_append_left _ before
    · exact List.mem_append_right _ (List.mem_cons_of_mem _ behind)

/-- The walk refuses an operation exactly when the reconciliation does, and follows it
otherwise. -/
theorem Follows.step (follows : Follows cmd state walk)
    {outcome : Except Rejection (Reconciliation K)} (taken : OpStep R cmd state op granted outcome) :
    Agrees cmd outcome (Plain.step R cmd walk op granted) := by
  unfold Plain.step
  cases taken with
  | ignored absent removal =>
      rw [follows.findIdx?_eq_none absent]
      exact ⟨walk, by rw [if_pos removal], follows⟩
  | added absent positive =>
      rw [follows.findIdx?_eq_none absent]
      refine ⟨_, by rw [if_neg positive], follows.add _ ?_ ?_⟩
      · exact (OpStep.added absent positive).parsed follows.parsed
      · exact (OpStep.added absent positive).named follows.distinct
  | stale before entry after first unwritten sameCall older =>
      rw [follows.findIdx?_eq first]
      simp only [follows.getElem?_eq first.split]
      have holds : (Held.of entry).Holds cmd := ⟨unwritten, sameCall, Nat.le_of_lt older⟩
      have newer : cmd.cseq < (Held.of entry).binding.cseq := older
      rw [if_pos holds, if_pos newer]
      exact ⟨rfl, rfl⟩
  | retried before entry after first retries holds =>
      rw [follows.findIdx?_eq first]
      simp only [follows.getElem?_eq first.split]
      rw [if_pos (holds_of_retries retries), if_neg (not_older_of_retries retries)]
      refine ⟨_, rfl, follows.retry first.mem retries (fun _ => id) (fun _ => .inl) (.inl holds)⟩
  | deferred before entry after first retries differs =>
      rw [follows.findIdx?_eq first]
      simp only [follows.getElem?_eq first.split]
      rw [if_pos (holds_of_retries retries), if_neg (not_older_of_retries retries)]
      refine ⟨_, rfl, follows.retry first.mem retries (fun _ => List.mem_append_left _) ?_
        (.inr (List.mem_append_right _ (List.mem_singleton.mpr rfl)))⟩
      intro deferred member
      exact (List.mem_append.mp member).imp_right List.mem_singleton.mp
  | removed before entry after first applies removal =>
      have taken := OpStep.removed before entry after first applies removal
      rw [follows.findIdx?_eq first]
      simp only [follows.getElem?_eq first.split]
      rw [if_neg (not_not_intro applies ∘ holds_of_iff.mp)]
      refine ⟨_, rfl, follows.apply first.mem applies ?_ ?_ rfl rfl (taken.parsed follows.parsed)
        (taken.named follows.distinct) ?_⟩
      · have lengths : (before.map Held.of).length = before.length := List.length_map _
        simp only [Walk.apply, removal, if_true]
        rw [Reconciling.entries_remove first.split, follows.held, first.split, List.map_append,
          List.map_cons, ← lengths, List.eraseIdx_append_of_length_le (Nat.le_refl _), Nat.sub_self,
          List.eraseIdx_cons_zero, List.map_append]
      · rw [Reconciling.nextId_remove]
        exact follows.named
      · intro other member differs
        rw [Reconciling.entries_remove first.split]
        rw [first.split] at member
        rcases List.mem_append.mp member with earlier | rest
        · exact List.mem_append_left _ earlier
        · exact List.mem_append_right _ ((List.mem_cons.mp rest).resolve_left differs)
  | replaced before entry after first applies positive =>
      have taken := OpStep.replaced before entry after first applies positive
      rw [follows.findIdx?_eq first]
      simp only [follows.getElem?_eq first.split]
      rw [if_neg (not_not_intro applies ∘ holds_of_iff.mp)]
      refine ⟨_, rfl, follows.apply first.mem applies ?_ ?_ rfl rfl (taken.parsed follows.parsed)
        (taken.named follows.distinct) ?_⟩
      · have lengths : (before.map Held.of).length = before.length := List.length_map _
        simp only [Walk.apply, positive, if_false]
        rw [Reconciling.entries_replace first.split, follows.held, first.split, List.map_append,
          List.map_cons, ← lengths, List.set_append_right _ _ (Nat.le_refl _), Nat.sub_self,
          List.set_cons_zero, List.map_append, List.map_cons]
        rfl
      · rw [Reconciling.nextId_replace]
        exact follows.named
      · intro other member differs
        rw [Reconciling.entries_replace first.split]
        rw [first.split] at member
        rcases List.mem_append.mp member with earlier | rest
        · exact List.mem_append_left _ earlier
        · apply List.mem_append_right
          exact List.mem_cons_of_mem _ ((List.mem_cons.mp rest).resolve_left differs)

end Step

theorem follows_start (cmd : RegisterCommand K) (set : BindingSet) :
    Follows cmd (.start set) (.start set) := by
  refine ⟨?_, rfl, rfl, parsed_new set, named_new set, ?_, ?_, ?_⟩
  · change set.mapIdx _ = (Reconciling.new set : Reconciling K).entries.map Held.of
    rw [Reconciling.entries_new]
    apply List.ext_getElem
    · simp
    · intro index _ _
      simp [Held.of]
  · intro resolution member
    contradiction
  · intro deferred member
    contradiction
  · intro resolution member
    contradiction

/-- The walk over the operations follows the reconciliation to its end. -/
theorem Follows.steps (R : ContactRules K) {cmd : RegisterCommand K} {state : Reconciliation K} {walk : Walk}
    (follows : Follows cmd state walk) (requests : List (OpRequest K)) :
    Agrees cmd (reconcile R cmd state requests) (Plain.steps R cmd walk requests) := by
  induction requests generalizing state walk with
  | nil => exact ⟨walk, rfl, follows⟩
  | cons request rest ih =>
      rcases request with ⟨op, granted⟩
      have followed := follows.step (applyOp_step R cmd state op granted)
      unfold reconcile Plain.steps
      cases outcome : applyOp R cmd state op granted with
      | error rejection =>
          rw [outcome] at followed
          rcases followed with ⟨stale, refused⟩
          rw [refused]
          exact ⟨stale, rfl⟩
      | ok next =>
          rw [outcome] at followed
          rcases followed with ⟨behind, stepped, follows⟩
          rw [stepped]
          exact ih follows

/-- What the deferred decisions come to is what is unmet. -/
theorem Follows.unmet_eq {cmd : RegisterCommand K} {state : Reconciliation K} {walk : Walk}
    (follows : Follows cmd state walk) :
    unmet cmd walk.resolved =
      state.pending.any fun deferred => !alreadyHolds deferred.stored cmd deferred.net := by
  rw [Bool.eq_iff_iff]
  simp only [unmet, List.any_eq_true, Option.any_eq_true, Bool.not_eq_true']
  constructor
  · rintro ⟨resolution, member, stored, spent, net, isAsked, differs⟩
    rcases follows.decided resolution member stored spent with
      ⟨other, otherAsked, holds⟩ | ⟨deferred, isDeferred, name, rfl⟩
    · rw [isAsked, Option.some.injEq] at otherAsked
      rw [← otherAsked, differs] at holds
      contradiction
    · have now := (follows.pending deferred isDeferred).1
      rw [name, isAsked, Option.some.injEq] at now
      rw [now] at differs
      exact ⟨deferred, isDeferred, differs⟩
  · rintro ⟨deferred, member, differs⟩
    rcases follows.pending deferred member with ⟨net, resolution, isResolution, name, spent⟩
    rw [← name] at net
    exact ⟨resolution, isResolution, deferred.stored, spent, deferred.net, net, differs⟩

/-- Something was reaped when what is live is not what was read. -/
theorem reaped_iff (current : BindingSet) (now : Timestamp) :
    (current.dropExpired now).length ≠ current.length ↔ current.active now ≠ current := by
  unfold BindingSet.dropExpired BindingSet.active
  rw [not_iff_not, List.length_filter_eq_length_iff, List.filter_eq_self]

theorem explicit_eq (cmd : RegisterCommand K) (current : BindingSet) (policy : TenantPolicy)
    (ops : List (ContactOp K)) :
    Registrar.explicit R cmd current policy ops = Plain.explicit R cmd current policy ops := by
  unfold Registrar.explicit Plain.explicit
  by_cases empty : ops = []
  · rw [if_pos empty, if_pos (List.isEmpty_iff.mpr empty)]
  rw [if_neg empty, if_neg (by rwa [List.isEmpty_iff])]
  cases grantedExpiries cmd policy ops with
  | error rejection => rfl
  | ok grants =>
      have followed := (follows_start cmd (current.dropExpired cmd.now)).steps R
        (ops.zip grants)
      simp only
      change _ = match Plain.steps R cmd (.start (current.dropExpired cmd.now)) _ with
        | none => _
        | some walk => _
      cases reconciled : reconcile R cmd (.start (current.dropExpired cmd.now)) (ops.zip grants) with
      | error rejection =>
          rw [reconciled] at followed
          rcases followed with ⟨rfl, refused⟩
          rw [refused]
      | ok state =>
          rw [reconciled] at followed
          rcases followed with ⟨walk, walked, follows⟩
          simp only [walked]
          rw [follows.bindings, follows.unmet_eq, follows.mutated]
          simp only [Bool.and_eq_true, Bool.or_eq_true, decide_eq_true_eq, reaped_iff]

end Plain

/-- The reconciliation of explicit contacts is the walk over a bare list of bindings, for
every command, binding set and policy.  Behind any operations the slots stand beside the
bindings they describe, under names that are theirs alone and that the walk carries with the
bindings, and an insert lands within them. -/
theorem explicit_plain (R : ContactRules K) :
    (∀ cmd current policy ops, explicit R cmd current policy ops =
      Plain.explicit R cmd current policy ops) ∧
    ∀ cmd set requests state, reconcile R cmd (.start set) requests = .ok state →
      state.view.slots.length = state.view.set.length ∧
      (∀ (index : Nat) (slot : Slot K) (binding : Binding), state.view.slots[index]? = some slot →
        state.view.set[index]? = some binding → slot.uri = K.parseUri binding.contact) ∧
      (state.view.slots.map Slot.id).Nodup ∧
      (∀ binding, (state.view.set.insertAt R binding).2 ≤ state.view.slots.length) ∧
      ∃ walk, Plain.steps R cmd (.start set) requests = some walk ∧
        walk.held = (state.view.set.zip state.view.slots).map fun entry =>
          ⟨entry.2.id, entry.1, entry.2.writtenHere⟩ := by
  refine ⟨Plain.explicit_eq, ?_⟩
  intro cmd set requests state reconciled
  have followed := (Plain.follows_start cmd set).steps R requests
  rw [reconciled] at followed
  rcases followed with ⟨walk, walked, follows⟩
  refine ⟨state.view.aligned, ?_, ?_, ?_, walk, walked, follows.held⟩
  · intro index slot binding isSlot isBinding
    apply follows.parsed (binding, slot)
    have stands : state.view.entries[index]? = some (binding, slot) := by
      rw [Reconciling.entries, List.getElem?_zip_eq_some]
      exact ⟨isBinding, isSlot⟩
    exact List.mem_of_getElem? stands
  · have names := follows.distinct.distinct
    rw [← state.view.map_snd_entries, List.map_map]
    exact names
  · intro binding
    rw [state.view.aligned]
    exact BindingSet.position_le state.view.set binding

end SipxClstr.Registrar
