import SipxClstr.Node.Register
import SipxClstr.Node.Ringing
import SipxClstr.Registrar.Delivery
import SipxClstr.Registrar.Drivers
import SipxClstr.Registrar.Matching
import SipxClstr.Registrar.Soundness

/-!
# Whose a binding is

REGISTERs are answered by tasks of their own: each is admitted under the lock of the node's
authenticator, and what was admitted is applied to the store, where the steps of the tasks
interleave.  Every binding that is ever in the store was written by a command whose request was
let in, for the principal that the binding names, and that the policy grants the address-of-record.
-/

namespace SipxClstr.Node

open SipxClstr.Sip SipxClstr.Registrar Reactive Reactive.Machine

universe u

variable {K : Kernel}

/-! ## What a commit writes -/

/-- A command writes a binding for one of its contacts. -/
def Writes (cmd : RegisterCommand K) (binding : Binding) : Prop :=
  ∃ ops op granted registeredAt, cmd.contacts = .explicit ops ∧ op ∈ ops ∧
    binding = bindingFor op cmd granted registeredAt

theorem Writes.principal {cmd : RegisterCommand K} {binding : Binding}
    (writes : Writes cmd binding) : binding.principal = cmd.principal := by
  obtain ⟨ops, op, granted, registeredAt, -, -, rfl⟩ := writes
  rfl

/-- A binding of a committed set was there, or the command writes it. -/
theorem writes_of_commit {R : ContactRules K} {cmd : RegisterCommand K} {current set : BindingSet}
    {policy : TenantPolicy} {response : Accepted}
    (committed : process R cmd current policy = .commit set response) {binding : Binding}
    (member : binding ∈ set) : binding ∈ current ∨ Writes cmd binding := by
  rcases process_commit committed with
    ⟨-, rfl⟩ | ⟨ops, grants, state, isExplicit, -, reconciled, rfl, -, -⟩
  · contradiction
  · rw [← state.view.map_fst_entries] at member
    obtain ⟨entry, isEntry, rfl⟩ := List.mem_map.mp member
    refine reconcile_prefix_induction
      (fun _ state => ∀ entry ∈ state.view.entries, entry.1 ∈ current ∨ Writes cmd entry.1)
      ?_ ?_ reconciled.reconciled entry isEntry
    · intro past op granted state next request sources step entry member
      rcases step.origin member with stood | ⟨⟨registeredAt, written⟩, -, -⟩
      · exact sources entry stood
      · exact .inr ⟨ops, op, granted, registeredAt, isExplicit, (List.of_mem_zip request).1, written⟩
    · intro entry member
      left
      have stands : entry.1 ∈ current.dropExpired cmd.now := by
        have mapped := List.mem_map_of_mem (f := Prod.fst) member
        rwa [Reconciling.map_fst_entries] at mapped
      exact (List.mem_filter.mp stands).1

/-! ## What a request says of its command -/

section Requests

variable {P : UriParts K} {parseList : Bytes → Option (List (ContactAddress K))}
  {D : DigestKernel K.Uri}

/-- What an edge hands over stands in the command, beside what the request says itself. -/
theorem handed_of_command {request : Request K.Uri} {edge : EdgeContext} {principal : Option Bytes}
    {policy : RegistrationPolicy} {now : Timestamp} {cmd : RegisterCommand K}
    (built : command P parseList request edge principal policy now = .ok cmd) :
    cmd.received = edge.received ∧ cmd.now = now ∧
      contactOps parseList request = .ok cmd.contacts := by
  unfold command at built
  obtain ⟨callId, -, built⟩ := bind_eq_ok.mp built
  obtain ⟨cseq, -, built⟩ := bind_eq_ok.mp built
  obtain ⟨value, -, built⟩ := bind_eq_ok.mp built
  obtain ⟨address, -, built⟩ := bind_eq_ok.mp built
  obtain ⟨aor, -, built⟩ := bind_eq_ok.mp built
  split at built
  · contradiction
  obtain ⟨authority, -, built⟩ := bind_eq_ok.mp built
  split at built
  · contradiction
  obtain ⟨contacts, isContacts, built⟩ := bind_eq_ok.mp built
  cases built
  exact ⟨rfl, rfl, isContacts⟩

/-- The contact is one that a row of the request spells. -/
def SpelledContact (parseList : Bytes → Option (List (ContactAddress K))) (request : Request K.Uri)
    (contact : Bytes) : Prop :=
  ∃ header ∈ Headers.getAll request.headers contactHeader, ∃ addresses,
    parseList header.value = some addresses ∧
      ∃ address ∈ addresses, contact = K.uriBytes address.uri

theorem verbatim_contactOp {address : ContactAddress K} {op : ContactOp K}
    (made : contactOp address = .ok op) : op.verbatim = K.uriBytes address.uri := by
  unfold contactOp at made
  simp only at made
  split at made
  all_goals
    obtain ⟨q, -, made⟩ := bind_eq_ok.mp made
    cases made
    rfl

theorem exists_of_mem_mapM {ε α β : Type} {act : α → Except ε β} {items : List α} :
    ∀ {results : List β}, items.mapM act = .ok results → ∀ result ∈ results,
      ∃ item ∈ items, act item = .ok result := by
  induction items with
  | nil =>
      intro results made result member
      rw [List.mapM_nil] at made
      cases made
      contradiction
  | cons item rest ih =>
      intro results made result member
      rw [List.mapM_cons] at made
      obtain ⟨first, isFirst, made⟩ := bind_eq_ok.mp made
      obtain ⟨later, others, made⟩ := bind_eq_ok.mp made
      cases made
      rcases List.mem_cons.mp member with rfl | isLater
      · exact ⟨item, List.mem_cons_self, isFirst⟩
      · obtain ⟨other, among, isOther⟩ := ih others result isLater
        exact ⟨other, List.mem_cons_of_mem _ among, isOther⟩

theorem exists_of_mem_explicitOps : ∀ {values : List Bytes} {ops : List (ContactOp K)},
    explicitOps parseList values = .ok ops → ∀ op ∈ ops, ∃ value ∈ values, ∃ addresses,
      parseList value = some addresses ∧ ∃ address ∈ addresses, contactOp address = .ok op := by
  intro values
  induction values with
  | nil =>
      intro ops read op member
      cases read
      contradiction
  | cons value rest ih =>
      intro ops read op member
      rw [explicitOps] at read
      obtain ⟨addresses, isList, read⟩ := bind_eq_ok.mp read
      obtain ⟨here, made, read⟩ := bind_eq_ok.mp read
      obtain ⟨later, others, read⟩ := bind_eq_ok.mp read
      cases read
      rcases List.mem_append.mp member with isHere | isLater
      · obtain ⟨address, among, isOp⟩ := exists_of_mem_mapM made op isHere
        exact ⟨value, List.mem_cons_self, addresses, okOr_eq_ok.mp isList, address, among, isOp⟩
      · obtain ⟨other, among, found⟩ := ih others op isLater
        exact ⟨other, List.mem_cons_of_mem _ among, found⟩

theorem spelled_of_contactOps {request : Request K.Uri} {ops : List (ContactOp K)}
    (read : contactOps parseList request = .ok (.explicit ops)) {op : ContactOp K} (member : op ∈ ops) :
    SpelledContact parseList request op.verbatim := by
  unfold contactOps at read
  simp only at read
  split at read
  · split at read
    · contradiction
    · cases read
  · cases explicit : explicitOps parseList
        ((Headers.getAll request.headers contactHeader).map Header.value) with
    | error rejection =>
        rw [explicit] at read
        contradiction
    | ok found =>
        rw [explicit] at read
        cases read
        obtain ⟨value, isValue, addresses, isList, address, among, made⟩ :=
          exists_of_mem_explicitOps explicit op member
        obtain ⟨header, isHeader, rfl⟩ := List.mem_map.mp isValue
        exact ⟨header, isHeader, addresses, isList, address, among, verbatim_contactOp made⟩

end Requests

/-! ## The node -/

section Node

variable {D : DigestKernel K.Uri} {ι : Type u}

/-- Where the task of a REGISTER stands. -/
inductive Registering (K : Kernel) where
  | arrived
  /-- Challenged or rejected: nothing reaches the store. -/
  | turnedAway
  | applying (cmd : RegisterCommand K) (phase : Phase)

/-- What a task that was admitted goes on with. -/
def Registering.ofAdmission : Admission K → Registering K
  | .command cmd => .applying cmd (.reading 0)
  | .challenge _ => .turnedAway
  | .reject _ => .turnedAway

/-- The authenticator, the store, and where each task stands. -/
structure RegistrarNode (D : DigestKernel K.Uri) (ι : Type u) where
  auth : TenantAuth D
  store : InMemoryStore
  task : ι → Registering K

def RegistrarNode.start (auth : TenantAuth D) : RegistrarNode D ι :=
  ⟨auth, .new, fun _ => .arrived⟩

/-- What an admitted command is applied as. -/
def Edge.applies (edge : Edge) (cmd : RegisterCommand K) : Task K :=
  ⟨cmd, edge.policy, defaultCasRetries⟩

variable (P : UriParts K) (parseList : Bytes → Option (List (ContactAddress K)))
  (R : ContactRules K) (edge : Edge) (arrival : ι → Incoming K.Uri) (now : ι → Timestamp)

/-- A step of one task: its admission, which holds the lock of the authenticator, or what it does
next on the store, which does not. -/
def registerStep (call : ι) (auth : TenantAuth D) (store : InMemoryStore) :
    Registering K → TenantAuth D × InMemoryStore × Registering K
  | .arrived =>
      let admitted := admission P parseList edge (arrival call) auth (now call)
      (admitted.1, store, .ofAdmission admitted.2.1)
  | .turnedAway => (auth, store, .turnedAway)
  | .applying cmd phase =>
      let stepped := advance R InMemoryStore.locationStore (edge.applies cmd) store phase
      (auth, stepped.1, .applying cmd stepped.2.1)

/-- The tasks of a node that answers REGISTERs, a step of one task at a time. -/
def registrarNode [DecidableEq ι] : Machine (RegistrarNode D ι) ι Unit :=
  fun state call =>
    let stepped :=
      registerStep P parseList R edge arrival now call state.auth state.store (state.task call)
    (⟨stepped.1, stepped.2.1, Function.update state.task call stepped.2.2⟩, [])

/-- How a step of a task goes. -/
inductive Registers (call : ι) (auth : TenantAuth D) (store : InMemoryStore) :
    Registering K → TenantAuth D × InMemoryStore × Registering K → Prop where
  | admitted (cmd : RegisterCommand K)
      (isCommand :
        (admission P parseList edge (arrival call) auth (now call)).2.1 = .command cmd) :
      Registers call auth store .arrived
        ((admission P parseList edge (arrival call) auth (now call)).1, store,
          .applying cmd (.reading 0))
  | refused :
      Registers call auth store .arrived
        ((admission P parseList edge (arrival call) auth (now call)).1, store, .turnedAway)
  | rested : Registers call auth store .turnedAway (auth, store, .turnedAway)
  | applied (cmd : RegisterCommand K) (phase : Phase) (next : InMemoryStore) (ends : Phase)
      (changes : List Change)
      (step : Advance R (edge.applies cmd) store phase (next, ends, changes)) :
      Registers call auth store (.applying cmd phase) (auth, next, .applying cmd ends)

theorem registers_step (call : ι) (auth : TenantAuth D) (store : InMemoryStore)
    (task : Registering K) :
    Registers P parseList R edge arrival now call auth store task
      (registerStep P parseList R edge arrival now call auth store task) := by
  cases task with
  | arrived =>
      have steps : registerStep P parseList R edge arrival now call auth store .arrived =
          ((admission P parseList edge (arrival call) auth (now call)).1, store,
            .ofAdmission (admission P parseList edge (arrival call) auth (now call)).2.1) :=
        rfl
      rw [steps]
      cases admitted : (admission P parseList edge (arrival call) auth (now call)).2.1 with
      | command cmd => exact .admitted cmd admitted
      | challenge response => exact .refused
      | reject rejection => exact .refused
  | turnedAway => exact .rested
  | applying cmd phase =>
      exact .applied cmd phase _ _ _ (advance_step R (edge.applies cmd) store phase)

/-- The node after a run from an empty store. -/
abbrev nodeAfter [DecidableEq ι] (auth : TenantAuth D) (inputs : List ι) : RegistrarNode D ι :=
  after (registrarNode P parseList R edge arrival now) (.start auth) inputs

end Node

/-! ## What a binding is traced to -/

section Policy

variable {D : DigestKernel K.Uri}

/-- Two states of the authenticator of one tenant. -/
structure SamePolicy (first second : TenantAuth D) : Prop where
  tenant : first.tenant = second.tenant
  required : first.required = second.required
  proxy : first.proxy = second.proxy

theorem samePolicy_decide (auth : TenantAuth D) (request : Request K.Uri)
    (credentials : CredentialStore) (now : Nat) :
    SamePolicy (auth.decide request credentials now).1 auth := by
  unfold TenantAuth.decide
  split
  · exact ⟨rfl, rfl, rfl⟩
  · split
    · exact ⟨rfl, rfl, rfl⟩
    · split
      · exact ⟨rfl, rfl, rfl⟩
      · simp only
        split <;> exact ⟨rfl, rfl, rfl⟩

/-- A tenant that authenticates lets nobody through unnamed. -/
theorem decide_ne_proceed_none {auth : TenantAuth D} (required : auth.required = true)
    (request : Request K.Uri) (credentials : CredentialStore) (now : Nat) :
    (auth.decide request credentials now).2 ≠ .proceed none := by
  unfold TenantAuth.decide
  rw [required]
  cases D.fromRequest request auth.proxy with
  | none => simp
  | some presented =>
      by_cases realm : presented.realm = D.realm auth.authenticator
      · cases verdict : (D.verifyAt auth.authenticator presented request.method.token
            (auth.passwordFor credentials presented.username) now).2 with
        | authenticated => simp [realm, verdict]
        | stale => simp [realm, verdict]
        | rejected reason => simp [realm, verdict]
      · simp [realm]

variable {P : UriParts K} {parseList : Bytes → Option (List (ContactAddress K))}

theorem SamePolicy.admitted {state auth : TenantAuth D} (same : SamePolicy state auth)
    (edge : Edge) (arrival : Incoming K.Uri) (now : Timestamp) :
    SamePolicy (admission P parseList edge arrival state now).1 auth := by
  have admits : Admits P arrival.request state edge.credentials.store edge.registration now
      (admission P parseList edge arrival state now) := admits_admitAudited _ _ _ _ _ _
  by_cases served : ServesRequest P arrival.request state.tenant edge.registration
  · rw [(admits.reached served).1]
    have decided := samePolicy_decide state arrival.request edge.credentials.store now.asSecs
    exact ⟨decided.tenant.trans same.tenant, decided.required.trans same.required,
      decided.proxy.trans same.proxy⟩
  · rw [(admits.unreached served).1]
    exact same

/-- An admitted command was built of its request, for the principal that was let through. -/
theorem built_of_admission {edge : Edge} {arrival : Incoming K.Uri} {auth : TenantAuth D}
    {now : Timestamp} {cmd : RegisterCommand K}
    (admitted : (admission P parseList edge arrival auth now).2.1 = .command cmd) :
    ∃ principal,
      (auth.decide arrival.request edge.credentials.store now.asSecs).2 = .proceed principal ∧
        command P parseList arrival.request ⟨auth.tenant, some arrival.source, none⟩ principal
          edge.registration now = .ok cmd := by
  unfold admission admitAudited at admitted
  cases isAuthority : RequestAuthority.fromUri P arrival.request.uri with
  | none =>
      rw [isAuthority] at admitted
      contradiction
  | some authority =>
      simp only [isAuthority] at admitted
      split at admitted
      · contradiction
      have sameTenant := tenant_decide auth arrival.request edge.credentials.store now.asSecs
      cases decision : (auth.decide arrival.request edge.credentials.store now.asSecs).2 with
      | challenge response =>
          rw [decision] at admitted
          contradiction
      | forbidden =>
          rw [decision] at admitted
          contradiction
      | proceed principal =>
          simp only [decision] at admitted
          split at admitted
          · next command isOk =>
              cases admitted
              rw [sameTenant] at isOk
              exact ⟨principal, rfl, isOk⟩
          · contradiction

end Policy

/-- What a call is about to commit has this property. -/
def HoldsOnly (property : Binding → Prop) : Phase → Prop
  | .reading _ => True
  | .holding set _ _ _ => ∀ binding ∈ set, property binding
  | .done _ => True

theorem HoldsOnly.mono {first second : Binding → Prop} {phase : Phase}
    (holds : HoldsOnly first phase) (within : ∀ binding, first binding → second binding) :
    HoldsOnly second phase := by
  cases phase with
  | reading conflicts => exact trivial
  | holding set response revision conflicts =>
      exact fun binding member => within binding (holds binding member)
  | done applied => exact trivial

section Step

variable {R : ContactRules K} {task : Task K} {store next : InMemoryStore} {phase ends : Phase}
  {changes : List Change} {property : Binding → Prop}

/-- A property of the bindings of a row that the command of a call keeps up is one of what the call
holds and of what it installs. -/
theorem holdsOnly_advance (step : Advance R task store phase (next, ends, changes))
    (row : ∀ binding ∈ (store.row task.key).1, property binding)
    (writes : ∀ binding, Writes task.cmd binding → property binding)
    (holds : HoldsOnly property phase) :
    HoldsOnly property ends ∧ ∀ binding ∈ (next.row task.key).1, property binding := by
  cases step with
  | answered conflicts nothing => exact ⟨trivial, row⟩
  | decided conflicts set response decides =>
      constructor
      · intro binding member
        rcases writes_of_commit decides member with stood | written
        · exact row binding stood
        · exact writes binding written
      · exact row
  | installed set response conflicts _ installs =>
      constructor
      · exact trivial
      · rw [installs, Function.update_self]
        exact holds
  | exhausted set response revision conflicts moved spent => exact ⟨trivial, row⟩
  | lost set response revision conflicts moved left => exact ⟨trivial, row⟩
  | finished applied => exact ⟨trivial, row⟩

/-- A call leaves every row but its own. -/
theorem row_advance_of_ne (step : Advance R task store phase (next, ends, changes)) {key : RowKey}
    (other : key ≠ task.key) : next.row key = store.row key := by
  cases step with
  | installed set response conflicts _ installs => rw [installs, Function.update_of_ne other]
  | answered _ _ => rfl
  | decided _ _ _ _ => rfl
  | exhausted _ _ _ _ _ _ => rfl
  | lost _ _ _ _ _ _ => rfl
  | finished _ => rfl

end Step

section Runs

variable {D : DigestKernel K.Uri} {ι : Type u} [DecidableEq ι] (P : UriParts K)
  (parseList : Bytes → Option (List (ContactAddress K))) (R : ContactRules K) (edge : Edge)
  (arrival : ι → Incoming K.Uri) (now : ι → Timestamp) (auth : TenantAuth D)

/-- The step after `past` lets the request of a call in, as this command. -/
def LetsIn (call : ι) (cmd : RegisterCommand K) (past : List ι) (input : ι) : Prop :=
  input = call ∧
    (admission P parseList edge (arrival call)
      (nodeAfter P parseList R edge arrival now auth past).auth (now call)).2.1 = .command cmd

/-- A call that was let in wrote the binding, in this row. -/
def Traces (inputs : List ι) (key : RowKey) (binding : Binding) : Prop :=
  ∃ call cmd, Happened (LetsIn P parseList R edge arrival now auth call cmd) inputs ∧
    (cmd.tenant, cmd.aor) = key ∧ Writes cmd binding

/-- What is known of a task: it applies a command it was let in with. -/
def TracedTask (inputs : List ι) (call : ι) : Registering K → Prop
  | .arrived => True
  | .turnedAway => True
  | .applying cmd phase =>
      Happened (LetsIn P parseList R edge arrival now auth call cmd) inputs ∧
        HoldsOnly (Traces P parseList R edge arrival now auth inputs (cmd.tenant, cmd.aor)) phase

/-- What is known of the node after a run. -/
structure Traced (inputs : List ι) : Prop where
  policy : SamePolicy (nodeAfter P parseList R edge arrival now auth inputs).auth auth
  tasks : ∀ call, TracedTask P parseList R edge arrival now auth inputs call
    ((nodeAfter P parseList R edge arrival now auth inputs).task call)
  rows : ∀ key, ∀ binding ∈ ((nodeAfter P parseList R edge arrival now auth inputs).store.row key).1,
    Traces P parseList R edge arrival now auth inputs key binding

variable {P parseList R edge arrival now auth}

theorem Traces.concat {past : List ι} {key : RowKey} {binding : Binding}
    (traces : Traces P parseList R edge arrival now auth past key binding) (input : ι) :
    Traces P parseList R edge arrival now auth (past ++ [input]) key binding := by
  obtain ⟨call, cmd, letIn, sameKey, writes⟩ := traces
  exact ⟨call, cmd, happened_concat_iff.mpr (.inl letIn), sameKey, writes⟩

theorem TracedTask.concat {past : List ι} {call : ι} {task : Registering K}
    (traced : TracedTask P parseList R edge arrival now auth past call task) (input : ι) :
    TracedTask P parseList R edge arrival now auth (past ++ [input]) call task := by
  cases task with
  | arrived => exact trivial
  | turnedAway => exact trivial
  | applying cmd phase =>
      constructor
      · exact happened_concat_iff.mpr (.inl traced.1)
      · exact traced.2.mono fun binding traces => traces.concat input

/-- Where a step of a task leads. -/
theorem Traced.step {past : List ι} (traced : Traced P parseList R edge arrival now auth past)
    {call : ι} {left : TenantAuth D} {next : InMemoryStore} {ends : Registering K}
    (step : Registers P parseList R edge arrival now call
      (nodeAfter P parseList R edge arrival now auth past).auth
      (nodeAfter P parseList R edge arrival now auth past).store
      ((nodeAfter P parseList R edge arrival now auth past).task call) (left, next, ends)) :
    SamePolicy left auth ∧
      TracedTask P parseList R edge arrival now auth (past ++ [call]) call ends ∧
        ∀ key, ∀ binding ∈ (next.row key).1,
          Traces P parseList R edge arrival now auth (past ++ [call]) key binding := by
  have rows := fun key binding member => (traced.rows key binding member).concat call
  have mine := (traced.tasks call).concat call
  have policy := traced.policy
  generalize standing : (nodeAfter P parseList R edge arrival now auth past).task call = task
    at step mine
  cases step with
  | admitted cmd isCommand =>
      refine ⟨policy.admitted edge (arrival call) (now call), ⟨?_, trivial⟩, rows⟩
      exact happened_concat_iff.mpr (.inr ⟨rfl, isCommand⟩)
  | refused =>
      exact ⟨policy.admitted edge (arrival call) (now call), trivial, rows⟩
  | rested => exact ⟨policy, trivial, rows⟩
  | applied cmd phase _ ends changes step =>
      have written : ∀ binding, Writes cmd binding →
          Traces P parseList R edge arrival now auth (past ++ [call]) (cmd.tenant, cmd.aor)
            binding :=
        fun binding writes => ⟨call, cmd, mine.1, rfl, writes⟩
      obtain ⟨holds, row⟩ := holdsOnly_advance step (rows (cmd.tenant, cmd.aor)) written mine.2
      refine ⟨policy, ⟨mine.1, holds⟩, fun key binding member => ?_⟩
      by_cases same : key = (cmd.tenant, cmd.aor)
      · subst key
        exact row binding member
      · rw [row_advance_of_ne step same] at member
        exact rows key binding member

theorem traced_nodeAfter (inputs : List ι) :
    Traced P parseList R edge arrival now auth inputs := by
  induction inputs using List.reverseRecOn with
  | nil =>
      refine ⟨⟨rfl, rfl, rfl⟩, fun _ => trivial, fun key binding member => ?_⟩
      contradiction
  | append_singleton past call ih =>
      have step := registers_step P parseList R edge arrival now call
        (nodeAfter P parseList R edge arrival now auth past).auth
        (nodeAfter P parseList R edge arrival now auth past).store
        ((nodeAfter P parseList R edge arrival now auth past).task call)
      rcases isStep : registerStep P parseList R edge arrival now call
          (nodeAfter P parseList R edge arrival now auth past).auth
          (nodeAfter P parseList R edge arrival now auth past).store
          ((nodeAfter P parseList R edge arrival now auth past).task call) with ⟨left, next, ends⟩
      rw [isStep] at step
      obtain ⟨policy, mine, rows⟩ := ih.step step
      have moved : nodeAfter P parseList R edge arrival now auth (past ++ [call]) =
          ⟨left, next, Function.update
            (nodeAfter P parseList R edge arrival now auth past).task call ends⟩ := by
        rw [nodeAfter, after_concat]
        simp only [registrarNode, isStep]
      refine ⟨?_, fun other => ?_, ?_⟩
      · rw [moved]
        exact policy
      · rw [moved]
        by_cases same : other = call
        · subst other
          simp only [Function.update_self]
          exact mine
        · simp only [Function.update_of_ne same]
          exact (ih.tasks other).concat call
      · rw [moved]
        exact rows

variable (P parseList R edge arrival now auth) in
/-- The request of this call, after these steps, is what vouches for the binding of this row. -/
structure Vouches (key : RowKey) (binding : Binding) (past : List ι) (call : ι) : Prop where
  tenant : key.1 = auth.tenant
  /-- Authentication let the request through, for the principal of the binding. -/
  decided : ((nodeAfter P parseList R edge arrival now auth past).auth.decide (arrival call).request
    edge.credentials.store (now call).asSecs).2 = .proceed binding.principal
  /-- A tenant that authenticates verified the credentials of the user that the binding names. -/
  verified : auth.required = true → ∃ presented,
    D.fromRequest (arrival call).request auth.proxy = some presented ∧
      (D.verifyAt (nodeAfter P parseList R edge arrival now auth past).auth.authenticator presented
        (arrival call).request.method.token
          (auth.passwordFor edge.credentials.store presented.username) (now call).asSecs).2 =
        .authenticated ∧
      binding.principal = some (auth.principal presented.username)
  authorized : edge.registration.authorizes key.1 binding.principal key.2 = true
  /-- The row is the one of the address-of-record that the request is for. -/
  addressed : ∃ value address, Headers.value (arrival call).request.headers .toHeader = some value ∧
    K.parseAddress value = some address ∧ CanonicalAor.fromUri P address.uri = .ok key.2
  spelled : SpelledContact parseList (arrival call).request binding.contact
  /-- Calls through the binding go back to where the request came from. -/
  received : binding.received = some (arrival call).source
  refreshed : binding.refreshedAt = now call

theorem verified_of_decided {state auth : TenantAuth D} (same : SamePolicy state auth)
    {request : Request K.Uri} {credentials : CredentialStore} {now : Nat}
    {principal : Option Bytes} (required : auth.required = true)
    (decided : (state.decide request credentials now).2 = .proceed principal) :
    ∃ presented, D.fromRequest request auth.proxy = some presented ∧
      (D.verifyAt state.authenticator presented request.method.token
          (auth.passwordFor credentials presented.username) now).2 = .authenticated ∧
        principal = some (auth.principal presented.username) := by
  have demanded : state.required = true := same.required.trans required
  cases principal with
  | none => exact absurd decided (decide_ne_proceed_none demanded request credentials now)
  | some named =>
      obtain ⟨-, presented, offered, -, accepted, isNamed⟩ :=
        (decide_eq_proceed_iff state request credentials now named).mp decided
      rw [same.proxy] at offered
      rw [TenantAuth.passwordFor, same.tenant] at accepted
      rw [TenantAuth.principal, same.tenant] at isNamed
      exact ⟨presented, offered, accepted, congrArg some isNamed.symm⟩

theorem LetsIn.vouches {call : ι} {cmd : RegisterCommand K} {past : List ι} {input : ι}
    (letIn : LetsIn P parseList R edge arrival now auth call cmd past input) {binding : Binding}
    (writes : Writes cmd binding) :
    Vouches P parseList R edge arrival now auth (cmd.tenant, cmd.aor) binding past input := by
  obtain ⟨rfl, isCommand⟩ := letIn
  have same : SamePolicy (nodeAfter P parseList R edge arrival now auth past).auth auth :=
    (traced_nodeAfter past).policy
  obtain ⟨principal, decided, isBuilt⟩ := built_of_admission isCommand
  have built := built_of_command isBuilt
  obtain ⟨received, asked, isContacts⟩ := handed_of_command isBuilt
  have whose : binding.principal = principal := writes.principal.trans built.principal
  obtain ⟨value, address, authority, isValue, isAddress, isAor, -, -⟩ := built.addressOfRecord
  obtain ⟨ops, op, granted, registeredAt, explicit, member, rfl⟩ := writes
  constructor
  · exact built.tenant.trans same.tenant
  · rw [whose]
    exact decided
  · intro required
    rw [whose]
    exact verified_of_decided same required decided
  · exact built.authorized
  · exact ⟨value, address, isValue, isAddress, isAor⟩
  · rw [explicit] at isContacts
    exact spelled_of_contactOps isContacts member
  · exact received
  · exact asked

/-- Every binding that is ever in the store stands there by a request that was let in: for its
principal, for its row, with its contact, and from the address it is reached at. -/
theorem bindings_vouched (inputs : List ι) {key : RowKey} {binding : Binding}
    (member : binding ∈ ((nodeAfter P parseList R edge arrival now auth inputs).store.row key).1) :
    Happened (Vouches P parseList R edge arrival now auth key binding) inputs := by
  obtain ⟨call, cmd, ⟨past, input, future, split, letIn⟩, rfl, writes⟩ :=
    (traced_nodeAfter inputs).rows key binding member
  exact ⟨past, input, future, split, letIn.vouches writes⟩

end Runs

/-! ## A phone that registers -/

/-- A row with one address and no parameters. -/
def soleAddress (value : Bytes) : Option (List (ContactAddress Reference.kernel)) :=
  match Reference.parseAddress value with
  | none => none
  | some address =>
      if spells : Reference.parseUri address.uri.raw = some address.uri then
        some [⟨address.uri, spells, fun _ => none⟩]
      else
        none

/-- The phone of `alice` answers the challenge of `acme`. -/
def alicesPhone : Incoming Reference.ParsedUri where
  request :=
    let answered :=
      registerAs "alice" "53ba372e1dc9872ff16fa5305d2733b2a884f5b776803ef8eb272ff5db53b668"
    { answered with
      headers := answered.headers ++
        [Reference.row .toHeader "<sip:alice@acme.example>", Reference.row .callId "a",
          Reference.row .cSeq "1 REGISTER", Reference.row contactHeader "<sip:alice@10.0.0.7>"] }
  source := ⟨text "UDP", .v4 (BitVec.ofNat 32 167772167), 5060⟩

def alicesAor : CanonicalAor :=
  ⟨text "sip:alice@acme.example"⟩

/-- The edge of `acme`, where `alice` may register what is hers. -/
def acmeEdge : Edge where
  tenant := text "acme"
  policy := .default
  registration := RegistrationConfig.policy ⟨fun _ => none, fun _ _ => false⟩
    ⟨text "acme", [], .restricted [⟨bytes "acme:alice", alicesAor⟩]⟩
  credentials := .record [] (text "acme") (text "alice") (text "wonderland")

/-- The phone is admitted, reads the row, and commits. -/
theorem bindings_vouched_alice :
    ∃ binding ∈ ((nodeAfter referenceParts soleAddress Reference.rules acmeEdge
        (fun _ : Unit => alicesPhone) (fun _ => 1010 * nanosPerSecond) acme
          [(), (), ()]).store.row (text "acme", alicesAor)).1,
      Happened (Vouches referenceParts soleAddress Reference.rules acmeEdge
        (fun _ : Unit => alicesPhone) (fun _ => 1010 * nanosPerSecond) acme
          (text "acme", alicesAor) binding) [(), (), ()] := by
  have registered : ((nodeAfter referenceParts soleAddress Reference.rules acmeEdge
      (fun _ : Unit => alicesPhone) (fun _ => 1010 * nanosPerSecond) acme
        [(), (), ()]).store.row (text "acme", alicesAor)).1 ≠ [] := by
    decide +kernel
  obtain ⟨binding, member⟩ := List.exists_mem_of_ne_nil _ registered
  exact ⟨binding, member, bindings_vouched [(), (), ()] member⟩

end SipxClstr.Node
