import SipxClstr.Node.RegisterResponse
import SipxClstr.Node.Return
import SipxClstr.Node.Startup
import SipxClstr.Reactive.Pool

/-!
# The admission bound

The accept loop takes arrivals one at a time and gives each a task of its own.  Tasks take their
steps in any order; one that serves a gated request holds a permit until it ends, and a gated
arrival that finds no permit left is refused.
-/

namespace SipxClstr.Node

open SipxClstr.Sip SipxClstr.Proxy SipxClstr.Startup Reactive Reactive.Machine

/-! ## The bound -/

/-- The bound on the transactions in flight, and its counters. -/
structure AdmissionBound where
  max : Nat
  /-- Permits held. -/
  inFlight : Nat
  admitted : UInt64
  refused : UInt64
  deriving DecidableEq

/-- What the bound decides about an arrival. -/
inductive Verdict where
  | exempt
  /-- The arrival holds a permit from here on. -/
  | admitted
  | refused
  deriving DecidableEq, Repr

namespace AdmissionBound

/-- A bound of none is clamped. -/
def new (declared : Nat) : AdmissionBound where
  max := Nat.max declared 1
  inFlight := 0
  admitted := 0
  refused := 0

/-- Whether the bound applies to a method. -/
def gates : Method → Bool
  | .register | .ack => false
  | _ => true

/-- `admit`: decide whether to take on one arrival. -/
def admitArrival (bound : AdmissionBound) (method : Method) : AdmissionBound × Verdict :=
  if !gates method then
    (bound, .exempt)
  else if bound.inFlight < bound.max then
    ({ bound with inFlight := bound.inFlight + 1, admitted := bound.admitted + 1 }, .admitted)
  else
    ({ bound with refused := bound.refused + 1 }, .refused)

/-- A permit is dropped. -/
def release (bound : AdmissionBound) : AdmissionBound :=
  { bound with inFlight := bound.inFlight - 1 }

end AdmissionBound

/-! ## The paths -/

/-- Which path an arrival takes. -/
inductive Dispatch where
  | registrar
  | proxy
  | ack
  /-- No path serves the method. -/
  | notAllowed
  /-- An ACK that cannot be forwarded, and has no response. -/
  | unroutable
  deriving DecidableEq, Repr

/-- `Dispatch::of`. -/
def Dispatch.of (capabilities : Capabilities) : Method → Dispatch
  | .register => if capabilities.registrar then .registrar else .notAllowed
  | .ack => if capabilities.proxy then .ack else .unroutable
  | _ => if capabilities.proxy then .proxy else .notAllowed

/-- The methods a node serves. -/
def allowedMethods (capabilities : Capabilities) : List Method :=
  (if capabilities.proxy then [.invite, .ack, .bye, .cancel, .options] else []) ++
    if capabilities.registrar then [.register] else []

/-- `allowed`: the `Allow` value. -/
def allowed (capabilities : Capabilities) : Text :=
  [',', ' '].intercalate ((allowedMethods capabilities).map Method.token)

section Answers

variable (K : Kernel) (newResponse : StatusCode → Text → Option Response)

/-- An answer with one row more, where the row can be built. -/
def answerWith (request : Request K.Uri) (status : Nat) (name : HeaderName) (value : Bytes) :
    Response :=
  let response := answer K newResponse request status (reasonFor status)
  match Header.build K name value with
  | some header => { response with headers := Headers.push response.headers header }
  | none => response

/-- `RETRY_AFTER`. -/
def retryAfter : Bytes :=
  bytes "5"

/-- `HeaderName::Allow`. -/
def allowHeader : HeaderName :=
  .other (text "allow")

/-- `overloaded`: the refusal of a request the node does not take on. -/
def overloaded (request : Request K.Uri) : Response :=
  answerWith K newResponse request 503 .retryAfter retryAfter

/-- `not_allowed`: the refusal of a method no role of the node serves. -/
def notAllowed (request : Request K.Uri) (capabilities : Capabilities) : Response :=
  answerWith K newResponse request 405 allowHeader (utf8 (allowed capabilities))

end Answers

/-! ## Tasks -/

/-- A request that arrived, and what the task that serves it will meet. -/
structure Arrival (Uri : Type) where
  request : Request Uri
  /-- The proxy that `proxy_config_keyed` builds for the listener it arrived on. -/
  proxy : ProxyConfig
  world : World
  /-- What the registrar answers it. -/
  registered : Response

/-- What a task is at. -/
inductive Work (Uri : Type) where
  /-- One answer, and nothing after it. -/
  | answer (response : Response)
  | forwardAck (request : Request Uri)
  /-- An unroutable ACK is dropped. -/
  | drop
  | proxy (world : World) (driver : Driver Uri)

/-- A task, and whether it holds a permit. -/
structure ServingTask (Uri : Type) where
  permit : Bool
  work : Work Uri

section Loop

variable (K : Kernel) (newResponse : StatusCode → Text → Option Response)
  (capabilities : Capabilities)

/-- The task takes a step, unless that was its last. -/
def ServingTask.step (task : ServingTask K.Uri) : Option (ServingTask K.Uri) :=
  match task.work with
  | .proxy world driver =>
      let next := driver.step K world
      if next.status = .running then some { task with work := .proxy world next } else none
  | _ => none

/-- `serve`: what an arrival's task has to do. -/
def serve (arrival : Arrival K.Uri) : Work K.Uri :=
  match Dispatch.of capabilities arrival.request.method with
  | .registrar => .answer arrival.registered
  | .ack => .forwardAck arrival.request
  | .proxy => .proxy arrival.world (Driver.start K arrival.proxy arrival.request)
  | .notAllowed => .answer (notAllowed K newResponse arrival.request capabilities)
  | .unroutable => .drop

/-- The node: its bound, and the tasks that have not ended. -/
structure Serving (Uri : Type) where
  gate : AdmissionBound
  tasks : List (ServingTask Uri)

/-- What happens at a node. -/
inductive ServingEvent (Uri : Type) where
  | arrives (arrival : Arrival Uri)
  /-- The task at a place takes a step. -/
  | runs (place : Nat)

def Serving.start (Uri : Type) (declared : Nat) : Serving Uri :=
  ⟨.new declared, []⟩

/-- A refused arrival's task only answers, and holds no permit. -/
def admittedTask (arrival : Arrival K.Uri) : Verdict → ServingTask K.Uri
  | .exempt => ⟨false, serve K newResponse capabilities arrival⟩
  | .admitted => ⟨true, serve K newResponse capabilities arrival⟩
  | .refused => ⟨false, .answer (overloaded K newResponse arrival.request)⟩

/-- The permit of the task at a place is dropped, where that was its last step. -/
def releaseAt (state : Serving K.Uri) (place : Nat) : AdmissionBound :=
  match state.tasks[place]? with
  | none => state.gate
  | some task =>
      match task.step K with
      | some _ => state.gate
      | none => if task.permit then state.gate.release else state.gate

/-- The accept loop of `run_reporting` and the tasks it spawns; each arrival emits its
method and what was decided of it. -/
def acceptLoop : Machine (Serving K.Uri) (ServingEvent K.Uri) (Method × Verdict) :=
  fun state event =>
    match event with
    | .arrives arrival =>
        let (gate, verdict) := state.gate.admitArrival arrival.request.method
        (⟨gate, state.tasks ++ [admittedTask K newResponse capabilities arrival verdict]⟩,
          [(arrival.request.method, verdict)])
    | .runs place =>
        (⟨releaseAt K state place, runAt (ServingTask.step K) state.tasks place⟩, [])

end Loop

/-! ## Permits -/

section Permits

variable {K : Kernel}

/-- How many tasks hold a permit. -/
def permits {Uri : Type} (tasks : List (ServingTask Uri)) : Nat :=
  tasks.countP ServingTask.permit

theorem ServingTask.permit_step {task next : ServingTask K.Uri} (goesOn : task.step K = some next) :
    next.permit = task.permit := by
  unfold ServingTask.step at goesOn
  split at goesOn
  · simp only at goesOn
    split at goesOn
    · rw [← Option.some.inj goesOn]
    · contradiction
  · contradiction

/-- A permit is dropped with the last step of the task that holds it. -/
theorem permits_runAt {gate : AdmissionBound} (tasks : List (ServingTask K.Uri)) (place : Nat)
    (others : Nat)
    (held : gate.inFlight = others + permits tasks) :
    (releaseAt K ⟨gate, tasks⟩ place).inFlight =
      others + permits (runAt (ServingTask.step K) tasks place) := by
  induction tasks generalizing place others with
  | nil => exact held
  | cons task rest ih =>
      cases place with
      | zero =>
          simp only [releaseAt, List.getElem?_cons_zero, runAt]
          cases goesOn : task.step K with
          | some next =>
              simp only [Option.toList_some, List.singleton_append, permits, List.countP_cons,
                ServingTask.permit_step goesOn] at held ⊢
              exact held
          | none =>
              simp only [Option.toList_none, List.nil_append, permits, List.countP_cons] at held ⊢
              cases holds : task.permit with
              | false => simpa [holds] using held
              | true =>
                  simp only [holds, if_true, AdmissionBound.release] at held ⊢
                  omega
      | succ place =>
          have counted : permits (task :: rest) = permits [task] + permits rest := by
            rw [permits, ← List.singleton_append, List.countP_append, permits, permits]
          have later := ih place (others + permits [task]) (by omega)
          simp only [releaseAt, List.getElem?_cons_succ, runAt] at later ⊢
          rw [later, Nat.add_assoc, permits, permits, permits, ← List.countP_append]
          rfl

/-- Nothing but the gauge moves when a task takes a step, and it never rises. -/
theorem exists_releaseAt_eq (state : Serving K.Uri) (place : Nat) :
    ∃ held ≤ state.gate.inFlight, releaseAt K state place = { state.gate with inFlight := held } := by
  unfold releaseAt
  split
  · exact ⟨_, Nat.le_refl _, rfl⟩
  · split
    · exact ⟨_, Nat.le_refl _, rfl⟩
    · split
      · exact ⟨_, Nat.sub_le _ 1, rfl⟩
      · exact ⟨_, Nat.le_refl _, rfl⟩

/-! ## Every task ends -/

/-- A task whose driver stops ends. -/
theorem exists_endsIn_of_stopped {world : World} (permit : Bool) (steps : Nat)
    {driver : Driver K.Uri} (stopped : ((Driver.step K world)^[steps] driver).status ≠ .running) :
    ∃ count, EndsIn (ServingTask.step K) count ⟨permit, .proxy world driver⟩ := by
  induction steps generalizing driver with
  | zero =>
      have ends : ServingTask.step K ⟨permit, .proxy world driver⟩ = none := by
        rw [Function.iterate_zero_apply] at stopped
        simp only [ServingTask.step, Driver.step_of_stopped stopped]
        exact if_neg stopped
      exact ⟨1, .last ends⟩
  | succ steps ih =>
      rw [Function.iterate_succ_apply] at stopped
      by_cases running : (driver.step K world).status = .running
      · obtain ⟨count, ends⟩ := ih stopped
        have goesOn : ServingTask.step K ⟨permit, .proxy world driver⟩ =
            some ⟨permit, .proxy world (driver.step K world)⟩ := if_pos running
        exact ⟨count + 1, .earlier goesOn ends⟩
      · exact ⟨1, .last (if_neg running)⟩

/-- The task of an arrival ends, whatever the store and the network answer it. -/
theorem exists_endsIn (newResponse : StatusCode → Text → Option Response)
    (capabilities : Capabilities) (arrival : Arrival K.Uri) (verdict : Verdict) :
    ∃ steps, EndsIn (ServingTask.step K) steps
      (admittedTask K newResponse capabilities arrival verdict) := by
  have served : ∀ permit, ∃ steps, EndsIn (ServingTask.step K) steps
      ⟨permit, serve K newResponse capabilities arrival⟩ := by
    intro permit
    unfold serve
    cases Dispatch.of capabilities arrival.request.method with
    | proxy =>
        obtain ⟨steps, stopped⟩ := Driver.exists_stopped arrival.world
          (Driver.start K arrival.proxy arrival.request)
          (onInput_advances (coherent_new arrival.proxy) (.upstream arrival.request)).coherent
        exact exists_endsIn_of_stopped permit steps stopped
    | registrar => exact ⟨1, .last rfl⟩
    | ack => exact ⟨1, .last rfl⟩
    | notAllowed => exact ⟨1, .last rfl⟩
    | unroutable => exact ⟨1, .last rfl⟩
  cases verdict with
  | exempt => exact served false
  | admitted => exact served true
  | refused => exact ⟨1, .last rfl⟩

end Permits

/-! ## Runs -/

section Runs

variable {K : Kernel}

/-- How many arrivals were so decided. -/
def tally (verdict : Verdict) (verdicts : List (Method × Verdict)) : Nat :=
  verdicts.countP fun decided => decided.2 = verdict

theorem tally_concat (verdict : Verdict) (verdicts : List (Method × Verdict))
    (decided : Method × Verdict) :
    tally verdict (verdicts ++ [decided]) =
      tally verdict verdicts + if decided.2 = verdict then 1 else 0 := by
  rw [tally, List.countP_append, List.countP_singleton, tally]
  simp only [decide_eq_true_eq]

/-- Where the bound stands, after deciding so of the arrivals so far. -/
structure BoundKept (declared : Nat) (state : Serving K.Uri) (verdicts : List (Method × Verdict)) :
    Prop where
  limit : state.gate.max = Nat.max declared 1
  held : state.gate.inFlight = permits state.tasks
  within : permits state.tasks ≤ Nat.max declared 1
  admitted : state.gate.admitted = UInt64.ofNat (tally .admitted verdicts)
  refused : state.gate.refused = UInt64.ofNat (tally .refused verdicts)
  exempt : ∀ decided ∈ verdicts, decided.2 = .exempt ↔ AdmissionBound.gates decided.1 = false

variable {declared : Nat} {state : Serving K.Uri} {verdicts : List (Method × Verdict)}

/-- A gated arrival is refused exactly when every permit is held. -/
theorem BoundKept.refused_iff (kept : BoundKept declared state verdicts) (method : Method) :
    (state.gate.admitArrival method).2 = .refused ↔
      AdmissionBound.gates method = true ∧ permits state.tasks = Nat.max declared 1 := by
  have within := kept.within
  unfold AdmissionBound.admitArrival
  rw [kept.limit, kept.held]
  cases AdmissionBound.gates method with
  | false => simp
  | true =>
      simp only [Bool.not_true, Bool.false_eq_true, if_false, true_and]
      split
      · next left =>
          constructor
          · intro refused
            contradiction
          · intro full
            exact absurd full (Nat.ne_of_lt left)
      · next full => exact ⟨fun _ => Nat.le_antisymm within (Nat.le_of_not_lt full), fun _ => rfl⟩

theorem boundKept_start : BoundKept (K := K) declared (.start K.Uri declared) [] where
  limit := rfl
  held := rfl
  within := Nat.zero_le _
  admitted := rfl
  refused := rfl
  exempt := by simp

theorem BoundKept.arrives (kept : BoundKept declared state verdicts)
    (newResponse : StatusCode → Text → Option Response) (capabilities : Capabilities)
    (arrival : Arrival K.Uri) :
    BoundKept declared
      (acceptLoop K newResponse capabilities state (.arrives arrival)).1
      (verdicts ++ (acceptLoop K newResponse capabilities state (.arrives arrival)).2) := by
  obtain ⟨limit, held, within, admitted, refused, exempt⟩ := kept
  have decides : ∀ verdict : Verdict,
      (verdict = .exempt ↔ AdmissionBound.gates arrival.request.method = false) →
        ∀ decided ∈ verdicts ++ [(arrival.request.method, verdict)],
          decided.2 = .exempt ↔ AdmissionBound.gates decided.1 = false := by
    intro verdict isExempt decided member
    rcases List.mem_append.mp member with before | now
    · exact exempt decided before
    · rw [List.mem_singleton.mp now]
      exact isExempt
  simp only [acceptLoop, AdmissionBound.admitArrival]
  cases gated : AdmissionBound.gates arrival.request.method with
  | false =>
      refine ⟨limit, ?_, ?_, ?_, ?_, decides .exempt (by simp [gated])⟩
      · simpa [admittedTask, permits] using held
      · simpa [admittedTask, permits] using within
      · simpa [tally_concat] using admitted
      · simpa [tally_concat] using refused
  | true =>
      simp only [Bool.not_true, Bool.false_eq_true, if_false]
      split
      · next left =>
          have room : permits state.tasks + 1 ≤ Nat.max declared 1 := by
            rw [limit, held] at left
            exact left
          refine ⟨limit, ?_, ?_, ?_, ?_, decides .admitted (by simp [gated])⟩
          · simpa [admittedTask, permits] using held
          · rw [permits, List.countP_append]
            exact room
          · simp [tally_concat, admitted, UInt64.ofNat_add]
          · simpa [tally_concat] using refused
      · refine ⟨limit, ?_, ?_, ?_, ?_, decides .refused (by simp [gated])⟩
        · simpa [admittedTask, permits] using held
        · simpa [admittedTask, permits] using within
        · simpa [tally_concat] using admitted
        · simp [tally_concat, refused, UInt64.ofNat_add]

theorem BoundKept.runs (kept : BoundKept declared state verdicts) (place : Nat) :
    BoundKept declared ⟨releaseAt K state place, runAt (ServingTask.step K) state.tasks place⟩
      verdicts := by
  obtain ⟨limit, held, within, admitted, refused, exempt⟩ := kept
  have dropped := permits_runAt state.tasks place 0 (by rw [held, Nat.zero_add])
  rw [Nat.zero_add] at dropped
  obtain ⟨fewer, atMost, released⟩ := exists_releaseAt_eq state place
  rw [released] at dropped ⊢
  refine ⟨limit, dropped, ?_, admitted, refused, exempt⟩
  rw [← dropped]
  rw [held] at atMost
  exact Nat.le_trans atMost within

variable (K) (newResponse : StatusCode → Text → Option Response) (capabilities : Capabilities)

/-- Nothing but the steps of tasks: the pool runs. -/
theorem tasks_after_runs (state : Serving K.Uri) (order : List Nat) :
    (after (acceptLoop K newResponse capabilities) state (order.map .runs)).tasks =
      runAll (ServingTask.step K) state.tasks order := by
  induction order generalizing state with
  | nil => rfl
  | cons place order ih => exact ih _

/-- **The admission bound, over every order of arrivals and of the steps of their tasks.**  The
gauge is the number of tasks that hold a permit, and stays within the bound; the counters count
the arrivals that were admitted and refused, and a method that is not gated is neither.  A gated
arrival is refused exactly when every permit is held.  No permit is held for good: whatever the
store and the network answer, the tasks all end, in whatever order they take their steps, and then
the gauge is at zero. -/
theorem admission_bounds (declared : Nat) (events : List (ServingEvent K.Uri)) :
    let loop := acceptLoop K newResponse capabilities
    let state := after loop (.start K.Uri declared) events
    BoundKept declared state (emitted loop (.start K.Uri declared) events) ∧
      (∀ method, (state.gate.admitArrival method).2 = .refused ↔
        AdmissionBound.gates method = true ∧ permits state.tasks = Nat.max declared 1) ∧
      ∃ bound, ∀ order, Serves (ServingTask.step K) state.tasks order →
        order.length ≤ bound ∧
          (runAll (ServingTask.step K) state.tasks order = [] →
            (after loop state (order.map .runs)).gate.inFlight = 0) := by
  intro loop state
  have always : ∀ events,
      BoundKept declared (after loop (.start K.Uri declared) events)
          (emitted loop (.start K.Uri declared) events) ∧
        AllEnd (ServingTask.step K) (after loop (.start K.Uri declared) events).tasks := by
    intro events
    refine run_always loop
      (fun _ verdicts state => BoundKept declared state verdicts ∧
        AllEnd (ServingTask.step K) state.tasks)
      ⟨boundKept_start, by simp [AllEnd, Serving.start]⟩ ?_ events
    rintro _ verdicts state event ⟨kept, ends⟩
    cases event with
    | arrives arrival =>
        refine ⟨kept.arrives newResponse capabilities arrival, ?_⟩
        intro task member
        rcases List.mem_append.mp member with before | now
        · exact ends task before
        · rw [List.mem_singleton.mp now]
          exact exists_endsIn newResponse capabilities arrival _
    | runs place =>
        refine ⟨?_, ends.runAt place⟩
        have runs := kept.runs place
        rwa [← List.append_nil verdicts] at runs
  obtain ⟨kept, ends⟩ := always events
  obtain ⟨bound, runsDry⟩ := ends.exists_bound
  refine ⟨kept, kept.refused_iff, bound, ?_⟩
  intro order serves
  refine ⟨runsDry order serves, ?_⟩
  intro ranDry
  have later := (always (events ++ order.map .runs)).1.held
  rw [after_append, tasks_after_runs, ranDry] at later
  exact later

end Runs

end SipxClstr.Node
