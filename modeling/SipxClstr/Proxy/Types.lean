import SipxClstr.Proxy.Config

/-!
# The proxy's sans-IO contract

What goes into the forwarding core and what comes out of it.  Effects are
ordered, and the driver performs them in order.
-/

namespace SipxClstr.Proxy

open SipxClstr.Sip

/-- One fork of one proxied request: the `Via` branch minted for it. -/
structure BranchId where
  branch : Text
  deriving DecidableEq, Repr

/-- Somewhere to forward to. -/
structure Target where
  /-- The URI to put in the Request-URI, verbatim. -/
  uri : Bytes
  /-- The route set to apply toward it, topmost first. -/
  routeSet : List Bytes
  /-- Preference in thousandths. -/
  q : Nat
  deriving DecidableEq, Repr

/-- What the proxy asked the driver to resolve. -/
structure TargetQuery where
  uri : Bytes
  deriving DecidableEq, Repr

/-- The verdict of verifying an affinity token found in a `Route`. -/
inductive TokenVerdict where
  | valid (tenant : Text)
  | invalid
  deriving DecidableEq, Repr

/-- What the platform `Route`s popped by preprocessing carried. -/
structure TokenCarriage where
  /-- The governing token: the first-popped one. -/
  token : Bytes
  /-- The pair's other entry. -/
  partner : Option Bytes
  deriving DecidableEq, Repr

/-- The `Record-Route` pair a dialog-forming request is stamped with. -/
structure RecordRouteTokens where
  originating : Bytes
  terminating : Bytes
  deriving DecidableEq, Repr

/-- A timer the proxy owns, above the transaction layer. -/
inductive ProxyTimer where
  /-- An INVITE branch that has stopped producing provisionals. -/
  | c
  deriving DecidableEq, Repr

/-- Something that happened to a proxied request. -/
inductive Input (Uri : Type) where
  | upstream (request : Request Uri)
  | branchResponse (response : Response) (branch : BranchId)
  | branchTransportError (branch : BranchId)
  | targetsResolved (targets : List Target)
  | targetsUnavailable
  | tokenFact (verdict : TokenVerdict)
  | tokensMinted (tokens : RecordRouteTokens)
  | timerFired (timer : ProxyTimer) (branch : Option BranchId)
  | upstreamCancelled

/-- Something the proxy wants done. -/
inductive Effect (Uri : Type) where
  /-- Answer the server transaction upstream. -/
  | respond (response : Response)
  /-- Put this request on a new client transaction. -/
  | forward (branch : BranchId) (request : Request Uri) (target : Target) (nextHop : Bytes)
  | cancelBranch (branch : BranchId)
  /-- Answer the CANCEL's own server transaction. -/
  | answerCancel
  | resolveTargets (query : TargetQuery)
  | verifyToken (token : Bytes) (partner : Option Bytes)
  | setTimer (timer : ProxyTimer) (branch : Option BranchId) (after : Nat)
  | clearTimer (timer : ProxyTimer) (branch : Option BranchId)
  /-- The context is finished. -/
  | terminate

namespace Effect

variable {Uri : Type}

/-- The response this effect sends upstream, if it answers. -/
@[simp]
def answer? : Effect Uri → Option Response
  | .respond response => some response
  | _ => none

/-- The branch this effect originates, if it forwards anything. -/
@[simp]
def launched? : Effect Uri → Option BranchId
  | .forward branch _ _ _ => some branch
  | _ => none

/-- The branch this effect cancels, if it cancels one. -/
@[simp]
def cancelled? : Effect Uri → Option BranchId
  | .cancelBranch branch => some branch
  | _ => none

/-- What this effect asks the location service for, if it asks anything. -/
@[simp]
def query? : Effect Uri → Option TargetQuery
  | .resolveTargets query => some query
  | _ => none

end Effect

section

variable {Uri : Type}

/-- The responses sent upstream, in order. -/
def answers (effects : List (Effect Uri)) : List Response :=
  effects.filterMap Effect.answer?

/-- The branches forwarded, in order. -/
def launches (effects : List (Effect Uri)) : List BranchId :=
  effects.filterMap Effect.launched?

/-- The branches cancelled, in order. -/
def cancels (effects : List (Effect Uri)) : List BranchId :=
  effects.filterMap Effect.cancelled?

/-- The questions put to the location service, in order. -/
def queries (effects : List (Effect Uri)) : List TargetQuery :=
  effects.filterMap Effect.query?

@[simp]
theorem answers_nil : answers ([] : List (Effect Uri)) = [] :=
  rfl

@[simp]
theorem answers_cons (effect : Effect Uri) (rest : List (Effect Uri)) :
    answers (effect :: rest) = effect.answer?.toList ++ answers rest := by
  cases effect <;> rfl

@[simp]
theorem answers_append (first second : List (Effect Uri)) :
    answers (first ++ second) = answers first ++ answers second :=
  List.filterMap_append

@[simp]
theorem answers_map_cancelBranch (ids : List BranchId) :
    answers (ids.map .cancelBranch : List (Effect Uri)) = [] := by
  induction ids with
  | nil => rfl
  | cons id rest ih => simpa using ih

@[simp]
theorem launches_nil : launches ([] : List (Effect Uri)) = [] :=
  rfl

@[simp]
theorem launches_cons (effect : Effect Uri) (rest : List (Effect Uri)) :
    launches (effect :: rest) = effect.launched?.toList ++ launches rest := by
  cases effect <;> rfl

@[simp]
theorem launches_append (first second : List (Effect Uri)) :
    launches (first ++ second) = launches first ++ launches second :=
  List.filterMap_append

@[simp]
theorem launches_map_cancelBranch (ids : List BranchId) :
    launches (ids.map .cancelBranch : List (Effect Uri)) = [] := by
  induction ids with
  | nil => rfl
  | cons id rest ih => simpa using ih

@[simp]
theorem cancels_nil : cancels ([] : List (Effect Uri)) = [] :=
  rfl

@[simp]
theorem cancels_cons (effect : Effect Uri) (rest : List (Effect Uri)) :
    cancels (effect :: rest) = effect.cancelled?.toList ++ cancels rest := by
  cases effect <;> rfl

@[simp]
theorem cancels_append (first second : List (Effect Uri)) :
    cancels (first ++ second) = cancels first ++ cancels second :=
  List.filterMap_append

@[simp]
theorem cancels_map_cancelBranch (ids : List BranchId) :
    cancels (ids.map .cancelBranch : List (Effect Uri)) = ids := by
  induction ids with
  | nil => rfl
  | cons id rest ih => simpa using ih

@[simp]
theorem queries_nil : queries ([] : List (Effect Uri)) = [] :=
  rfl

@[simp]
theorem queries_cons (effect : Effect Uri) (rest : List (Effect Uri)) :
    queries (effect :: rest) = effect.query?.toList ++ queries rest := by
  cases effect <;> rfl

@[simp]
theorem queries_append (first second : List (Effect Uri)) :
    queries (first ++ second) = queries first ++ queries second :=
  List.filterMap_append

@[simp]
theorem queries_map_cancelBranch (ids : List BranchId) :
    queries (ids.map .cancelBranch : List (Effect Uri)) = [] := by
  induction ids with
  | nil => rfl
  | cons id rest ih => simpa using ih

end

end SipxClstr.Proxy
