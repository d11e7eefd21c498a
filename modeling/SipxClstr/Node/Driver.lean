import SipxClstr.Proxy.Context

/-!
# Driving a proxied request

The driver feeds a response context one input at a time and performs its effects, in
order: it resolves targets, puts copies on client transactions and answers upstream.
It reads the branches concurrently and reduces their events one after the other.  What
the store and the network answer, and which branch is read next, is data.
-/

namespace SipxClstr.Node

open SipxClstr.Sip SipxClstr.Proxy

/-- What the transaction layer tells its user about a client transaction. -/
inductive TuEvent where
  | response (response : Response)
  | timeout
  | transportError
  | ack
  | request

/-- What the driver meets, step by step. -/
structure World where
  /-- `destination_of`: whether a next hop names an address. -/
  destinationOf : Bytes → Bool
  /-- The targets the location store answers with, unless it cannot be read. -/
  lookup : TargetQuery → Option (List Target)
  /-- `handle.send`, each time: the events the branch will bring, unless it fails. -/
  send : Nat → Option (List TuEvent)
  /-- `handle.respond`, each time: whether it succeeds. -/
  respond : Nat → Bool
  /-- `branches.join_next`, each time: which of the branches being read comes next. -/
  next : Nat → Nat
  /-- Whether its reader joins. -/
  joins : Nat → Bool

/-- Where `proxy_request` stands. -/
inductive Status where
  | running
  /-- It returned `Ok`. -/
  | returned
  /-- It returned an error of the transport. -/
  | failed
  deriving DecidableEq, Repr

/-- One call of `proxy_request`, and what it has done so far. -/
structure Driver (Uri : Type) where
  request : Request Uri
  context : ResponseContext Uri
  /-- The effects still to perform, in order. -/
  effects : List (Effect Uri)
  /-- The branches being read, each with the events it has yet to bring. -/
  branches : List (BranchId × List TuEvent)
  /-- Whether the end of these effects is where the loop looks if the context is finished. -/
  looping : Bool
  status : Status
  /-- How often each of `send`, `respond` and `join_next` was called. -/
  sends : Nat
  responds : Nat
  reads : Nat
  /-- What the context was fed, in order. -/
  inputs : List (Input Uri)
  /-- What was sent upstream, in order. -/
  responded : List Response

namespace Driver

section Handlers

variable (K : Kernel)

/-- Feed the context, and perform what it emits before anything else. -/
def feed (driver : Driver K.Uri) (input : Input K.Uri) : Driver K.Uri :=
  let (context, more) := onInput K driver.context input
  { driver with
    context := context
    effects := more ++ driver.effects
    inputs := driver.inputs ++ [input] }

/-- Perform one effect. -/
def perform (world : World) (driver : Driver K.Uri) : Effect K.Uri → Driver K.Uri
  | .resolveTargets query =>
      match world.lookup query with
      | some targets => driver.feed K (.targetsResolved targets)
      | none => driver.feed K .targetsUnavailable
  | .forward branch _ _ nextHop =>
      if !world.destinationOf nextHop then
        -- A hop that cannot be addressed is a branch that failed.
        driver.feed K (.branchTransportError branch)
      else
        match world.send driver.sends with
        | none => { driver with status := .failed }
        | some events =>
            { driver with
              sends := driver.sends + 1
              branches := driver.branches ++ [(branch, events)] }
  -- This node holds no key set.
  | .verifyToken _ _ => driver.feed K (.tokenFact .invalid)
  | .respond response =>
      if world.respond driver.responds then
        { driver with
          responds := driver.responds + 1
          responded := driver.responded ++ [response] }
      else
        { driver with status := .failed }
  | .cancelBranch _ | .answerCancel | .setTimer _ _ _ | .clearTimer _ _ | .terminate => driver

/-- What the context is told of an event of a branch, if anything. -/
def inputOf (request : Request K.Uri) (branch : BranchId) : TuEvent → Option (Input K.Uri)
  | .response response => some (.branchResponse response branch)
  | .timeout =>
      match buildResponse K request 408 (text "Request Timeout") with
      | some response => some (.branchResponse response branch)
      | none => some (.branchTransportError branch)
  | .transportError => some (.branchTransportError branch)
  | .ack | .request => none

/-- One event of a branch was read, or the end of its stream. -/
def joined (driver : Driver K.Uri) (branch : BranchId) : List TuEvent → Driver K.Uri
  | [] =>
      if driver.context.finished then
        { driver with status := .returned }
      else
        { driver with looping := true }.feed K (.branchTransportError branch)
  | event :: later =>
      let watched := { driver with branches := driver.branches ++ [(branch, later)] }
      match inputOf K driver.request branch event with
      | some input => { watched with looping := true }.feed K input
      | none => { watched with looping := false }

/-- `join_next`: one of the branches being read comes up, or its reader is lost. -/
def joinNext (world : World) (driver : Driver K.Uri) : Driver K.Uri :=
  let index := world.next driver.reads % driver.branches.length
  match driver.branches[index]? with
  | none => { driver with status := .returned }
  | some (branch, events) =>
      let rest := { driver with
        reads := driver.reads + 1
        branches := driver.branches.eraseIdx index }
      if world.joins driver.reads then
        rest.joined K branch events
      else
        { rest with looping := false }

/-- One step of `proxy_request`: the next effect, or else the next branch. -/
def step (world : World) (driver : Driver K.Uri) : Driver K.Uri :=
  match driver.status, driver.effects with
  | .running, effect :: rest => { driver with effects := rest }.perform K world effect
  | .running, [] =>
      if driver.looping && driver.context.finished then
        { driver with status := .returned }
      else
        driver.joinNext K world
  | _, _ => driver

/-- `proxy_request` begins: the request arrives at a new context. -/
def start (config : ProxyConfig) (request : Request K.Uri) : Driver K.Uri :=
  let (context, effects) := onInput K (.new config) (.upstream request)
  { request
    context
    effects
    branches := []
    looping := false
    status := .running
    sends := 0
    responds := 0
    reads := 0
    inputs := [.upstream request]
    responded := [] }

/-- `proxy_request` after some steps. -/
def proxyRequest (world : World) (config : ProxyConfig) (request : Request K.Uri)
    (steps : Nat) : Driver K.Uri :=
  (step K world)^[steps] (start K config request)

/-- Nothing of the transport fails in the step to come: a copy that has an address is
sent, an answer goes out, and the reader that comes up joins. -/
def Smooth (world : World) (driver : Driver K.Uri) : Prop :=
  match driver.effects with
  | .forward _ _ _ nextHop :: _ =>
      world.destinationOf nextHop = true → (world.send driver.sends).isSome = true
  | .respond _ :: _ => world.respond driver.responds = true
  | [] => world.joins driver.reads = true
  | _ => True

end Handlers

end Driver

end SipxClstr.Node
